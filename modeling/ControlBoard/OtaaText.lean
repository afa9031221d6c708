import ControlBoard.AtCommand
import ControlBoard.JoinConfig

/-!
# The texts of the OTAA commands

`strcat_m` appends the characters of a value up to its terminator to the text of a command,
whatever array the value lies in. So the module that acknowledges the command holds exactly
that value, as long as the AT client finds no printf directive in it.
-/

namespace ControlBoard

theorem cstr_copyString (str : List UInt8) (n : Nat) :
    cstr (copyString (List.replicate n 0) str) = cstr str := by
  induction str generalizing n with
  | nil => exact cstr_replicate_zero n
  | cons s str ih =>
    unfold copyString
    by_cases hs : s = 0
    · simp [hs, cstr]
    · rw [if_pos hs, cstr_cons hs, cstr_cons hs, List.tail_replicate, ih]

/-- On an array that holds the text `init` and zeros, `strcat_m` appends a string. -/
theorem cstr_strcatM {init : List UInt8} (h : 0 ∉ init) (n : Nat) (str : List UInt8) :
    cstr (strcatM (charArray n init) str) = init ++ cstr str := by
  unfold charArray
  generalize n - init.length = k
  induction init with
  | nil =>
    -- the first loop of strcat_m stops at once
    have hcopy : strcatM (List.replicate k 0) str = copyString (List.replicate k 0) str := by
      cases k with
      | zero => rfl
      | succ k => simp [List.replicate_succ, strcatM]
    rw [List.nil_append, hcopy, cstr_copyString, List.nil_append]
  | cons c init ih =>
    rw [List.mem_cons, not_or] at h
    have hc : c ≠ 0 := Ne.symm h.1
    rw [List.cons_append, strcatM, if_pos hc, cstr_cons hc, ih h.2, List.cons_append]

/-- `strcat_m` overwrites what its target holds from the terminator on. -/
theorem strcatM_eq {a b : List UInt8} (ha : 0 ∉ a) (hb : 0 ∉ b) (zs rest : List UInt8) :
    strcatM (a ++ 0 :: zs) (b ++ 0 :: rest) = a ++ b ++ 0 :: zs.drop b.length := by
  induction a with
  | nil =>
    have hcopy (dest : List UInt8) :
        copyString dest (b ++ 0 :: rest) = b ++ 0 :: dest.drop (b.length + 1) := by
      induction b generalizing dest with
      | nil => cases dest <;> rfl
      | cons c b ih =>
        rw [List.mem_cons, not_or] at hb
        rw [List.cons_append, copyString, if_pos (Ne.symm hb.1), ih hb.2, List.drop_tail]
        rfl
    rw [List.nil_append, List.nil_append, strcatM, if_neg (by simp), hcopy, List.drop_succ_cons]
  | cons c a ih =>
    rw [List.mem_cons, not_or] at ha
    rw [List.cons_append, strcatM, if_pos (Ne.symm ha.1), ih ha.2]
    rfl

/-- An array that has room for both texts holds the one behind the other, with a terminator. -/
theorem holds_strcatM {n : Nat} {a b : List UInt8} (ha : 0 ∉ a) (hb : 0 ∉ b)
    (hroom : a.length + b.length < n) (rest : List UInt8) :
    Holds n (strcatM (charArray n a) (b ++ 0 :: rest)) (a ++ b) := by
  obtain ⟨k, hk⟩ := Nat.exists_eq_add_of_lt hroom
  have hzeros : charArray n a = a ++ 0 :: List.replicate (b.length + k) 0 := by
    rw [charArray, show n - a.length = b.length + k + 1 by omega, List.replicate_succ]
  rw [hzeros, strcatM_eq ha hb]
  refine ⟨?_, _, rfl⟩
  simp only [List.length_append, List.length_cons, List.length_drop, List.length_replicate]
  omega

theorem otaaCommand_eq {name : List UInt8} (h : 0 ∉ name) (value : List UInt8) :
    otaaCommand name value = name ++ cstr value :=
  cstr_strcatM h 100 value

/-! ## What the module makes of them -/

namespace RadioModule

/-- The identity that an info stands for. -/
def ofInfo (info : AtRadioInfo) : RadioModule where
  devEui := cstr info.fromDevEui
  appEui := cstr info.fromAppEui
  appKey := cstr info.fromAppKey

variable {line : List UInt8}

/-- Texts of one length are beginnings of one text only if they are the same. -/
theorem not_isPrefixOf {name : List UInt8} (h : name <+: line) (name' : List UInt8)
    (hlen : name'.length = name.length) (hne : name' ≠ name) : ¬ name'.isPrefixOf line = true := by
  rw [List.isPrefixOf_iff_prefix]
  intro h'
  exact hne ((List.prefix_of_prefix_length_le h' h (Nat.le_of_eq hlen)).eq_of_length hlen)

end RadioModule

namespace Board

variable {b : Board}

/-- What the module finds behind the names of the three commands of an info. -/
def given (b : Board) (info : AtRadioInfo) : RadioModule where
  devEui := (b.line (otaaCommand (ascii "AT+DEVEUI=") info.fromDevEui)).drop 10
  appEui := (b.line (otaaCommand (ascii "AT+APPEUI=") info.fromAppEui)).drop 10
  appKey := (b.line (otaaCommand (ascii "AT+APPKEY=") info.fromAppKey)).drop 10

/-- Whatever the value, the line begins with the name of the command. -/
theorem prefix_line_otaaCommand (b : Board) (name value : List UInt8) (hnul : 0 ∉ name)
    (hplain : 37 ∉ name) (hlen : name.length < atCmdMaxLen) :
    name <+: b.line (otaaCommand name value) := by
  rw [otaaCommand_eq hnul]
  exact prefix_line hplain hlen (cstr value)

/-- A value without a percent sign is what the module finds. -/
theorem drop_line_otaaCommand {name value : List UInt8} (hnul : 0 ∉ name) (hname : 37 ∉ name)
    (hten : name.length = 10) (hlen : value.length ≤ 67) (hvalue : 37 ∉ cstr value) :
    (b.line (otaaCommand name value)).drop 10 = cstr value := by
  have hcstr : (cstr value).length ≤ value.length :=
    (List.takeWhile_sublist _).length_le
  rw [otaaCommand_eq hnul, line_plain, ← hten, List.drop_left]
  · rw [List.mem_append, not_or]
    exact ⟨hname, hvalue⟩
  · rw [List.length_append, atCmdMaxLen]
    omega

end Board

/-- An info is plain if no text of it has a percent sign. -/
structure AtRadioInfo.Plain (info : AtRadioInfo) : Prop where
  devEui : 37 ∉ cstr info.fromDevEui
  appEui : 37 ∉ cstr info.fromAppEui
  appKey : 37 ∉ cstr info.fromAppKey

/-- A plain info is what the module is given. -/
theorem AtRadioInfo.Plain.given {info : AtRadioInfo} (h : info.Plain) (b : Board) :
    b.given info = .ofInfo info := by
  have hlen : info.fromDevEui.length = 67 ∧ info.fromAppEui.length = 50 ∧
      info.fromAppKey.length = 33 := by
    simp [fromDevEui, fromAppEui, fromAppKey, info.devEui_length, info.appEui_length,
      info.appKey_length]
  rw [Board.given, RadioModule.ofInfo, RadioModule.mk.injEq]
  refine ⟨?_, ?_, ?_⟩
  · exact Board.drop_line_otaaCommand (by decide) (by decide) rfl (by omega) h.devEui
  · exact Board.drop_line_otaaCommand (by decide) (by decide) rfl (by omega) h.appEui
  · exact Board.drop_line_otaaCommand (by decide) (by decide) rfl (by omega) h.appKey

/-- For accepted arguments the three texts are the arguments. -/
theorem RadioModule.ofInfo_args (args : OtaaArgs) :
    RadioModule.ofInfo args.info.OTAA = ⟨args.deveui.1, args.appeui.1, args.appkey.1⟩ := by
  simp only [ofInfo, OtaaArgs.info, AtRadioInfo.fromDevEui, AtRadioInfo.fromAppEui,
    AtRadioInfo.fromAppKey, List.append_assoc, List.cons_append, List.nil_append,
    cstr_append_nul args.deveui.2, cstr_append_nul args.appeui.2, cstr_append_nul args.appkey.2]

end ControlBoard
