import ControlBoard.AtOutput
import ControlBoard.JoinSequence

/-!
# The configuration commands on the wire

`radio_set` checks the lengths of its arguments and not their characters, and the commands it
builds from them are printf formats for `at_exec_cmd`. An argument reaches the module as it was
typed exactly if it has no percent sign.
-/

namespace ControlBoard

/-- The command of step `i` is executed: the steps before it went through, and there is a
response object for it. -/
def Script.Executes (s : Script) (i : Nat) : Prop :=
  (∀ j < i, s.stepResult j = .ok) ∧ s.creates i = true

theorem Script.FirstFailure.lt_issued_iff {s : Script} {n k i : Nat} (h : s.FirstFailure n k)
    (hi : i < n) : i < s.issued n k ↔ s.Executes i := by
  unfold issued Executes
  rcases Nat.lt_trichotomy i k with hlt | rfl | hgt
  · have hok := h.before i hlt
    have hcreates := (stepResult_eq_ok.mp hok).1
    refine iff_of_true ?_ ⟨fun j hj => h.before j (by omega), hcreates⟩
    split
    · omega
    · exact hlt
  · rw [and_iff_right h.before]
    split
    · rename_i hcreates
      exact iff_of_true (Nat.lt_succ_self i) hcreates.2
    · rename_i hcreates
      exact iff_of_false (Nat.lt_irrefl i) fun hc => hcreates ⟨hi, hc⟩
  · refine iff_of_false ?_ fun hexec => h.fails (by omega) (hexec.1 k hgt)
    split
    · omega
    · omega

namespace OtaaArgs

/-- The three arguments. -/
def values (args : OtaaArgs) : List (List UInt8) := [args.deveui.1, args.appeui.1, args.appkey.1]

/-- The names of their commands have no percent sign, and no text is too long for `send_buf`. -/
theorem commands_getElem? (args : OtaaArgs) {i : Nat} (hi : i < 3) :
    ∃ text value, args.commands[i]? = some text ∧ args.values[i]? = some value ∧
      text.length < atCmdMaxLen ∧ (37 ∈ text ↔ 37 ∈ value) := by
  have hname (name value : List UInt8) (h : 37 ∉ name) : 37 ∈ name ++ value ↔ 37 ∈ value := by
    rw [List.mem_append, or_iff_right h]
  have hcases : i = 0 ∨ i = 1 ∨ i = 2 := by omega
  rcases hcases with rfl | rfl | rfl
  · refine ⟨_, _, rfl, rfl, ?_, hname _ _ (by decide)⟩
    rw [List.length_append, args.deveui_length]
    decide
  · refine ⟨_, _, rfl, rfl, ?_, hname _ _ (by decide)⟩
    rw [List.length_append, args.appeui_length]
    decide
  · refine ⟨_, _, rfl, rfl, ?_, hname _ _ (by decide)⟩
    rw [List.length_append, args.appkey_length]
    decide

end OtaaArgs

/-- The commands that are executed in a call which takes the board from `b` to `b'`. -/
def Board.sentSince (b b' : Board) : List (List UInt8) := b'.sent.drop b.sent.length

theorem radioSet_sentSince (fal : Bool) (useInfo : RadioInfo) (name : CString) (args : OtaaArgs)
    (b : Board) : ∃ k, b.script.FirstFailure 6 k ∧ b.sentSince
      ((radioSet fal useInfo [name, args.deveui, args.appeui, args.appkey]).run Board.handler b).2 =
        args.commands.take (b.script.issued 6 k) := by
  obtain ⟨issued, hsent, houtcome⟩ := raidoJoinConfigJoin_outcome fal useInfo args b
  obtain ⟨k, hfirst, -, hissued⟩ := houtcome.upToFailure
  refine ⟨k, hfirst, ?_⟩
  rw [radioSet_args, Prog.run_bind, Board.sentSince, Prog.pure_eq, Prog.run_ret, hsent,
    List.drop_left, hissued]

/-- The first three commands of an accepted `radio_set` are written to the device with the
arguments as they were typed, and nothing behind the command string is read, exactly if there is
no percent sign in an argument whose command is executed. -/
theorem config_verbatim_iff (convert : Format.Convert) (fal : Bool) (useInfo : RadioInfo)
    (name : CString) (args : OtaaArgs) (b : Board) (u : AtOutput) :
    (∀ i < 3, ∀ cmd, (b.sentSince ((radioSet fal useInfo
        [name, args.deveui, args.appeui, args.appkey]).run Board.handler b).2)[i]? = some cmd →
      ∃ text u', args.commands[i]? = some text ∧ atExecOutput convert cmd u = some u' ∧
        Verbatim text u u') ↔
    ∀ (i : Nat) (value : List UInt8), args.values[i]? = some value → b.script.Executes i →
      37 ∉ value := by
  obtain ⟨k, hfirst, hsent⟩ := radioSet_sentSince fal useInfo name args b
  rw [hsent]
  constructor
  · intro h i value hvalue hexec
    have hi : i < 3 := (List.getElem?_eq_some_iff.mp hvalue).1
    obtain ⟨text, value', htext, hvalue', hlen, hpercent⟩ := args.commands_getElem? hi
    rw [hvalue] at hvalue'
    cases hvalue'
    have hcmd : (args.commands.take (b.script.issued 6 k))[i]? = some text := by
      rw [List.getElem?_take_of_lt ((hfirst.lt_issued_iff (by omega)).mpr hexec), htext]
    obtain ⟨text', u', htext', houtput, hverbatim⟩ := h i hi text hcmd
    rw [htext] at htext'
    rw [Option.some_inj] at htext'
    subst htext'
    have hplain := (verbatim_iff hlen u).mp ⟨u', houtput, hverbatim⟩
    exact fun hmem => hplain (hpercent.mpr hmem)
  · intro h i hi cmd hcmd
    obtain ⟨text, value, htext, hvalue, hlen, hpercent⟩ := args.commands_getElem? hi
    have hlt : i < b.script.issued 6 k := by
      have := (List.getElem?_eq_some_iff.mp hcmd).1
      rw [List.length_take] at this
      omega
    rw [List.getElem?_take_of_lt hlt, htext, Option.some_inj] at hcmd
    rw [← hcmd]
    have hexec := (hfirst.lt_issued_iff (by omega)).mp hlt
    have hplain : 37 ∉ text := fun hmem => h i value hvalue hexec (hpercent.mp hmem)
    obtain ⟨u', houtput, hverbatim⟩ := (verbatim_iff hlen u).mpr hplain
    exact ⟨text, u', htext, houtput, hverbatim⟩

/-- A typing mistake in the first argument. -/
def OtaaArgs.mistyped : OtaaArgs :=
  { OtaaArgs.sample with
    deveui := ⟨ascii "%d22334455667788", by decide⟩
    deveui_length := by decide }

/-- The device is given a number from the stack in place of the first two characters. -/
theorem mistyped_not_verbatim :
    ¬ ∀ i < 3, ∀ cmd, (Board.factory.sentSince ((radioSet true OtaaArgs.sample.info
        [⟨ascii "radio_set", by decide⟩, OtaaArgs.mistyped.deveui, OtaaArgs.mistyped.appeui,
          OtaaArgs.mistyped.appkey]).run Board.handler Board.factory).2)[i]? = some cmd →
      ∃ text u', OtaaArgs.mistyped.commands[i]? = some text ∧
        atExecOutput (fun _ _ => ascii "0") cmd ⟨fun _ => 0, 0, [], 0⟩ = some u' ∧
        Verbatim text ⟨fun _ => 0, 0, [], 0⟩ u' := by
  intro h
  obtain ⟨text, u', htext, houtput, hverbatim⟩ :=
    h 0 (by decide) (ascii "AT+DEVEUI=%d22334455667788") (by decide +kernel)
  have hfirst : text = ascii "AT+DEVEUI=%d22334455667788" := (Option.some_inj.mp htext).symm
  subst hfirst
  exact absurd ((verbatim_iff (by decide) _).mp ⟨u', houtput, hverbatim⟩) (by decide)

end ControlBoard
