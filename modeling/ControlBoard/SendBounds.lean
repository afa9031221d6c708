import ControlBoard.Kernel
import ControlBoard.SendEncoding

/-!
# The arrays of a send

`at_radio_send_hex` builds the digits in `str[256]` and the command in `sendStr[512]`, and the AT
client formats that command into `send_buf[128]`. Here each array is the memory from its start
on, and every store and every read is followed offset by offset.
-/

namespace ControlBoard

/-- A local array of `n` bytes with its initialiser, and what lies behind it on the stack. -/
def localArray (n : Nat) (init : List UInt8) (behind : Nat → UInt8) : Nat → UInt8 :=
  fun i => if i < n then init.getD i 0 else behind i

/-- `byte_2_hexstr` (`AT_client_radio.c:132-156`) after so many turns of its loop, whose counter is
a `short` and counts up to a `uint8_t`: `dest`, and the offsets that were stored to. -/
def byte2HexstrLoop (source dest : Nat → UInt8) : Nat → (Nat → UInt8) × List Nat
  | 0 => (dest, [])
  | i + 1 =>
    let (dest, written) := byte2HexstrLoop source dest i
    let dest := Memory.write dest (i * 2) [hexDigit (source i >>> 4)]
    let dest := Memory.write dest (i * 2 + 1) [hexDigit (source i &&& 0x0f)]
    (dest, written ++ [i * 2, i * 2 + 1])

/-- The first loop of `strcat_m` from offset `cp` on, in less than so many turns. -/
def strcatScan (dest : Nat → UInt8) : Nat → Nat → Option Nat
  | 0, _ => none
  | fuel + 1, cp => if dest cp ≠ 0 then strcatScan dest fuel (cp + 1) else some cp

/-- What `strcat_m` leaves in `dest`, the offsets of `str` it read and those of `dest` it stored
to. -/
structure StrcatUse where
  dest : Nat → UInt8
  read : List Nat
  written : List Nat

/-- The second loop: offset `i` of `str` goes to offset `cp` of `dest`. -/
def strcatCopy (str : Nat → UInt8) : Nat → (Nat → UInt8) → Nat → Nat → Option StrcatUse
  | 0, _, _, _ => none
  | fuel + 1, dest, cp, i =>
    let dest := Memory.write dest cp [str i]
    if str i ≠ 0 then
      (strcatCopy str fuel dest (cp + 1) (i + 1)).map fun u =>
        ⟨u.dest, i :: u.read, cp :: u.written⟩
    else some ⟨dest, [i], [cp]⟩

/-- `strcat_m` (`AT_client_radio.c:160-169`), if each of its loops ends in less than so many
turns. -/
def strcatMLoop (fuel : Nat) (dest str : Nat → UInt8) : Option StrcatUse :=
  (strcatScan dest fuel 0).bind fun cp => strcatCopy str fuel dest cp 0

/-- The stack behind the two arrays of a send. -/
structure SendStack where
  behindStr : Nat → UInt8
  behindSendStr : Nat → UInt8

/-- `str` after the digits of `size` bytes were put there, with the offsets stored to. -/
def sendStrDigits (stack : SendStack) (data : Nat → UInt8) (size : UInt8) :
    (Nat → UInt8) × List Nat :=
  byte2HexstrLoop data (localArray 256 [] stack.behindStr) size.toNat

/-- The call of `strcat_m` in `at_radio_send_hex` (`AT_client_radio.c:173-199`). -/
def sendStrcat (fuel : Nat) (stack : SendStack) (data : Nat → UInt8) (size : UInt8) :
    Option StrcatUse :=
  strcatMLoop fuel (localArray 512 (ascii "AT+SENDHEX=") stack.behindSendStr)
    (sendStrDigits stack data size).1

/-- The three arrays are large enough: the digits and a terminator are in `str`, `strcat_m` ends,
reads `str` up to the first terminator and stores in `sendStr` only, and the text that is
formatted then, the C string in `sendStr`, is in `send_buf` with its terminator, so that no more
bytes are written to the device than `send_buf` was given. -/
structure SendBounds (convert : Format.Convert) (stack : SendStack) (data : Nat → UInt8)
    (size : UInt8) : Prop where
  strWritten : ∀ i ∈ (sendStrDigits stack data size).2, i < 256
  strNul : ∃ i < 256, (sendStrDigits stack data size).1 i = 0
  copied : ∃ fuel, ∃ use ∈ sendStrcat fuel stack data size,
    (∀ i ∈ use.read, ∀ j < i, (sendStrDigits stack data size).1 j ≠ 0) ∧
    (∀ i ∈ use.written, i < 512) ∧
    ∃ p ∈ Format.vsnprintf convert atCmdMaxLen (cstr (Memory.read use.dest 0 512)),
      p.ret + 1 ≤ atCmdMaxLen ∧ p.ret ≤ p.stored.length

variable {dest str : Nat → UInt8} {fuel cp i : Nat} {text : List UInt8}

/-! ## The loops -/

theorem byte2HexstrLoop_eq (source dest : Nat → UInt8) (n : Nat) :
    byte2HexstrLoop source dest n =
      (Memory.write dest 0 (hexText (Memory.read source 0 n)), List.range (n * 2)) := by
  induction n with
  | zero => simp [byte2HexstrLoop, Memory.read, hexText]
  | succ n ih =>
    have hlast : Memory.read source n 1 = [source n] := by simp [Memory.read]
    have hread : hexText (Memory.read source 0 (n + 1)) = hexText (Memory.read source 0 n) ++
        [hexDigit (source n >>> 4)] ++ [hexDigit (source n &&& 0x0f)] := by
      rw [Memory.read_add, Nat.zero_add, hlast, hexText, List.flatMap_append]
      simp [hexText]
    have hlen : (hexText (Memory.read source 0 n)).length = n * 2 := by
      rw [hexText_eq_encode, Hex.length_encode, Memory.length_read, Nat.mul_comm]
    have hrange : List.range ((n + 1) * 2) = List.range (n * 2) ++ [n * 2, n * 2 + 1] := by
      rw [Nat.succ_mul, List.range_succ, List.range_succ]
      simp
    rw [byte2HexstrLoop, ih, hread, hrange, ← Memory.write_write_append,
      ← Memory.write_write_append]
    simp only [List.length_append, List.length_singleton, hlen, Nat.zero_add]

/-- The scan ends at the terminator. -/
theorem strcatScan_eq (h : TextAt dest cp text) (htext : 0 ∉ text) :
    strcatScan dest fuel cp = if text.length < fuel then some (cp + text.length) else none := by
  induction text generalizing fuel cp with
  | nil =>
    cases fuel with
    | zero => rfl
    | succ fuel => simp [strcatScan, textAt_nil.mp h]
  | cons c text ih =>
    rw [List.mem_cons, not_or] at htext
    obtain ⟨hc, hrest⟩ := textAt_cons.mp h
    cases fuel with
    | zero => rfl
    | succ fuel =>
      rw [strcatScan, hc, if_pos (Ne.symm htext.1), ih hrest htext.2, List.length_cons]
      by_cases hfuel : text.length < fuel
      · rw [if_pos hfuel, if_pos (Nat.succ_lt_succ hfuel), Nat.add_right_comm, Nat.add_assoc]
      · rw [if_neg hfuel, if_neg (fun hlt => hfuel (Nat.lt_of_succ_lt_succ hlt))]

/-- The copy takes a text and its terminator. -/
theorem strcatCopy_eq (h : TextAt str i text) (htext : 0 ∉ text) :
    strcatCopy str fuel dest cp i =
      if text.length < fuel then
        some ⟨Memory.write dest cp (text ++ [0]), List.range' i (text.length + 1),
          List.range' cp (text.length + 1)⟩
      else none := by
  induction text generalizing fuel dest cp i with
  | nil =>
    cases fuel with
    | zero => rfl
    | succ fuel => simp [strcatCopy, textAt_nil.mp h]
  | cons c text ih =>
    rw [List.mem_cons, not_or] at htext
    obtain ⟨hc, hrest⟩ := textAt_cons.mp h
    cases fuel with
    | zero => rfl
    | succ fuel =>
      rw [strcatCopy, hc, if_pos (Ne.symm htext.1), ih hrest htext.2, List.length_cons]
      have hwrite : Memory.write (Memory.write dest cp [c]) (cp + 1) (text ++ [0]) =
          Memory.write dest cp (c :: text ++ [0]) := Memory.write_write_append
      by_cases hfuel : text.length < fuel
      · rw [if_pos hfuel, if_pos (Nat.succ_lt_succ hfuel), Option.map_some, hwrite]
        rfl
      · rw [if_neg hfuel, if_neg (fun hlt => hfuel (Nat.lt_of_succ_lt_succ hlt)), Option.map_none]

/-- A terminated text at each of the two is what makes the loops end. -/
theorem strcatMLoop_eq {a b : List UInt8} (ha : TextAt dest 0 a) (hb : TextAt str 0 b)
    (hanul : 0 ∉ a) (hbnul : 0 ∉ b) :
    strcatMLoop fuel dest str =
      if a.length < fuel ∧ b.length < fuel then
        some ⟨Memory.write dest a.length (b ++ [0]), List.range' 0 (b.length + 1),
          List.range' a.length (b.length + 1)⟩
      else none := by
  rw [strcatMLoop, strcatScan_eq ha hanul]
  by_cases hscan : a.length < fuel
  · rw [if_pos hscan, Option.bind_some, strcatCopy_eq hb hbnul, Nat.zero_add]
    simp only [hscan, true_and]
  · rw [if_neg hscan, Option.bind_none, if_neg (fun h => hscan h.1)]

/-- The text of `dest` then is the one of the two together. -/
theorem textAt_strcat {a b : List UInt8} (ha : TextAt dest 0 a) :
    TextAt (Memory.write dest a.length (b ++ [0])) 0 (a ++ b) := by
  have hfront : Memory.read dest 0 a.length = a := by
    have happend := ha
    rw [TextAt, Memory.read_add] at happend
    exact (List.append_inj happend (by simp)).1
  have hback := textAt_write dest b (a := a.length)
  rw [TextAt, List.length_append, Nat.add_assoc, Memory.read_add,
    Memory.read_write_disjoint (.inl (by omega)), hfront, Nat.zero_add, hback, List.append_assoc]

/-! ## The arrays -/

/-- The bytes of a call. -/
abbrev sendBytes (data : Nat → UInt8) (size : UInt8) : List UInt8 := Memory.read data 0 size.toNat

theorem textAt_localArray {n : Nat} {init : List UInt8} (h : init.length < n)
    (behind : Nat → UInt8) : TextAt (localArray n init behind) 0 init := by
  apply List.ext_getElem
  · simp
  · intro i hi _
    have hlt : i ≤ init.length := by simpa [Nat.lt_succ_iff] using hi
    rw [Memory.getElem_read, Nat.zero_add, localArray, if_pos (by omega), List.getD_eq_getElem?_getD]
    rcases Nat.lt_or_ge i init.length with hin | hend
    · rw [List.getElem_append_left hin, List.getElem?_eq_getElem hin, Option.getD_some]
    · have heq : i = init.length := by omega
      simp [heq]

/-- A text that is stored where a terminator follows. -/
theorem textAt_write_of_nul (h : str text.length = 0) :
    TextAt (Memory.write str 0 text) 0 text := by
  have hlast : Memory.read (Memory.write str 0 text) text.length 1 = [0] := by
    have hkept : Memory.write str 0 text text.length = str text.length :=
      Memory.write_of_ge (by omega)
    simp [Memory.read, hkept, h]
  rw [TextAt, Memory.read_add, Memory.read_write_same, Nat.zero_add, hlast]

theorem cstr_read_of_textAt {n : Nat} (h : TextAt str 0 text) (htext : 0 ∉ text)
    (hlen : text.length < n) : cstr (Memory.read str 0 n) = text := by
  obtain ⟨k, rfl⟩ := Nat.exists_eq_add_of_lt hlen
  rw [Nat.add_right_comm, Memory.read_add, h, List.append_assoc]
  exact cstr_append_nul htext _

variable {convert : Format.Convert} {stack : SendStack} {data : Nat → UInt8} {size : UInt8}

theorem length_encode_sendBytes :
    (Hex.encode (sendBytes data size)).length = size.toNat * 2 := by
  rw [Hex.length_encode, Memory.length_read, Nat.mul_comm]

theorem sendStrDigits_eq : sendStrDigits stack data size =
    (Memory.write (localArray 256 [] stack.behindStr) 0 (Hex.encode (sendBytes data size)),
      List.range (size.toNat * 2)) := by
  rw [sendStrDigits, byte2HexstrLoop_eq, hexText_eq_encode]

/-- Up to 127 bytes the zeros of `str` terminate the digits. -/
theorem textAt_sendStrDigits (h : size.toNat ≤ 127) :
    TextAt (sendStrDigits stack data size).1 0 (Hex.encode (sendBytes data size)) := by
  rw [sendStrDigits_eq]
  apply textAt_write_of_nul
  rw [length_encode_sendBytes, localArray, if_pos (by omega)]
  rfl

/-- And 128 bytes leave no terminator. -/
theorem sendStrDigits_ne_zero (h : size.toNat = 128) {i : Nat} (hi : i < 256) :
    (sendStrDigits stack data size).1 i ≠ 0 := by
  have hlt : i < (Hex.encode (sendBytes data size)).length := by
    rw [length_encode_sendBytes]
    omega
  have hdigit : (sendStrDigits stack data size).1 (0 + i) =
      (Hex.encode (sendBytes data size))[i] := by
    rw [sendStrDigits_eq]
    exact Memory.write_add hlt
  rw [Nat.zero_add] at hdigit
  intro hzero
  apply zero_notMem_encode (sendBytes data size)
  rw [← hzero, hdigit]
  exact List.getElem_mem hlt

/-- What `strcat_m` does with them. -/
theorem sendStrcat_eq (h : size.toNat ≤ 127) (fuel : Nat) :
    sendStrcat fuel stack data size =
      if 11 < fuel ∧ size.toNat * 2 < fuel then
        some ⟨Memory.write (localArray 512 (ascii "AT+SENDHEX=") stack.behindSendStr) 11
            (Hex.encode (sendBytes data size) ++ [0]),
          List.range' 0 (size.toNat * 2 + 1), List.range' 11 (size.toNat * 2 + 1)⟩
      else none := by
  have hname : TextAt (localArray 512 (ascii "AT+SENDHEX=") stack.behindSendStr) 0
      (ascii "AT+SENDHEX=") := textAt_localArray (by decide) _
  have hdigits : TextAt (sendStrDigits stack data size).1 0
      (Hex.encode (sendBytes data size)) := textAt_sendStrDigits h
  rw [sendStrcat, strcatMLoop_eq hname hdigits (by decide) (zero_notMem_encode _),
    length_encode_sendBytes]
  rfl

/-- The command is in `sendStr` then. -/
theorem cstr_sendStr (h : size.toNat ≤ 127) :
    cstr (Memory.read (Memory.write (localArray 512 (ascii "AT+SENDHEX=") stack.behindSendStr) 11
      (Hex.encode (sendBytes data size) ++ [0])) 0 512) = sendHexCommand (sendBytes data size) := by
  have hname : TextAt (localArray 512 (ascii "AT+SENDHEX=") stack.behindSendStr) 0
      (ascii "AT+SENDHEX=") := textAt_localArray (by decide) _
  apply cstr_read_of_textAt (textAt_strcat hname)
  · intro hmem
    rcases List.mem_append.mp hmem with hmem | hmem
    · exact absurd hmem (by decide)
    · exact zero_notMem_encode _ hmem
  · have hlen := length_sendHexCommand (sendBytes data size)
    rw [Memory.length_read] at hlen
    rw [← sendHexCommand, hlen]
    omega

theorem vsnprintf_sendHexCommand (bs : List UInt8) :
    Format.vsnprintf convert atCmdMaxLen (sendHexCommand bs) =
      some ⟨(sendHexCommand bs).take 127 ++ [0], 11 + 2 * bs.length, 0⟩ := by
  have hplain := (Format.output_verbatim_iff convert _).mpr (percent_notMem_sendHexCommand bs)
  rw [Format.vsnprintf, hplain, Option.map_some, length_sendHexCommand]
  rfl

/-- The command of a send with these bounds is shorter than `send_buf`. -/
theorem SendBounds.command_lt (h : SendBounds convert stack data size) (hsize : size.toNat ≤ 127) :
    11 + 2 * size.toNat < 128 := by
  obtain ⟨fuel, use, huse, -, -, p, hp, hfits, -⟩ := h.copied
  rw [sendStrcat_eq hsize] at huse
  split at huse
  · cases huse
    rw [cstr_sendStr hsize, vsnprintf_sendHexCommand, Memory.length_read] at hp
    cases hp
    exact hfits
  · cases huse

theorem SendBounds.size_le (h : SendBounds convert stack data size) : size.toNat ≤ 58 := by
  -- the digits end inside `str`, and so does a terminator
  have hlast : size.toNat * 2 ≤ 256 := by
    by_contra hlarge
    have hmem : 256 ∈ (sendStrDigits stack data size).2 := by
      rw [sendStrDigits_eq, List.mem_range]
      omega
    exact absurd (h.strWritten 256 hmem) (by omega)
  have hsize : size.toNat ≤ 127 := by
    by_contra hfull
    obtain ⟨i, hi, hzero⟩ := h.strNul
    exact sendStrDigits_ne_zero (by omega) hi hzero
  have := h.command_lt hsize
  omega

theorem sendBounds_of_size_le (h : size.toNat ≤ 58) : SendBounds convert stack data size := by
  have hsize : size.toNat ≤ 127 := by omega
  have htext : TextAt (sendStrDigits stack data size).1 0
      (Hex.encode (sendBytes data size)) := textAt_sendStrDigits hsize
  refine
    { strWritten := ?_
      strNul := ⟨size.toNat * 2, by omega, ?_⟩
      copied := ⟨256, _, by rw [sendStrcat_eq hsize, if_pos (by omega)]; rfl, ?_, ?_, ?_⟩ }
  · intro i hi
    rw [sendStrDigits_eq, List.mem_range] at hi
    omega
  · have hnul := htext.nul
    rwa [length_encode_sendBytes, Nat.zero_add] at hnul
  · intro i hi j hj
    have hread := List.mem_range'_1.mp hi
    have hne := htext.ne_zero (zero_notMem_encode _) (j := j)
      (by rw [length_encode_sendBytes]; omega)
    rwa [Nat.zero_add] at hne
  · intro i hi
    have := List.mem_range'_1.mp hi
    omega
  · have hlen : 11 + 2 * (sendBytes data size).length ≤ 127 := by
      rw [Memory.length_read]
      omega
    refine ⟨_, by rw [cstr_sendStr hsize, vsnprintf_sendHexCommand]; rfl,
      Nat.succ_le_succ hlen, ?_⟩
    simp only [List.length_append, List.length_take, List.length_singleton,
      length_sendHexCommand]
    omega

/-- In its documented range a send keeps to its arrays, and to `send_buf`, exactly with 58 bytes
at most. -/
theorem sendBounds_iff (convert : Format.Convert) (stack : SendStack) (data : Nat → UInt8)
    (size : UInt8) : SendBounds convert stack data size ↔ size.toNat ≤ 58 :=
  ⟨SendBounds.size_le, sendBounds_of_size_le⟩

/-- With 59 bytes, well below the 128 of its comment, `send_buf` loses two characters. -/
theorem sendBounds_overrun : (59 : UInt8) ≤ 128 ∧
    ¬ SendBounds (fun _ _ => []) ⟨fun _ => 0, fun _ => 0⟩ (fun _ => 0) 59 := by
  refine ⟨by decide, fun h => ?_⟩
  exact absurd (h.command_lt (by decide)) (by decide)

end ControlBoard
