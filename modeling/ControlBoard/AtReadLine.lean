import ControlBoard.Lib.Cut
import ControlBoard.Lib.Memory

/-!
# Lines from the device

`at_recv_readline` of `pck/at/src/at_client.c` collects the characters of its device until a line
end, the end sign or the last character of a URC. What it makes of a stream is told by the lines
of the stream alone: nothing of one line is left when the next begins.
-/

namespace ControlBoard

/-- `struct at_urc`, without the function that is called for it. -/
structure AtUrc where
  cmdPrefix : CString
  cmdSuffix : CString

/-- What `struct at_client` keeps for the reception of a line. -/
structure AtReceiver where
  recvBufsz : Nat
  endSign : UInt8
  urcTable : List AtUrc

/-- `get_urc_obj` (`at_client.c:573-603`). Two texts without a terminator are compared up to a
length, so `strncmp` compares the bytes. -/
def AtReceiver.getUrcObj (c : AtReceiver) (buffer : List UInt8) : Option AtUrc :=
  c.urcTable.find? fun urc =>
    urc.cmdPrefix.val.length + urc.cmdSuffix.val.length ≤ buffer.length &&
      urc.cmdPrefix.val.isPrefixOf buffer && urc.cmdSuffix.val.isSuffixOf buffer

/-- What `at_recv_readline` returns: `-RT_EFULL`, or the length of the line that is in
`recv_buffer`. -/
inductive ReadLine where
  | full
  | line (recvBuffer : List UInt8)
  deriving DecidableEq, Repr

/-- The turns of `at_recv_readline`: the bytes stored in `recv_buffer`, which is zero behind them,
with `last_ch` and `is_full`. Their number is both `read_len` and `cur_recv_len`. -/
structure ReadState where
  recvBuffer : List UInt8
  lastCh : UInt8
  isFull : Bool
  deriving DecidableEq, Repr

def ReadState.fresh : ReadState := ⟨[], 0, false⟩

/-- One turn of the loop of `at_recv_readline` (`at_client.c:605-649`). The next call starts
afresh. -/
def AtReceiver.readlineStep (c : AtReceiver) (s : ReadState) (ch : UInt8) :
    ReadState × Option ReadLine :=
  let t :=
    if s.recvBuffer.length < c.recvBufsz then { s with recvBuffer := s.recvBuffer ++ [ch] }
    else { s with isFull := true }
  if ch = 10 ∧ s.lastCh = 13 ∨ c.endSign ≠ 0 ∧ ch = c.endSign ∨
      (c.getUrcObj t.recvBuffer).isSome then
    (.fresh, some (if t.isFull then .full else .line t.recvBuffer))
  else ({ t with lastCh := ch }, none)

/-! ## The lines of a stream -/

/-- The bytes end a line: with a carriage return and a line feed, with the end sign, or with
those that fit the buffer being a URC. -/
def AtReceiver.endsLine (c : AtReceiver) (p : List UInt8) : Bool :=
  [13, 10].isSuffixOf p || (c.endSign != 0 && p.getLast? == some c.endSign) ||
    (c.getUrcObj (p.take c.recvBufsz)).isSome

/-- What is returned for a line. -/
def AtReceiver.received (c : AtReceiver) (line : List UInt8) : ReadLine :=
  if c.recvBufsz < line.length then .full else .line line

/-- The state in the middle of a line. -/
def AtReceiver.midLine (c : AtReceiver) (p : List UInt8) : ReadState :=
  ⟨p.take c.recvBufsz, p.getLast?.getD 0, decide (c.recvBufsz < p.length)⟩

namespace AtReceiver

theorem suffix_crlf {p : List UInt8} {ch : UInt8} :
    [13, 10].isSuffixOf (p ++ [ch]) = true ↔ ch = 10 ∧ p.getLast?.getD 0 = 13 := by
  rcases List.eq_nil_or_concat' p with rfl | ⟨q, b, rfl⟩
  · simp [List.isSuffixOf_iff_suffix, List.suffix_cons_iff]
  · have hsplit : q ++ [b] ++ [ch] = q ++ [b, ch] := by simp
    rw [List.isSuffixOf_iff_suffix, hsplit, List.getLast?_concat, Option.getD_some]
    constructor
    · intro h
      obtain ⟨r, hr⟩ := h
      have htail := List.append_inj_right' hr rfl
      simp only [List.cons.injEq, and_true] at htail
      exact ⟨htail.2.symm, htail.1.symm⟩
    · intro h
      rw [h.1, h.2]
      exact List.suffix_append q [13, 10]

variable (c : AtReceiver) (p : List UInt8) (ch : UInt8)

theorem midLine_nil : c.midLine [] = .fresh := by
  simp [midLine, ReadState.fresh]

/-- The store of a turn. -/
theorem midLine_store :
    (if (c.midLine p).recvBuffer.length < c.recvBufsz then
        { c.midLine p with recvBuffer := (c.midLine p).recvBuffer ++ [ch] }
      else { c.midLine p with isFull := true }) =
      { c.midLine (p ++ [ch]) with lastCh := p.getLast?.getD 0 } := by
  have hbuffer : (c.midLine p).recvBuffer = p.take c.recvBufsz := rfl
  have hlen : (p ++ [ch]).length = p.length + 1 := by simp
  rw [hbuffer, List.length_take]
  by_cases hroom : p.length < c.recvBufsz
  · have hp : p.take c.recvBufsz = p := List.take_of_length_le (by omega)
    have hch : (p ++ [ch]).take c.recvBufsz = p ++ [ch] := List.take_of_length_le (by omega)
    rw [if_pos (by omega), hp, midLine, midLine, hch, decide_eq_false (by omega),
      decide_eq_false (by omega)]
  · have hch : (p ++ [ch]).take c.recvBufsz = p.take c.recvBufsz :=
      List.take_append_of_le_length (by omega)
    rw [if_neg (by omega), midLine, midLine, hch, decide_eq_true (p := _ < (p ++ [ch]).length)
      (by omega)]

/-- A turn takes the state in the middle of a line to that of the line with one byte more, or
ends the line. -/
theorem readlineStep_midLine :
    c.readlineStep (c.midLine p) ch =
      if c.endsLine (p ++ [ch]) then (c.midLine [], some (c.received (p ++ [ch])))
      else (c.midLine (p ++ [ch]), none) := by
  have hends : c.endsLine (p ++ [ch]) = true ↔
      ch = 10 ∧ (c.midLine p).lastCh = 13 ∨ c.endSign ≠ 0 ∧ ch = c.endSign ∨
        (c.getUrcObj (c.midLine (p ++ [ch])).recvBuffer).isSome := by
    have hlast : (c.midLine p).lastCh = p.getLast?.getD 0 := rfl
    rw [endsLine, Bool.or_eq_true, Bool.or_eq_true, suffix_crlf, hlast, or_assoc]
    simp [midLine]
  have hresult : (if (c.midLine (p ++ [ch])).isFull then ReadLine.full
      else .line (c.midLine (p ++ [ch])).recvBuffer) = c.received (p ++ [ch]) := by
    simp only [midLine, received, decide_eq_true_eq]
    split
    · rfl
    · rw [List.take_of_length_le (by omega)]
  simp only [readlineStep, midLine_store]
  by_cases h : c.endsLine (p ++ [ch]) = true
  · rw [if_pos h, if_pos (hends.mp h), hresult, midLine_nil]
  · rw [if_neg h, if_neg (mt hends.mpr h)]
    simp [midLine]

/-- Whatever arrives, `at_recv_readline` makes one result of each line of the stream, in order: the
line as it is if it fits `recv_buffer`, and `-RT_EFULL` if it does not. -/
theorem readline_lines (bytes : List UInt8) :
    ∃ (lines : List (List UInt8)) (rest : List UInt8), bytes = lines.flatten ++ rest ∧
      (∀ l ∈ lines, Cut.IsLine c.endsLine l) ∧
      Cut.Unfinished c.endsLine rest ∧
      Cut.read c.readlineStep .fresh bytes = (c.midLine rest, lines.map c.received) := by
  obtain ⟨hlines, hrest⟩ := Cut.feed_isLine (Cut.unfinished_nil c.endsLine) bytes
  refine ⟨_, _, (Cut.flatten_feed [] bytes).symm, hlines, hrest, ?_⟩
  rw [← c.midLine_nil]
  exact Cut.read_eq_feed (fun p ch _ => c.readlineStep_midLine p ch) (Cut.unfinished_nil _) bytes

end AtReceiver

end ControlBoard
