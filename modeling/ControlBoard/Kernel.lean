import ControlBoard.Lib.Memory

/-!
# Kernel services

The parts of the RT-Thread kernel that the applications rest on and whose arithmetic they
see: the tick conversion of `Kernel/clock.c`, the timeouts of `Kernel/timer.c`, the event objects
of `Kernel/ipc.c` and the string comparison of `Kernel/kservice.c`. Of an event object only the
flag word is here; a machine with a receiving thread suspends and wakes it.
-/

namespace ControlBoard

/-- `RT_TICK_PER_SECOND` (`rtconfig.h`). -/
def rtTickPerSecond : BitVec 32 := 100

/-- `RT_WAITING_FOREVER`. -/
def rtWaitingForever : BitVec 32 := -1

/-- `rt_tick_from_millisecond` (`Kernel/clock.c:112-123`). -/
def rtTickFromMillisecond (ms : BitVec 32) : BitVec 32 :=
  if ms.slt 0 then rtWaitingForever else (rtTickPerSecond * ms + 999).sdiv 1000

/-- `RT_TICK_MAX` (`rtdef.h`) -/
def rtTickMax : BitVec 32 := 0xffffffff

/-- The `timeout_tick` that `rt_timer_start` (`Kernel/timer.c:296-412`) computes at tick `now`;
none if its assertion on the length fails. -/
def rtTimerStart (now initTick : BitVec 32) : Option (BitVec 32) :=
  if initTick < rtTickMax / 2 then some (now + initTick) else none

/-- The test of `rt_timer_check` (`Kernel/timer.c:515`). -/
def rtTimerExpired (current timeout : BitVec 32) : Prop := current - timeout < rtTickMax / 2

/-- `rt_event_send` (`Kernel/ipc.c:1026`) ORs the sent flags into the set. -/
def rtEventSend (event set : BitVec 32) : BitVec 32 := event ||| set

/-! ## Comparisons with a stored text -/

/-- `rt_strcmp(cs, ct)` (`Kernel/kservice.c:456-462`) from offset `i` of `cs` on: the offset where
it stops, and the difference there. -/
def rtStrcmpFrom (cs : Nat → UInt8) : Nat → List UInt8 → Nat × Int
  | i, [] => (i, (cs i).toNat)
  | i, c :: ct =>
    if cs i ≠ 0 ∧ cs i = c then rtStrcmpFrom cs (i + 1) ct
    else (i, (cs i).toNat - c.toNat)

def rtStrcmp (cs : Nat → UInt8) (ct : List UInt8) : Int := (rtStrcmpFrom cs 0 ct).2

variable {str : Nat → UInt8}

/-- From offset `i` on lies a text with its terminator. -/
def TextAt (str : Nat → UInt8) (i : Nat) (text : List UInt8) : Prop :=
  Memory.read str i (text.length + 1) = text ++ [0]

theorem textAt_nil {i : Nat} : TextAt str i [] ↔ str i = 0 := by
  simp [TextAt, Memory.read]

theorem textAt_cons {i : Nat} {c : UInt8} {text : List UInt8} :
    TextAt str i (c :: text) ↔ str i = c ∧ TextAt str (i + 1) text := by
  have hone : Memory.read str i 1 = [str i] := by simp [Memory.read]
  rw [TextAt, TextAt, List.length_cons, Nat.add_comm (text.length + 1) 1, Memory.read_add, hone]
  simp

/-- The first terminator is the one behind the text. -/
theorem TextAt.nul {i : Nat} {text : List UInt8} (h : TextAt str i text) :
    str (i + text.length) = 0 := by
  induction text generalizing i with
  | nil => exact textAt_nil.mp h
  | cons c text ih =>
    rw [List.length_cons, Nat.add_comm text.length, ← Nat.add_assoc]
    exact ih (textAt_cons.mp h).2

theorem TextAt.ne_zero {i j : Nat} {text : List UInt8} (h : TextAt str i text) (htext : 0 ∉ text)
    (hj : j < text.length) : str (i + j) ≠ 0 := by
  have hread : (Memory.read str i (text.length + 1))[j]? = (text ++ [0])[j]? := by rw [h]
  rw [List.getElem?_append_left hj, List.getElem?_eq_getElem (by simp; omega),
    List.getElem?_eq_getElem hj, Memory.getElem_read, Option.some_inj] at hread
  intro hzero
  apply htext
  rw [← hzero, hread]
  exact List.getElem_mem hj

theorem textAt_write (str : Nat → UInt8) (text : List UInt8) {a : Nat} :
    TextAt (Memory.write str a (text ++ [0])) a text := by
  have hsame : Memory.read (Memory.write str a (text ++ [0])) a (text ++ [0]).length =
      text ++ [0] := Memory.read_write_same
  rwa [List.length_append, List.length_singleton] at hsame

/-- A comparison stops at the terminator at the latest. -/
theorem rtStrcmpFrom_le {i : Nat} {text : List UInt8} (h : TextAt str i text) (ct : List UInt8) :
    (rtStrcmpFrom str i ct).1 ≤ i + text.length := by
  induction ct generalizing i text with
  | nil => exact Nat.le_add_right i text.length
  | cons c ct ih =>
    rw [rtStrcmpFrom]
    split
    · rename_i hsame
      cases text with
      | nil => exact absurd (textAt_nil.mp h) hsame.1
      | cons d text =>
        have hle := ih (textAt_cons.mp h).2
        rw [List.length_cons]
        omega
    · exact Nat.le_add_right i text.length

/-- And it finds no difference exactly if the two are the same. -/
theorem rtStrcmpFrom_eq_zero {i : Nat} {text ct : List UInt8} (h : TextAt str i text)
    (htext : 0 ∉ text) (hct : 0 ∉ ct) : (rtStrcmpFrom str i ct).2 = 0 ↔ text = ct := by
  induction ct generalizing i text with
  | nil =>
    cases text with
    | nil => simp [rtStrcmpFrom, textAt_nil.mp h]
    | cons d text =>
      rw [List.mem_cons, not_or] at htext
      have hd : d.toNat ≠ 0 := fun hzero => htext.1 (UInt8.toNat_inj.mp hzero).symm
      simp [rtStrcmpFrom, (textAt_cons.mp h).1, hd]
  | cons c ct ih =>
    rw [List.mem_cons, not_or] at hct
    rw [rtStrcmpFrom]
    cases text with
    | nil =>
      have hzero := textAt_nil.mp h
      have hc : c.toNat ≠ 0 := fun hzero => hct.1 (UInt8.toNat_inj.mp hzero).symm
      rw [if_neg fun hsame => hsame.1 hzero, hzero]
      simp [hc]
    | cons d text =>
      rw [List.mem_cons, not_or] at htext
      obtain ⟨hd, hrest⟩ := textAt_cons.mp h
      rw [hd]
      by_cases hsame : d = c
      · rw [if_pos ⟨Ne.symm htext.1, hsame⟩, ih hrest htext.2 hct.2, hsame]
        simp
      · rw [if_neg fun hboth => hsame hboth.2]
        have hdiff : (d.toNat : Int) - c.toNat ≠ 0 := by
          intro hzero
          apply hsame
          apply UInt8.toNat_inj.mp
          omega
        simp [hdiff, hsame]

end ControlBoard
