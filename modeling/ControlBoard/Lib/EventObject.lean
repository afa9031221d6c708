import ControlBoard.Lib.Flags

/-!
# Threads at an event object

An event object is a word of flags. A thread takes the flags of its set out of the word, or is
suspended until one of them is sent and then handed what there is of them. What a thread of some
set has to come, in the word or in hand, is changed by a send of flags of that set only.
-/

namespace EventObject

open Flags

variable {w : Nat}

/-- Where a thread is: elsewhere, suspended on the object, or resumed with what it received. -/
inductive Waiter (w : Nat) where
  | away
  | suspended
  | resumed (recved : BitVec w)
  deriving DecidableEq, Repr

/-- A send has put `event` into the word: a suspended thread is handed its flags. -/
def wake (set event : BitVec w) : Waiter w → BitVec w × Waiter w
  | .suspended =>
    if Raised event set then (event &&& ~~~(event &&& set), .resumed (event &&& set))
    else (event, .suspended)
  | t => (event, t)

/-- The thread takes its flags, or is suspended. -/
def receive (set event : BitVec w) : BitVec w × Waiter w :=
  if Raised event set then (event &&& ~~~set, .resumed (event &&& set)) else (event, .suspended)

/-- The flags `e`, and no others of the set, have been sent to a thread that has not yet come back
with them. -/
inductive Coming (set event : BitVec w) : Waiter w → BitVec w → Prop where
  | away {e : BitVec w} (h : event &&& set = e) : Coming set event .away e
  | suspended (h : event &&& set = 0#w) : Coming set event .suspended 0#w
  | resumed {e : BitVec w} (h : event &&& set = 0#w) (he : e ≠ 0#w) :
    Coming set event (.resumed e) e

variable {set other event e f : BitVec w} {t : Waiter w}

theorem Coming.congr {event' : BitVec w} (h : Coming set event t e)
    (hsame : event' &&& set = event &&& set) : Coming set event' t e := by
  cases h with
  | away h => exact .away (hsame.trans h)
  | suspended h => exact .suspended (hsame.trans h)
  | resumed h he => exact .resumed (hsame.trans h) he

/-- Nothing is coming: nothing is in the word. -/
theorem Coming.none (h : Coming set event t 0#w) : event &&& set = 0#w := by
  cases h with
  | away h => exact h
  | suspended h => exact h
  | resumed h => exact h

/-- What is coming is in the word or in the thread's hand. -/
theorem Coming.source (h : Coming set event t e) (he : e ≠ 0#w) :
    t = .away ∧ event &&& set = e ∨ t = .resumed e := by
  cases h with
  | away h => exact .inl ⟨rfl, h⟩
  | suspended => exact absurd rfl he
  | resumed => exact .inr rfl

/-! ## Words and sets -/

theorem or_and_of_disjoint (h : f &&& set = 0#w) : (event ||| f) &&& set = event &&& set := by
  rw [BitVec.and_comm, BitVec.and_or_distrib_left, BitVec.and_comm set f, h, BitVec.or_zero,
    BitVec.and_comm]

theorem or_and_of_subset (h : f &&& set = f) (hnone : event &&& set = 0#w) :
    (event ||| f) &&& set = f := by
  rw [BitVec.and_comm, BitVec.and_or_distrib_left, BitVec.and_comm set f, h, BitVec.and_comm, hnone,
    BitVec.zero_or]

theorem and_and_of_disjoint (h : other &&& set = 0#w) : event &&& other &&& set = 0#w := by
  rw [BitVec.and_assoc, h, BitVec.and_zero]

/-- Taking flags leaves those of other sets. -/
theorem clear_and_of_disjoint (h : f &&& set = 0#w) :
    event &&& ~~~f &&& set = event &&& set := by
  apply BitVec.eq_of_getLsbD_eq
  intro i hi
  have hbit : (f.getLsbD i && set.getLsbD i) = false := by
    rw [← BitVec.getLsbD_and, h, BitVec.getLsbD_zero]
  rw [BitVec.getLsbD_and, BitVec.getLsbD_and, BitVec.getLsbD_and, BitVec.getLsbD_not]
  cases hf : f.getLsbD i with
  | false => simp [hi]
  | true =>
    rw [hf, Bool.true_and] at hbit
    simp [hbit]

theorem clear_self (set event : BitVec w) : event &&& ~~~(event &&& set) &&& set = 0#w := by
  apply BitVec.eq_of_getLsbD_eq
  intro i hi
  rw [BitVec.getLsbD_and, BitVec.getLsbD_and, BitVec.getLsbD_not, BitVec.getLsbD_and,
    BitVec.getLsbD_zero]
  cases event.getLsbD i <;> cases set.getLsbD i <;> simp

theorem clear_set : event &&& ~~~set &&& set = 0#w := by
  rw [BitVec.and_assoc, BitVec.and_comm (~~~set)]
  simp

/-! ## Sending -/

/-- What one thread is handed, no thread of another set misses. -/
theorem wake_and (h : other &&& set = 0#w) (t : Waiter w) :
    (wake other event t).1 &&& set = event &&& set := by
  cases t with
  | away => rfl
  | resumed => rfl
  | suspended =>
    rw [wake]
    split
    · exact clear_and_of_disjoint (and_and_of_disjoint h)
    · rfl

/-- A thread for which nothing new was sent stays where it is. -/
theorem Coming.wake_eq (h : Coming set event t e) : EventObject.wake set event t = (event, t) := by
  cases h with
  | away => rfl
  | resumed => rfl
  | suspended h =>
    have hnone : ¬ Raised event set := fun hne => hne h
    rw [EventObject.wake, if_neg hnone]

/-- The flags that are sent are what is coming. -/
theorem Coming.wake (h : Coming set event t 0#w) (hf : f &&& set = f) (hne : f ≠ 0#w) :
    Coming set (wake set (event ||| f) t).1 (wake set (event ||| f) t).2 f := by
  cases h with
  | away h => exact .away (or_and_of_subset hf h)
  | resumed h he => exact absurd rfl he
  | suspended h =>
    have hsent : (event ||| f) &&& set = f := or_and_of_subset hf h
    have hraised : Raised (event ||| f) set := by rwa [Raised, hsent]
    rw [EventObject.wake, if_pos hraised, hsent]
    have hclear := clear_self set (event ||| f)
    rw [hsent] at hclear
    exact .resumed hclear hne

/-! ## Receiving -/

theorem receive_and (h : other &&& set = 0#w) :
    (receive other event).1 &&& set = event &&& set := by
  rw [receive]
  split
  · exact clear_and_of_disjoint h
  · rfl

/-- To ask for flags does not change what is coming. -/
theorem Coming.receive (h : Coming set event .away e) :
    Coming set (receive set event).1 (receive set event).2 e := by
  cases h with
  | away h =>
    rw [EventObject.receive]
    split
    · rename_i hraised
      rw [h]
      exact .resumed clear_set (by rwa [Raised, h] at hraised)
    · rename_i hnone
      have hzero : event &&& set = 0#w := by simpa [Raised] using hnone
      obtain rfl : e = 0#w := h.symm.trans hzero
      exact .suspended hzero

/-- What is coming is found at once. -/
theorem Coming.receive_resumed (h : Coming set event .away e) (he : e ≠ 0#w) :
    (EventObject.receive set event).2 = .resumed e := by
  cases h with
  | away h =>
    have hraised : Raised event set := by rwa [Raised, h]
    rw [EventObject.receive, if_pos hraised, h]

/-- A thread comes back with what was coming, and nothing is coming any more. -/
theorem Coming.back (h : Coming set event (.resumed f) e) :
    f = e ∧ e ≠ 0#w ∧ Coming set event .away 0#w := by
  cases h with
  | resumed h he => exact ⟨rfl, he, .away h⟩

end EventObject
