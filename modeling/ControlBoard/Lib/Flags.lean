import Mathlib.Tactic.Common

/-!
# Sets of flags in a machine word

A word used as a set of flags: `Raised s m` says that some flag of the mask `m` is up in
`s`. Flags are raised by `|||`, masked out by `&&& ~~~m`, and selected by `&&& m`.
-/

namespace Flags

variable {w : Nat}

/-- Some flag of `m` is up in `s`. -/
def Raised (s m : BitVec w) : Prop := s &&& m ≠ 0

instance (s m : BitVec w) : Decidable (Raised s m) := inferInstanceAs (Decidable (_ ≠ _))

theorem raised_iff {s m : BitVec w} :
    Raised s m ↔ ∃ i, s.getLsbD i = true ∧ m.getLsbD i = true := by
  constructor
  · intro h
    by_contra hno
    apply h
    apply BitVec.eq_of_getLsbD_eq
    intro i _
    by_contra hi
    exact hno ⟨i, by simpa using hi⟩
  · intro hboth h
    obtain ⟨i, hs, hm⟩ := hboth
    have hi : (s &&& m).getLsbD i = false := by
      rw [h]
      simp
    simp [hs, hm] at hi

@[simp] theorem not_raised_zero (m : BitVec w) : ¬ Raised 0#w m := by
  simp [Raised]

theorem raised_or (s t m : BitVec w) : Raised (s ||| t) m ↔ Raised s m ∨ Raised t m := by
  simp only [raised_iff, BitVec.getLsbD_or, Bool.or_eq_true]
  grind

/-- `m` lies inside `r`: clearing `r` clears `m`. -/
theorem not_raised_clear {r m : BitVec w} (h : r &&& m = m) (s : BitVec w) :
    ¬ Raised (s &&& ~~~r) m := by
  have hzero : s &&& ~~~r &&& m = 0#w := by
    rw [← h, BitVec.and_assoc, ← BitVec.and_assoc (~~~r), BitVec.and_comm (~~~r)]
    simp
  simpa [Raised] using hzero

/-- `m` lies inside `r`: selecting `r` keeps `m`. -/
theorem raised_select {r m : BitVec w} (h : r &&& m = m) (s : BitVec w) :
    Raised (s &&& r) m ↔ Raised s m := by
  rw [Raised, Raised, BitVec.and_assoc, h]

end Flags
