import ControlBoard.Lib.Transition

/-!
# Rounds

A machine whose threads take turns, and in every round all of them in some order. If one turn brings
it nearer to a goal, and the turns of the others leave it as near as it was and waiting for the same
turn, then the goal is reached in as many rounds as it is away.
-/

namespace Transition

variable {σ α : Type}

/-- A turn. What is not enabled does nothing. -/
def turn (step : σ → α → Option σ) (s : σ) (a : α) : σ := (step s a).getD s

/-- The goal is reached at some point of the turns. -/
def Passes (step : σ → α → Option σ) (goal : σ → Prop) (s : σ) (as : List α) : Prop :=
  ∃ bs, bs <+: as ∧ goal (bs.foldl (turn step) s)

/-- What the turn `b` leads to from a state that is `n` away and waits for `a`. -/
def Advances (goal : σ → Prop) (ahead : σ → Nat → α → Prop) (n : Nat) (a b : α) (t : σ) : Prop :=
  goal t ∨ (∃ m < n, ∃ c, ahead t m c) ∨ b ≠ a ∧ ahead t n a

variable {step : σ → α → Option σ} {goal : σ → Prop} {ahead : σ → Nat → α → Prop}
  {ok : α → Prop} {s : σ} {n : Nat} {a : α} {as : List α}

theorem turn_of_some {t : σ} (h : step s a = some t) : turn step s a = t := by
  rw [turn, h, Option.getD_some]

theorem turn_of_none (h : step s a = none) : turn step s a = s := by
  rw [turn, h, Option.getD_none]

theorem Passes.cons (h : Passes step goal (turn step s a) as) : Passes step goal s (a :: as) := by
  obtain ⟨bs, hprefix, hgoal⟩ := h
  exact ⟨a :: bs, List.cons_prefix_cons.mpr ⟨rfl, hprefix⟩, hgoal⟩

theorem Passes.of_cons (h : Passes step goal s (a :: as)) (hs : ¬ goal s) :
    Passes step goal (turn step s a) as := by
  obtain ⟨bs, hprefix, hgoal⟩ := h
  cases bs with
  | nil => exact absurd hgoal hs
  | cons b bs =>
    obtain ⟨rfl, hrest⟩ := List.cons_prefix_cons.mp hprefix
    exact ⟨bs, hrest, hgoal⟩

theorem Passes.append (h : Passes step goal s as) (cs : List α) :
    Passes step goal s (as ++ cs) := by
  obtain ⟨bs, hprefix, hgoal⟩ := h
  exact ⟨bs, hprefix.trans (List.prefix_append as cs), hgoal⟩

theorem Passes.after {cs : List α} (h : Passes step goal (as.foldl (turn step) s) cs) :
    Passes step goal s (as ++ cs) := by
  obtain ⟨bs, hprefix, hgoal⟩ := h
  refine ⟨as ++ bs, (List.prefix_append_right_inj as).mpr hprefix, ?_⟩
  rwa [List.foldl_append]

/-- There is a turn that reaches the goal, and none before it does. -/
theorem Passes.exists_last (h : Passes step goal s as) (hs : ¬ goal s) : ∃ bs b cs,
    as = bs ++ b :: cs ∧ ¬ Passes step goal s bs ∧
      goal (turn step (bs.foldl (turn step) s) b) := by
  induction as generalizing s with
  | nil =>
    obtain ⟨bs, hprefix, hgoal⟩ := h
    rw [List.prefix_nil.mp hprefix] at hgoal
    exact absurd hgoal hs
  | cons a as ih =>
    by_cases hnext : goal (turn step s a)
    · refine ⟨[], a, as, rfl, ?_, hnext⟩
      rintro ⟨bs, hprefix, hgoal⟩
      rw [List.prefix_nil.mp hprefix] at hgoal
      exact hs hgoal
    · obtain ⟨bs, b, cs, rfl, hbefore, hgoal⟩ := ih (h.of_cons hs) hnext
      exact ⟨a :: bs, b, cs, rfl, fun hpasses => hbefore (hpasses.of_cons hs), hgoal⟩

section Rules

variable (hstep : ∀ s n a b, ahead s n a → ok b → Advances goal ahead n a b (turn step s b))
include hstep

/-- Turns never lead away from the goal. -/
theorem passes_or_ahead (h : ahead s n a) (hok : ∀ b ∈ as, ok b) :
    Passes step goal s as ∨ ∃ m ≤ n, ∃ c, ahead (as.foldl (turn step) s) m c := by
  induction as generalizing s n a with
  | nil => exact .inr ⟨n, Nat.le_refl n, a, h⟩
  | cons b as ih =>
    obtain ⟨hb, hok⟩ := List.forall_mem_cons.mp hok
    rcases hstep s n a b h hb with hgoal | ⟨m, hm, c, hahead⟩ | ⟨-, hahead⟩
    · exact .inl ⟨[b], List.cons_prefix_cons.mpr ⟨rfl, List.nil_prefix⟩, hgoal⟩
    · rcases ih hahead hok with hpasses | ⟨m', hm', hrest⟩
      · exact .inl hpasses.cons
      · exact .inr ⟨m', by omega, hrest⟩
    · rcases ih hahead hok with hpasses | hrest
      · exact .inl hpasses.cons
      · exact .inr hrest

/-- With the turn it waits for among them they lead nearer. -/
theorem passes_or_nearer (h : ahead s n a) (hok : ∀ b ∈ as, ok b) (ha : a ∈ as) :
    Passes step goal s as ∨ ∃ m < n, ∃ c, ahead (as.foldl (turn step) s) m c := by
  induction as generalizing s with
  | nil => cases ha
  | cons b as ih =>
    obtain ⟨hb, hok⟩ := List.forall_mem_cons.mp hok
    rcases hstep s n a b h hb with hgoal | ⟨m, hm, c, hahead⟩ | ⟨hother, hahead⟩
    · exact .inl ⟨[b], List.cons_prefix_cons.mpr ⟨rfl, List.nil_prefix⟩, hgoal⟩
    · rcases passes_or_ahead hstep hahead hok with hpasses | ⟨m', hm', hrest⟩
      · exact .inl hpasses.cons
      · exact .inr ⟨m', by omega, hrest⟩
    · rcases List.mem_cons.mp ha with rfl | ha
      · exact absurd rfl hother
      · rcases ih hahead hok ha with hpasses | hrest
        · exact .inl hpasses.cons
        · exact .inr hrest

theorem passes_of_rounds {turns : List α} (hturn : ∀ s n a, ahead s n a → a ∈ turns)
    {rounds : List (List α)} (hrounds : ∀ r ∈ rounds, (∀ b ∈ r, ok b) ∧ ∀ a ∈ turns, a ∈ r)
    (h : ahead s n a) (hlen : n < rounds.length) : Passes step goal s rounds.flatten := by
  induction rounds generalizing s n a with
  | nil => cases hlen
  | cons r rounds ih =>
    obtain ⟨⟨hok, hall⟩, hrounds⟩ := List.forall_mem_cons.mp hrounds
    rw [List.flatten_cons]
    rcases passes_or_nearer hstep h hok (hall a (hturn s n a h)) with hpasses | ⟨m, hm, c, hahead⟩
    · exact hpasses.append _
    · rw [List.length_cons] at hlen
      exact (ih hrounds hahead (by omega)).after

end Rules

end Transition
