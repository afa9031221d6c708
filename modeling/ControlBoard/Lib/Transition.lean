/-!
# Runs of a partial step function

A machine is a partial function `step : σ → α → Option σ` from a state and an action to the
next state; `none` means that the action is not enabled. Safety statements about such a
machine range over all action lists, and often only over those whose actions meet a
condition `ok` in the state each is taken from (`StepsMeet`). The invariant rule for both
forms is `run_preserves`.
-/

namespace Transition

variable {σ α : Type}

/-- The state after the actions of a list, if each is enabled when its turn comes. -/
def run (step : σ → α → Option σ) : σ → List α → Option σ
  | s, [] => some s
  | s, a :: as => (step s a).bind fun t => run step t as

/-- Every action of the run meets `ok` in the state it is taken from. -/
def StepsMeet (step : σ → α → Option σ) (ok : σ → α → Prop) : σ → List α → Prop
  | _, [] => True
  | s, a :: as => ok s a ∧ ∀ t, step s a = some t → StepsMeet step ok t as

instance instDecidableStepsMeet (step : σ → α → Option σ) (ok : σ → α → Prop)
    [∀ s a, Decidable (ok s a)] : ∀ s as, Decidable (StepsMeet step ok s as)
  | _, [] => inferInstanceAs (Decidable True)
  | s, a :: as =>
    have : ∀ t, Decidable (StepsMeet step ok t as) := fun t => instDecidableStepsMeet step ok t as
    inferInstanceAs (Decidable (ok s a ∧ ∀ t ∈ step s a, StepsMeet step ok t as))

variable {step : σ → α → Option σ} {ok : σ → α → Prop} {Inv : σ → Prop}

@[simp] theorem run_nil (s : σ) : run step s [] = some s := rfl

theorem run_cons {s t : σ} {a : α} {as : List α} :
    run step s (a :: as) = some t ↔ ∃ u, step s a = some u ∧ run step u as = some t := by
  simp [run, Option.bind_eq_some_iff]

/-- A run in two parts. -/
theorem run_append {s t u : σ} {as bs : List α} (hs : run step s as = some t)
    (ht : run step t bs = some u) : run step s (as ++ bs) = some u := by
  induction as generalizing s with
  | nil =>
    rw [run_nil] at hs
    cases hs
    exact ht
  | cons a as ih =>
    obtain ⟨v, hv, hrun⟩ := run_cons.mp hs
    exact run_cons.mpr ⟨v, hv, ih hrun⟩

/-- What every step under `ok` preserves, every run whose steps meet `ok` preserves. -/
theorem run_preserves (hstep : ∀ s a t, Inv s → ok s a → step s a = some t → Inv t)
    {s t : σ} {as : List α} (hs : Inv s) (hok : StepsMeet step ok s as)
    (hrun : run step s as = some t) : Inv t := by
  induction as generalizing s with
  | nil =>
    rw [run_nil] at hrun
    cases hrun
    exact hs
  | cons a as ih =>
    obtain ⟨u, hu, hrun⟩ := run_cons.mp hrun
    exact ih (hstep s a u hs hok.1 hu) (hok.2 u hu) hrun

/-- A condition that holds of every action restricts nothing. -/
theorem stepsMeet_of_forall (h : ∀ s a, ok s a) (s : σ) (as : List α) : StepsMeet step ok s as := by
  induction as generalizing s with
  | nil => trivial
  | cons a as ih => exact ⟨h s a, fun t _ => ih t⟩

/-- A condition on the actions alone. -/
theorem stepsMeet_of_mem {p : α → Prop} {as : List α} (h : ∀ a ∈ as, p a) (s : σ) :
    StepsMeet step (fun _ a => p a) s as := by
  induction as generalizing s with
  | nil => trivial
  | cons a as ih =>
    obtain ⟨ha, has⟩ := List.forall_mem_cons.mp h
    exact ⟨ha, fun t _ => ih has t⟩

/-- An invariant of every step holds at the end of every run. -/
theorem run_invariant (hstep : ∀ s a t, Inv s → step s a = some t → Inv t)
    {s t : σ} {as : List α} (hs : Inv s) (hrun : run step s as = some t) : Inv t := by
  have hok : StepsMeet step (fun _ _ => True) s as :=
    stepsMeet_of_forall (fun _ _ => trivial) s as
  exact run_preserves (fun s a t h _ => hstep s a t h) hs hok hrun

/-- Where each step under `ok` is possible and does what a function on other states says, so
does every run. -/
theorem run_refines {τ : Type} {spec : τ → α → τ} {R : σ → τ → Prop}
    (hstep : ∀ s t a, R s t → ok s a → ∃ s', step s a = some s' ∧ R s' (spec t a)) {s : σ} {t : τ}
    {as : List α} (h : R s t) (hok : StepsMeet step ok s as) :
    ∃ s', run step s as = some s' ∧ R s' (as.foldl spec t) := by
  induction as generalizing s t with
  | nil => exact ⟨s, rfl, h⟩
  | cons a as ih =>
    obtain ⟨u, hu, hR⟩ := hstep s t a h hok.1
    obtain ⟨v, hrun, hv⟩ := ih hR (hok.2 u hu)
    exact ⟨v, run_cons.mpr ⟨u, hu, hrun⟩, hv⟩

/-- Where each step under `ok` does what a function on other states says, so does every run. -/
theorem run_follows {τ : Type} {spec : τ → α → τ} {R : σ → τ → Prop}
    (hstep : ∀ s t a s', R s t → ok s a → step s a = some s' → R s' (spec t a)) {s s' : σ} {t : τ}
    {as : List α} (h : R s t) (hok : StepsMeet step ok s as) (hrun : run step s as = some s') :
    R s' (as.foldl spec t) := by
  induction as generalizing s t with
  | nil =>
    rw [run_nil] at hrun
    cases hrun
    exact h
  | cons a as ih =>
    obtain ⟨u, hu, hrun⟩ := run_cons.mp hrun
    exact ih (hstep s t a u h hok.1 hu) (hok.2 u hu) hrun

/-! ## Every state of a run -/

/-- `P` holds in every state that the run passes through. -/
def Always (step : σ → α → Option σ) (P : σ → Prop) : σ → List α → Prop
  | s, [] => P s
  | s, a :: as => P s ∧ ∀ t, step s a = some t → Always step P t as

theorem Always.head {P : σ → Prop} {s : σ} {as : List α} (h : Always step P s as) : P s := by
  cases as with
  | nil => exact h
  | cons a as => exact h.1

/-- Every state of a run that starts with `P` and `Inv` has `Inv`, if steps between states of
`P` keep it. -/
theorem Always.invariant {P : σ → Prop}
    (hinv : ∀ s a t, Inv s → P s → step s a = some t → P t → Inv t) {s t : σ} {as : List α}
    (hs : Inv s) (hP : Always step P s as) (hrun : run step s as = some t) : Inv t ∧ P t := by
  induction as generalizing s with
  | nil =>
    rw [run_nil] at hrun
    cases hrun
    exact ⟨hs, hP⟩
  | cons a as ih =>
    obtain ⟨u, hu, hrun⟩ := run_cons.mp hrun
    have hPu : Always step P u as := hP.2 u hu
    exact ih (hinv s a u hs hP.1 hu hPu.head) hPu hrun

/-- Where `ok` tells exactly which steps keep `P`, a run keeps it exactly if its steps meet `ok`.
`Inv` is what the states of such a run have besides. -/
theorem always_iff_stepsMeet_of_inv {P : σ → Prop}
    (hinv : ∀ s a t, Inv s → P s → step s a = some t → P t → Inv t)
    (hstep : ∀ s a t, Inv s → P s → step s a = some t → (P t ↔ ok s a)) {s t : σ} {as : List α}
    (hs : Inv s) (hP : P s) (hrun : run step s as = some t) :
    Always step P s as ↔ StepsMeet step ok s as := by
  induction as generalizing s with
  | nil => exact iff_of_true hP trivial
  | cons a as ih =>
    obtain ⟨u, hu, hrun⟩ := run_cons.mp hrun
    have hnext (Q : σ → Prop) : (∀ v, step s a = some v → Q v) ↔ Q u := by
      rw [hu]
      simp
    rw [Always, StepsMeet, and_iff_right hP, hnext, hnext]
    constructor
    · intro h
      have hPu : P u := h.head
      have hu' : Inv u := hinv s a u hs hP hu hPu
      exact ⟨(hstep s a u hs hP hu).mp hPu, (ih hu' hPu hrun).mp h⟩
    · intro h
      have hPu : P u := (hstep s a u hs hP hu).mpr h.1
      exact (ih (hinv s a u hs hP hu hPu) hPu hrun).mpr h.2

theorem always_iff_stepsMeet {P : σ → Prop}
    (hstep : ∀ s a t, P s → step s a = some t → (P t ↔ ok s a)) {s t : σ} {as : List α} (hs : P s)
    (hrun : run step s as = some t) : Always step P s as ↔ StepsMeet step ok s as :=
  always_iff_stepsMeet_of_inv (fun _ _ _ _ _ _ _ => trivial) (fun s a t _ => hstep s a t) trivial
    hs hrun

end Transition
