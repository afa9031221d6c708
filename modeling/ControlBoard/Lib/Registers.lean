import Mathlib.Data.List.Basic
import Mathlib.Data.List.Count
import Mathlib.Data.List.Induction
import Mathlib.Logic.Function.Basic

/-!
# Registers that several threads assign

A log lists the calls of all threads in the order in which they took effect, each with the
assignment that it makes, if it makes one. The registers after it hold, each, the value of the last
assignment to it. A thread alone knows which of its calls is the last to assign a register; which
of the threads comes last is then told by the schedule, the order of the threads in the log.
-/

namespace Registers

variable {τ ι β : Type}

/-! ## Schedules -/

/-- Of two calls in a schedule, at `before` and `before'`, one comes first. -/
theorem split_cases {t t' : τ} {before before' after after' : List τ}
    (h : before ++ t :: after = before' ++ t' :: after') :
    (before = before' ∧ t = t') ∨ (∃ c, before' = before ++ t :: c) ∨
      ∃ c, before = before' ++ t' :: c := by
  rcases List.append_eq_append_iff.mp h with ⟨c, hc, htail⟩ | ⟨c, hc, htail⟩
  · cases c with
    | nil =>
      rw [List.append_nil] at hc
      exact .inl ⟨hc.symm, (List.cons.inj htail).1⟩
    | cons a c => exact .inr (.inl ⟨c, by rw [hc, (List.cons.inj htail).1]⟩)
  · cases c with
    | nil =>
      rw [List.append_nil] at hc
      exact .inl ⟨hc, (List.cons.inj htail).1.symm⟩
    | cons a c => exact .inr (.inr ⟨c, by rw [hc, (List.cons.inj htail).1]⟩)

section Schedules

variable [DecidableEq τ] {schedule : List τ} {t t' u : τ} {n n' : Nat}

/-- When `t` makes its call number `n`, `t'` has made its call number `n'`. -/
def Follows (schedule : List τ) (t : τ) (n : Nat) (t' : τ) (n' : Nat) : Prop :=
  ∃ before after, schedule = before ++ t :: after ∧ before.count t = n ∧ n' < before.count t'

/-- A call that was made splits the schedule. -/
theorem exists_split (h : n < schedule.count t) :
    ∃ before after, schedule = before ++ t :: after ∧ before.count t = n := by
  induction schedule generalizing n with
  | nil => cases h
  | cons u schedule ih =>
    by_cases hu : u = t
    · subst hu
      cases n with
      | zero => exact ⟨[], schedule, rfl, rfl⟩
      | succ n =>
        rw [List.count_cons_self] at h
        obtain ⟨before, after, rfl, hn⟩ := ih (Nat.lt_of_succ_lt_succ h)
        exact ⟨u :: before, after, rfl, by rw [List.count_cons_self, hn]⟩
    · rw [List.count_cons_of_ne hu] at h
      obtain ⟨before, after, rfl, hn⟩ := ih h
      exact ⟨u :: before, after, rfl, by rw [List.count_cons_of_ne hu, hn]⟩

/-- The split at a call is the only one. -/
theorem split_unique {before before' after after' : List τ}
    (h : before ++ t :: after = before' ++ t :: after') (hn : before.count t = before'.count t) :
    before = before' := by
  rcases split_cases h with ⟨hsame, -⟩ | ⟨c, rfl⟩ | ⟨c, rfl⟩
  · exact hsame
  · rw [List.count_append, List.count_cons_self] at hn
    omega
  · rw [List.count_append, List.count_cons_self] at hn
    omega

/-- Of two calls of different threads one follows the other. -/
theorem follows_total (hne : t ≠ t') (hn : n < schedule.count t) (hn' : n' < schedule.count t') :
    Follows schedule t n t' n' ∨ Follows schedule t' n' t n := by
  obtain ⟨before, after, hsplit, hcount⟩ := exists_split hn
  obtain ⟨before', after', hsplit', hcount'⟩ := exists_split hn'
  rcases split_cases (hsplit.symm.trans hsplit') with ⟨-, heq⟩ | ⟨c, hc⟩ | ⟨c, hc⟩
  · exact absurd heq hne
  · refine .inr ⟨before', after', hsplit', hcount', ?_⟩
    rw [hc, List.count_append, List.count_cons_self, hcount]
    omega
  · refine .inl ⟨before, after, hsplit, hcount, ?_⟩
    rw [hc, List.count_append, List.count_cons_self, hcount']
    omega

/-- One turn more: the call that follows is an earlier one, or it is this one. -/
theorem follows_concat : Follows (schedule ++ [u]) t n t' n' ↔
    Follows schedule t n t' n' ∨ (u = t ∧ schedule.count t = n ∧ n' < schedule.count t') := by
  constructor
  · rintro ⟨before, after, hsplit, hn, hn'⟩
    have hlast : schedule ++ u :: [] = before ++ t :: after := hsplit
    rcases split_cases hlast with ⟨rfl, rfl⟩ | ⟨c, rfl⟩ | ⟨c, hc⟩
    · exact .inr ⟨rfl, hn, hn'⟩
    · have hlen := congrArg List.length hsplit
      simp only [List.length_append, List.length_cons, List.length_nil] at hlen
      omega
    · exact .inl ⟨before, c, hc, hn, hn'⟩
  · rintro (⟨before, after, rfl, hn, hn'⟩ | ⟨rfl, hn, hn'⟩)
    · exact ⟨before, after ++ [u], by simp, hn, hn'⟩
    · exact ⟨schedule, [], rfl, hn, hn'⟩

/-- A call that was not made follows nothing. -/
theorem not_follows_of_count_le (h : schedule.count t ≤ n) : ¬ Follows schedule t n t' n' := by
  rintro ⟨before, after, rfl, hn, -⟩
  rw [List.count_append, List.count_cons_self] at h
  omega

end Schedules

/-! ## Logs -/

section Threads

variable [DecidableEq τ] {t : τ} {log : List (τ × Option (ι × β))}

/-- The calls of the thread `t`. -/
def own (t : τ) (log : List (τ × Option (ι × β))) : List (Option (ι × β)) :=
  (log.filter fun e => e.1 = t).map Prod.snd

theorem own_append (t : τ) (log log' : List (τ × Option (ι × β))) :
    own t (log ++ log') = own t log ++ own t log' := by
  simp [own]

theorem own_cons_self (t : τ) (a : Option (ι × β)) (log : List (τ × Option (ι × β))) :
    own t ((t, a) :: log) = a :: own t log := by
  simp [own]

theorem own_singleton (t u : τ) (a : Option (ι × β)) :
    own t [(u, a)] = if u = t then [a] else [] := by
  by_cases h : u = t
  · simp [own, h]
  · simp [own, h]

theorem mem_own {a : Option (ι × β)} : a ∈ own t log ↔ (t, a) ∈ log := by
  simp [own]

theorem length_own (t : τ) (log : List (τ × Option (ι × β))) :
    (own t log).length = (log.map Prod.fst).count t := by
  induction log with
  | nil => rfl
  | cons e log ih =>
    have hcons : own t (e :: log) = own t [e] ++ own t log := own_append t [e] log
    rw [hcons, own_singleton, List.length_append, ih, List.map_cons, List.count_cons]
    by_cases h : e.1 = t
    · simp [h, Nat.add_comm]
    · simp [h]

/-- Call number `n` of a thread in the log. -/
theorem exists_split_log {n : Nat} {a : Option (ι × β)} (h : (own t log)[n]? = some a) :
    ∃ before after, log = before ++ (t, a) :: after ∧ (own t before).length = n := by
  have hn : n < (log.map Prod.fst).count t := by
    rw [← length_own]
    exact (List.getElem?_eq_some_iff.mp h).1
  obtain ⟨before, after, hsplit, hcount⟩ := exists_split hn
  obtain ⟨before', rest, rfl, rfl, hrest⟩ := List.map_eq_append_iff.mp hsplit
  obtain ⟨e, after', rfl, rfl, rfl⟩ := List.map_eq_cons_iff.mp hrest
  have hlen : (own e.1 before').length = n := by rw [length_own, hcount]
  refine ⟨before', after', ?_, hlen⟩
  have hcall : own e.1 (before' ++ e :: after') = own e.1 before' ++ e.2 :: own e.1 after' := by
    rw [own_append, ← own_cons_self]
  rw [hcall, List.getElem?_append_right (Nat.le_of_eq hlen), hlen, Nat.sub_self,
    List.getElem?_cons_zero, Option.some_inj] at h
  rw [← h]

end Threads

/-- The registers after a call. -/
def assign [DecidableEq ι] (r : ι → β) : Option (ι × β) → ι → β
  | none => r
  | some w => Function.update r w.1 w.2

/-- The registers after the calls of a log. -/
def replay [DecidableEq ι] (r : ι → β) (log : List (τ × Option (ι × β))) : ι → β :=
  log.foldl (fun r e => assign r e.2) r

section Replay

variable [DecidableEq ι] {r : ι → β} {i : ι} {log : List (τ × Option (ι × β))}

theorem replay_append (r : ι → β) (log log' : List (τ × Option (ι × β))) :
    replay r (log ++ log') = replay (replay r log) log' := List.foldl_append

/-- A register that no call assigns keeps its value. -/
theorem replay_of_not_assigned (h : ∀ e ∈ log, ∀ v, e.2 ≠ some (i, v)) : replay r log i = r i := by
  induction log generalizing r with
  | nil => rfl
  | cons e log ih =>
    rw [List.forall_mem_cons] at h
    have hcons : replay r (e :: log) = replay (assign r e.2) log := rfl
    rw [hcons, ih h.2]
    obtain ⟨t, a⟩ := e
    cases a with
    | none => rfl
    | some w =>
      obtain ⟨j, v⟩ := w
      have hj : i ≠ j := by
        rintro rfl
        exact h.1 v rfl
      exact Function.update_of_ne hj v r

/-- The last assignment counts. -/
theorem replay_of_last {before after : List (τ × Option (ι × β))} {t : τ} {v : β}
    (hlog : log = before ++ (t, some (i, v)) :: after)
    (h : ∀ e ∈ after, ∀ v, e.2 ≠ some (i, v)) : replay r log i = v := by
  have hcons : replay (replay r before) ((t, some (i, v)) :: after) =
      replay (assign (replay r before) (some (i, v))) after := rfl
  rw [hlog, replay_append, hcons, replay_of_not_assigned h]
  simp [assign]

/-- A register that is assigned holds a value that was assigned to it. -/
theorem exists_replay_eq {t : τ} {v : β} (h : (t, some (i, v)) ∈ log) :
    ∃ u w, (u, some (i, w)) ∈ log ∧ replay r log i = w := by
  induction log using List.reverseRecOn with
  | nil => cases h
  | append_singleton log e ih =>
    have hlast : replay r (log ++ [e]) = assign (replay r log) e.2 := replay_append r log [e]
    by_cases he : ∃ w, e.2 = some (i, w)
    · obtain ⟨w, hw⟩ := he
      refine ⟨e.1, w, List.mem_append_right _ (List.mem_singleton.mpr (by rw [← hw])), ?_⟩
      rw [hlast, hw]
      simp [assign]
    · have hmem : (t, some (i, v)) ∈ log := by
        rcases List.mem_append.mp h with h | h
        · exact h
        · exact absurd ⟨v, by rw [← List.mem_singleton.mp h]⟩ he
      obtain ⟨u, w, hu, hw⟩ := ih hmem
      refine ⟨u, w, List.mem_append_left _ hu, ?_⟩
      have hkeep : replay (replay r log) [e] i = replay r log i :=
        replay_of_not_assigned fun e' he' v hv => he ⟨v, List.mem_singleton.mp he' ▸ hv⟩
      rw [replay_append, hkeep, hw]

end Replay

/-! ## The last thread -/

section Last

variable [DecidableEq τ] [DecidableEq ι] {r : ι → β} {i : ι} {log : List (τ × Option (ι × β))}

/-- Call number `n` is the last of these that assigns `i`, and it assigns `v`. -/
structure LastAt (i : ι) (calls : List (Option (ι × β))) (n : Nat) (v : β) : Prop where
  assigns : calls[n]? = some (some (i, v))
  last : ∀ m v', calls[m]? = some (some (i, v')) → m ≤ n

/-- A register holds what a thread assigns to it last, if this call follows the last one of every
other thread that assigns it. -/
theorem replay_of_follows {t : τ} {n : Nat} {v : β} (hlast : LastAt i (own t log) n v)
    (hothers : ∀ t', t' ≠ t → (∀ v', some (i, v') ∉ own t' log) ∨
      ∃ n' v', LastAt i (own t' log) n' v' ∧ Follows (log.map Prod.fst) t n t' n') :
    replay r log i = v := by
  obtain ⟨before, after, hlog, hn⟩ := exists_split_log hlast.assigns
  refine replay_of_last hlog fun e he v' hv' => ?_
  obtain ⟨t', a⟩ := e
  obtain rfl : a = some (i, v') := hv'
  -- the call behind it is number `m` of its thread
  obtain ⟨mid, rest, rfl⟩ := List.append_of_mem he
  have hsplit : log = (before ++ (t, some (i, v)) :: mid) ++ (t', some (i, v')) :: rest := by
    rw [hlog, List.append_assoc, List.cons_append]
  have hcall : (own t' log)[(own t' (before ++ (t, some (i, v)) :: mid)).length]? =
      some (some (i, v')) := by
    rw [hsplit, own_append, own_cons_self, List.getElem?_append_right (Nat.le_refl _),
      Nat.sub_self, List.getElem?_cons_zero]
  by_cases ht : t' = t
  · subst ht
    have hle := hlast.last _ _ hcall
    rw [own_append, own_cons_self, List.length_append, List.length_cons, hn] at hle
    omega
  · rcases hothers t' ht with hnever | ⟨n', v'', hlast', before', after', hsched, hcount, hn'⟩
    · exact hnever v' (List.mem_of_getElem? hcall)
    · have hle := hlast'.last _ _ hcall
      rw [own_append, List.length_append, length_own] at hle
      rw [hlog, List.map_append, List.map_cons] at hsched
      have hfirst := split_unique hsched (by rw [← length_own, hn, hcount])
      rw [hfirst] at hle
      omega

end Last

end Registers
