import Mathlib.Data.List.Basic

/-!
# Streams cut into lines

A reader collects a stream until a predicate of what it has collected says that a line is
complete, and then starts afresh. Every stream is cut into lines in exactly one way; and a machine
whose state is a function of the unfinished line alone makes the lines of that cut, however the
stream arrives.
-/

namespace Cut

variable {α : Type} (ends : List α → Bool)

/-- Nothing in `p` completes a line. -/
def Unfinished (p : List α) : Prop := ∀ q a, q ++ [a] <+: p → ends (q ++ [a]) = false

/-- The last element of `l` completes it, and none before it does. -/
def IsLine (l : List α) : Prop := ∃ p a, l = p ++ [a] ∧ Unfinished ends p ∧ ends (p ++ [a]) = true

/-- The lines of a stream that follows the unfinished `p`, and what is unfinished at its end. -/
def feed : List α → List α → List (List α) × List α
  | p, [] => ([], p)
  | p, a :: s =>
    if ends (p ++ [a]) then ((p ++ [a]) :: (feed [] s).1, (feed [] s).2) else feed (p ++ [a]) s

variable {ends} {p q s t l : List α} {a : α}

theorem unfinished_nil (ends : List α → Bool) : Unfinished ends [] := by
  intro q a h
  rw [List.prefix_nil] at h
  simp at h

theorem Unfinished.concat (h : Unfinished ends p) (ha : ends (p ++ [a]) = false) :
    Unfinished ends (p ++ [a]) := by
  intro q b hq
  rcases List.prefix_concat_iff.mp hq with heq | hq
  · rw [heq]
    exact ha
  · exact h q b hq

/-- Nothing is lost and nothing is added. -/
theorem flatten_feed (p s : List α) : (feed ends p s).1.flatten ++ (feed ends p s).2 = p ++ s := by
  induction s generalizing p with
  | nil => simp [feed]
  | cons a s ih =>
    rw [feed]
    split
    · rw [List.flatten_cons, List.append_assoc, ih]
      simp
    · rw [ih]
      simp

theorem feed_isLine (hp : Unfinished ends p) (s : List α) :
    (∀ l ∈ (feed ends p s).1, IsLine ends l) ∧ Unfinished ends (feed ends p s).2 := by
  induction s generalizing p with
  | nil => exact ⟨by simp [feed], hp⟩
  | cons a s ih =>
    rw [feed]
    split
    · rename_i hends
      obtain ⟨hlines, htail⟩ := ih (unfinished_nil ends)
      refine ⟨?_, htail⟩
      intro l hl
      rcases List.mem_cons.mp hl with rfl | hl
      · exact ⟨p, a, rfl, hp, hends⟩
      · exact hlines l hl
    · rename_i hends
      exact ih (hp.concat (by simpa using hends))

/-- A stream in two parts. -/
theorem feed_append (p s t : List α) :
    feed ends p (s ++ t) =
      ((feed ends p s).1 ++ (feed ends (feed ends p s).2 t).1,
        (feed ends (feed ends p s).2 t).2) := by
  induction s generalizing p with
  | nil => rfl
  | cons a s ih =>
    rw [List.cons_append, feed, feed]
    split
    · rw [ih]
      rfl
    · rw [ih]

/-- What does not complete the line stays unfinished. -/
theorem feed_of_unfinished (h : Unfinished ends (p ++ s)) : feed ends p s = ([], p ++ s) := by
  induction s generalizing p with
  | nil => simp [feed]
  | cons a s ih =>
    rw [← List.singleton_append, ← List.append_assoc] at h
    have ha : ends (p ++ [a]) = false := h p a (List.prefix_append (p ++ [a]) s)
    rw [feed, if_neg (by simp [ha]), ih h]
    simp

theorem feed_of_isLine (h : IsLine ends l) : feed ends [] l = ([l], []) := by
  obtain ⟨p, a, rfl, hp, hends⟩ := h
  rw [feed_append, feed_of_unfinished hp]
  simp [feed, hends]

/-- The lines of a stream that is made of lines are those lines. -/
theorem feed_flatten {ls : List (List α)} (hls : ∀ l ∈ ls, IsLine ends l) (ht : Unfinished ends t) :
    feed ends [] (ls.flatten ++ t) = (ls, t) := by
  induction ls with
  | nil => exact feed_of_unfinished ht
  | cons l ls ih =>
    rw [List.forall_mem_cons] at hls
    rw [List.flatten_cons, List.append_assoc, feed_append, feed_of_isLine hls.1, ih hls.2]
    rfl

/-! ## Readers -/

section Reader

variable {σ β : Type} (step : σ → α → σ × Option β)

/-- The state after a stream, and what the reader has made of it. -/
def read : σ → List α → σ × List β
  | s, [] => (s, [])
  | s, a :: as => ((read (step s a).1 as).1, (step s a).2.toList ++ (read (step s a).1 as).2)

variable {step}

/-- A reader whose state is determined by the unfinished line makes one thing of each line. -/
theorem read_eq_feed {state : List α → σ} {result : List α → β}
    (hstep : ∀ p a, Unfinished ends p → step (state p) a =
      if ends (p ++ [a]) then (state [], some (result (p ++ [a]))) else (state (p ++ [a]), none))
    (hp : Unfinished ends p) (s : List α) :
    read step (state p) s = (state (feed ends p s).2, (feed ends p s).1.map result) := by
  induction s generalizing p with
  | nil => rfl
  | cons a s ih =>
    rw [read, feed, hstep p a hp]
    split
    · rename_i hends
      rw [ih (unfinished_nil ends)]
      rfl
    · rename_i hends
      rw [ih (hp.concat (by simpa using hends))]
      rfl

end Reader

end Cut
