import Mathlib.Data.List.Chain
import Mathlib.Data.List.Find

/-!
# A region that is cut into cells

A region of memory without gaps: each cell is a header of `h` bytes and the data behind it. A cell
is used or free. Positions are counted from the start of the region. What an allocator keeps in the
headers, and how it finds a cell, is left open.
-/

/-- A cell by its use and by the size of its data. -/
structure Cell where
  used : Bool
  size : Nat
  deriving DecidableEq, Repr

namespace Tiling

variable (h : Nat)

/-- The bytes that the cells take. -/
def extent : List Cell → Nat
  | [] => 0
  | c :: cs => h + c.size + extent cs

/-- The position of the last of the cells that start at `p`, or `q` if there are none. -/
def lastAt (p q : Nat) : List Cell → Nat
  | [] => q
  | c :: cs => lastAt (p + h + c.size) p cs

/-- The cells that start at `p`, with their positions. -/
def place (p : Nat) : List Cell → List (Nat × Cell)
  | [] => []
  | c :: cs => (p, c) :: place (p + h + c.size) cs

/-- The positions of the free cells. -/
def frees (p : Nat) (cs : List Cell) : List Nat :=
  ((place h p cs).filter fun x => !x.2.used).map Prod.fst

/-- The data of the used cells, by position and size. -/
def blocks (p : Nat) (cs : List Cell) : List (Nat × Nat) :=
  ((place h p cs).filter fun x => x.2.used).map fun x => (x.1 + h, x.2.size)

/-- The bytes that blocks take with their headers. -/
def spent : List (Nat × Nat) → Nat
  | [] => 0
  | b :: bs => h + b.2 + spent bs

/-- No two free cells are side by side. -/
def Coalesced (cs : List Cell) : Prop := cs.IsChain fun a b => a.used = true ∨ b.used = true

/-- A free cell that starts before `limit` and has room for `size` bytes. -/
def suits (limit size : Nat) (x : Nat × Cell) : Bool :=
  x.1 < limit && (!x.2.used && size ≤ x.2.size)

variable {h} {p q n : Nat} {c : Cell} {cs xs ys : List Cell}

@[simp] theorem extent_nil : extent h [] = 0 := rfl

@[simp] theorem extent_cons : extent h (c :: cs) = h + c.size + extent h cs := rfl

@[simp] theorem extent_append : extent h (xs ++ ys) = extent h xs + extent h ys := by
  induction xs with
  | nil => simp
  | cons x xs ih =>
    rw [List.cons_append, extent_cons, extent_cons, ih]
    omega

@[simp] theorem place_nil : place h p [] = [] := rfl

@[simp] theorem place_cons : place h p (c :: cs) = (p, c) :: place h (p + h + c.size) cs := rfl

@[simp] theorem place_append :
    place h p (xs ++ ys) = place h p xs ++ place h (p + extent h xs) ys := by
  induction xs generalizing p with
  | nil => simp
  | cons x xs ih =>
    rw [List.cons_append, place_cons, ih, place_cons, extent_cons, List.cons_append]
    simp only [Nat.add_assoc]

theorem lastAt_concat : lastAt h p q (xs ++ [c]) = p + extent h xs := by
  induction xs generalizing p q with
  | nil => rfl
  | cons x xs ih =>
    rw [List.cons_append, lastAt, ih, extent_cons]
    omega

/-- A cell with its position is a cell behind some and in front of others. -/
theorem mem_place : (q, c) ∈ place h p cs ↔ ∃ xs ys, cs = xs ++ c :: ys ∧ q = p + extent h xs := by
  constructor
  · intro hmem
    induction cs generalizing p with
    | nil => cases hmem
    | cons x cs ih =>
      rcases List.mem_cons.mp hmem with heq | hmem
      · rw [Prod.mk.injEq] at heq
        obtain ⟨rfl, rfl⟩ := heq
        exact ⟨[], cs, rfl, rfl⟩
      · obtain ⟨xs, ys, rfl, rfl⟩ := ih hmem
        refine ⟨x :: xs, ys, rfl, ?_⟩
        rw [extent_cons]
        omega
  · rintro ⟨xs, ys, rfl, rfl⟩
    rw [place_append]
    exact List.mem_append_right _ List.mem_cons_self

theorem place_bounds (hmem : (q, c) ∈ place h p cs) :
    p ≤ q ∧ q + h + c.size ≤ p + extent h cs := by
  obtain ⟨xs, ys, rfl, rfl⟩ := mem_place.mp hmem
  simp only [extent_append, extent_cons]
  omega

theorem length_le_extent (hsized : ∀ c ∈ cs, 0 < c.size) : (h + 1) * cs.length ≤ extent h cs := by
  induction cs with
  | nil => simp
  | cons c cs ih =>
    rw [List.forall_mem_cons] at hsized
    have := ih hsized.2
    rw [extent_cons, List.length_cons, Nat.mul_add_one]
    omega

theorem dvd_extent {d : Nat} (hh : d ∣ h) (hcs : ∀ c ∈ cs, d ∣ c.size) : d ∣ extent h cs := by
  induction cs with
  | nil => exact Nat.dvd_zero d
  | cons c cs ih =>
    rw [List.forall_mem_cons] at hcs
    rw [extent_cons]
    exact Nat.dvd_add (Nat.dvd_add hh hcs.1) (ih hcs.2)

/-- Behind the limit no cell is looked for. -/
theorem find?_suits_of_le {limit size : Nat} (hp : limit ≤ p) :
    (place h p cs).find? (suits limit size) = none := by
  rw [List.find?_eq_none]
  rintro ⟨q, c⟩ hmem
  have := (place_bounds hmem).1
  simp only [suits, Bool.and_eq_true, decide_eq_true_eq]
  omega

/-- Where the search starts at `q`, the cells before are not looked at. -/
theorem find?_suits_from {limit size : Nat} (hh : 0 < h) (hq : p + extent h xs = q) :
    ((place h p (xs ++ ys)).find? fun x => q ≤ x.1 && suits limit size x) =
      (place h q ys).find? (suits limit size) := by
  have hxs : ((place h p xs).find? fun x => q ≤ x.1 && suits limit size x) = none := by
    rw [List.find?_eq_none]
    rintro ⟨r, c⟩ hmem
    have := (place_bounds hmem).2
    simp only [Bool.and_eq_true, decide_eq_true_eq]
    omega
  have hys : (place h q ys).find? (fun x => q ≤ x.1 && suits limit size x) =
      (place h q ys).find? (suits limit size) := by
    apply List.find?_congr
    rintro ⟨r, c⟩ hmem
    have := (place_bounds hmem).1
    simp only [decide_eq_true this, Bool.true_and]
  rw [place_append, List.find?_append, hxs, Option.none_or, hq, hys]

/-! ## Free cells and blocks -/

@[simp] theorem frees_nil : frees h p [] = [] := rfl

@[simp] theorem blocks_nil : blocks h p [] = [] := rfl

@[simp] theorem frees_free :
    frees h p (⟨false, n⟩ :: cs) = p :: frees h (p + h + n) cs := rfl

@[simp] theorem frees_used : frees h p (⟨true, n⟩ :: cs) = frees h (p + h + n) cs := rfl

@[simp] theorem blocks_free : blocks h p (⟨false, n⟩ :: cs) = blocks h (p + h + n) cs := rfl

@[simp] theorem blocks_used :
    blocks h p (⟨true, n⟩ :: cs) = (p + h, n) :: blocks h (p + h + n) cs := rfl

@[simp] theorem frees_append :
    frees h p (xs ++ ys) = frees h p xs ++ frees h (p + extent h xs) ys := by
  simp [frees]

@[simp] theorem blocks_append :
    blocks h p (xs ++ ys) = blocks h p xs ++ blocks h (p + extent h xs) ys := by
  simp [blocks]

theorem mem_frees : q ∈ frees h p cs ↔ ∃ n, (q, ⟨false, n⟩) ∈ place h p cs := by
  simp only [frees, List.mem_map, List.mem_filter, Bool.not_eq_true']
  constructor
  · rintro ⟨⟨q, _, n⟩, ⟨hmem, rfl⟩, rfl⟩
    exact ⟨n, hmem⟩
  · rintro ⟨n, hmem⟩
    exact ⟨(q, ⟨false, n⟩), ⟨hmem, rfl⟩, rfl⟩

theorem mem_blocks {b : Nat × Nat} :
    b ∈ blocks h p cs ↔ ∃ q, (q, ⟨true, b.2⟩) ∈ place h p cs ∧ b.1 = q + h := by
  simp only [blocks, List.mem_map, List.mem_filter]
  constructor
  · rintro ⟨⟨q, _, n⟩, ⟨hmem, rfl⟩, rfl⟩
    exact ⟨q, hmem, rfl⟩
  · rintro ⟨q, hmem, hb⟩
    exact ⟨(q, ⟨true, b.2⟩), ⟨hmem, rfl⟩, by rw [← hb]⟩

theorem blocks_bounds {b : Nat × Nat} (hb : b ∈ blocks h p cs) :
    p + h ≤ b.1 ∧ b.1 + b.2 ≤ p + extent h cs := by
  obtain ⟨q, hmem, hq⟩ := mem_blocks.mp hb
  have := place_bounds hmem
  simp only at this
  omega

/-- The data of one cell and the header of another are apart. -/
theorem blocks_apart {b : Nat × Nat} (hb : b ∈ blocks h p cs) (hq : (q, c) ∈ place h p cs) :
    q + h ≤ b.1 ∨ b.1 + b.2 ≤ q := by
  induction cs generalizing p with
  | nil => cases hq
  | cons d cs ih =>
    rcases List.mem_cons.mp hq with heq | hq
    · rw [Prod.mk.injEq] at heq
      rw [heq.1]
      exact .inl (blocks_bounds hb).1
    · obtain ⟨_ | _, n⟩ := d
      · exact ih hb hq
      · rcases List.mem_cons.mp hb with rfl | hb
        · exact .inr (place_bounds hq).1
        · exact ih hb hq

theorem frees_bounds (hq : q ∈ frees h p cs) : p ≤ q ∧ q + h ≤ p + extent h cs := by
  obtain ⟨n, hmem⟩ := mem_frees.mp hq
  have := place_bounds hmem
  omega

theorem spent_append (as bs : List (Nat × Nat)) :
    spent h (as ++ bs) = spent h as + spent h bs := by
  induction as with
  | nil => simp [spent]
  | cons a as ih =>
    rw [List.cons_append, spent, spent, ih]
    omega

theorem spent_blocks_le : spent h (blocks h p cs) ≤ extent h cs := by
  induction cs generalizing p with
  | nil => exact Nat.le_refl _
  | cons c cs ih =>
    obtain ⟨_ | _, n⟩ := c
    · rw [blocks_free, extent_cons]
      exact Nat.le_trans ih (Nat.le_add_left _ _)
    · rw [blocks_used, spent, extent_cons]
      exact Nat.add_le_add_left ih _

/-- The first free cell comes first. -/
theorem head_frees_le (hq : q ∈ frees h p cs) : ∃ r, (frees h p cs).head? = some r ∧ r ≤ q := by
  induction cs generalizing p with
  | nil => cases hq
  | cons c cs ih =>
    obtain ⟨_ | _, n⟩ := c
    · exact ⟨p, rfl, (frees_bounds hq).1⟩
    · exact ih hq

/-- Blocks lie apart, each before the header of the next. -/
theorem pairwise_blocks : (blocks h p cs).Pairwise fun a b => a.1 + a.2 + h ≤ b.1 := by
  induction cs generalizing p with
  | nil => exact .nil
  | cons c cs ih =>
    obtain ⟨_ | _, n⟩ := c
    · exact ih
    · rw [blocks_used, List.pairwise_cons]
      exact ⟨fun b hb => (blocks_bounds hb).1, ih⟩

/-- Whichever of two blocks comes first, the other lies behind its own header. -/
theorem blocks_apart_of_ne {a b : Nat × Nat} (ha : a ∈ blocks h p cs) (hb : b ∈ blocks h p cs)
    (hne : a.1 ≠ b.1) : a.1 + a.2 + h ≤ b.1 ∨ b.1 + b.2 + h ≤ a.1 := by
  have hbefore : (blocks h p cs).Pairwise fun a b => a.1 + a.2 + h ≤ b.1 := pairwise_blocks
  have hall := List.Pairwise.forall_of_forall_of_flip
    (R := fun a b : Nat × Nat => a.1 ≠ b.1 → a.1 + a.2 + h ≤ b.1 ∨ b.1 + b.2 + h ≤ a.1)
    (fun _ _ hself => absurd rfl hself) (hbefore.imp fun hle _ => .inl hle)
    (hbefore.imp fun hle _ => .inr hle)
  exact hall ha hb hne

/-! ## Cells side by side -/

theorem Coalesced.append_cons (h : Coalesced (xs ++ c :: ys)) :
    Coalesced xs ∧ Coalesced (c :: ys) := by
  obtain ⟨hxs, hys, -⟩ := List.isChain_append.mp h
  exact ⟨hxs, hys⟩

theorem Coalesced.resize {used : Bool} (h : Coalesced (⟨used, n⟩ :: cs)) (m : Nat) :
    Coalesced (⟨used, m⟩ :: cs) := by
  cases cs with
  | nil => exact .singleton _
  | cons c cs =>
    rw [Coalesced, List.isChain_cons_cons] at h
    exact .cons_cons h.1 h.2

theorem Coalesced.cons_used (h : Coalesced cs) (n : Nat) : Coalesced (⟨true, n⟩ :: cs) := by
  cases cs with
  | nil => exact .singleton _
  | cons c cs => exact .cons_cons (.inl rfl) h

theorem Coalesced.append_used (hxs : Coalesced xs) (hys : Coalesced ys) (n : Nat) :
    Coalesced (xs ++ ⟨true, n⟩ :: ys) := by
  rw [Coalesced, List.isChain_append]
  refine ⟨hxs, hys.cons_used n, fun a _ b hb => ?_⟩
  cases hb
  exact .inr rfl

/-- Without used cells, there is one cell. -/
theorem Coalesced.eq_singleton (hco : Coalesced cs) (hused : blocks h p cs = []) :
    cs = [] ∨ ∃ n, cs = [⟨false, n⟩] := by
  match cs with
  | [] => exact .inl rfl
  | ⟨true, n⟩ :: cs => cases hused
  | [⟨false, n⟩] => exact .inr ⟨n, rfl⟩
  | ⟨false, n⟩ :: ⟨true, m⟩ :: cs => cases hused
  | ⟨false, n⟩ :: ⟨false, m⟩ :: cs =>
    rcases (List.isChain_cons_cons.mp hco).1 with hfalse | hfalse
    · cases hfalse
    · cases hfalse

end Tiling
