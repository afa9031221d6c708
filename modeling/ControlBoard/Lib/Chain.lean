import Mathlib.Data.List.Basic

/-!
# Chains of links

The nodes that a link function leads through, from a first one to an end mark. A chain is
determined by its first node, so no node comes in it twice; and a search along the links is a
search in the list of the nodes, if it has more turns than the chain has nodes.
-/

namespace Links

variable {α : Type}

/-- From `p` on the links lead through the nodes of a list and then to `null`. -/
def Chain (next : α → α) (null : α) : α → List α → Prop
  | p, [] => p = null
  | p, q :: qs => p = q ∧ p ≠ null ∧ Chain next null (next p) qs

variable {next next' : α → α} {null p last q : α} {ps as bs : List α}

theorem Chain.ne_null (h : Chain next null p ps) : ∀ q ∈ ps, q ≠ null := by
  induction ps generalizing p with
  | nil => simp
  | cons q qs ih =>
    obtain ⟨rfl, hp, hqs⟩ := h
    intro r hr
    rcases List.mem_cons.mp hr with rfl | hr
    · exact hp
    · exact ih hqs r hr

/-- Links that agree on the nodes make the same chain. -/
theorem Chain.congr (h : Chain next null p ps) (hnext : ∀ q ∈ ps, next' q = next q) :
    Chain next' null p ps := by
  induction ps generalizing p with
  | nil => exact h
  | cons q qs ih =>
    obtain ⟨rfl, hp, hqs⟩ := h
    refine ⟨rfl, hp, ?_⟩
    rw [hnext p List.mem_cons_self]
    exact ih hqs fun r hr => hnext r (List.mem_cons_of_mem p hr)

theorem Chain.unique {qs : List α} (h : Chain next null p ps) (h' : Chain next null p qs) :
    ps = qs := by
  induction ps generalizing p qs with
  | nil =>
    cases qs with
    | nil => rfl
    | cons q qs => exact absurd h h'.2.1
  | cons r ps ih =>
    cases qs with
    | nil => exact absurd h' h.2.1
    | cons q qs =>
      obtain ⟨rfl, -, hps⟩ := h
      obtain ⟨rfl, -, hqs⟩ := h'
      rw [ih hps hqs]

/-- The chain starts at its first node. -/
theorem Chain.head (h : Chain next null p (q :: bs)) : Chain next null q (q :: bs) :=
  ⟨rfl, h.1 ▸ h.2⟩

/-- The chain from one of its nodes on. -/
theorem Chain.drop (h : Chain next null p (as ++ q :: bs)) : Chain next null q (q :: bs) := by
  induction as generalizing p with
  | nil => exact h.head
  | cons a as ih => exact ih h.2.2

/-- A chain that ends is without a cycle. -/
theorem Chain.nodup (h : Chain next null p ps) : ps.Nodup := by
  induction ps generalizing p with
  | nil => exact List.nodup_nil
  | cons q qs ih =>
    refine List.nodup_cons.mpr ⟨?_, ih h.2.2⟩
    intro hq
    -- from its second place on the chain would be shorter than itself
    obtain ⟨as, bs, rfl⟩ := List.append_of_mem hq
    have hwhole : Chain next null q (q :: (as ++ q :: bs)) := h.head
    have hlen := congrArg List.length (hwhole.unique h.2.2.drop)
    simp only [List.length_cons, List.length_append] at hlen
    omega

/-! ## Updates -/

/-- A new node in front. -/
theorem Chain.push (h : Chain next null p ps) (hq : q ≠ null) (hlink : next' q = p)
    (hnext : ∀ r ∈ ps, next' r = next r) : Chain next' null q (q :: ps) := by
  refine ⟨rfl, hq, ?_⟩
  rw [hlink]
  exact h.congr hnext

/-- The node before `q` is linked to the one behind it. -/
theorem Chain.unlink (h : Chain next null p (as ++ last :: q :: bs))
    (hlink : next' last = next q) (hnext : ∀ r ∈ as ++ bs, next' r = next r) :
    Chain next' null p (as ++ last :: bs) := by
  induction as generalizing p with
  | nil =>
    obtain ⟨rfl, hp, rfl, -, hbs⟩ := h
    refine ⟨rfl, hp, ?_⟩
    rw [hlink]
    exact hbs.congr hnext
  | cons a as ih =>
    obtain ⟨rfl, hp, has⟩ := h
    refine ⟨rfl, hp, ?_⟩
    rw [hnext p List.mem_cons_self]
    exact ih has fun r hr => hnext r (List.mem_cons_of_mem p hr)

/-! ## Searches -/

section Search

variable [DecidableEq α] (ok found : α → Bool)

/-- The first node from `p` on that is found, or `null`. None if a node is met that is not `ok`, or
so many turns do not end it. -/
def search (next : α → α) (null : α) : Nat → α → Option α
  | 0, _ => none
  | fuel + 1, p =>
    if p = null then some null
    else if ok p then if found p then some p else search next null fuel (next p)
    else none

/-- The same with a pointer that stays one node behind. -/
def searchLast (next : α → α) (null : α) : Nat → α → α → Option (α × α)
  | 0, _, _ => none
  | fuel + 1, last, p =>
    if p = null then some (last, null)
    else if ok p then if found p then some (last, p) else searchLast next null fuel p (next p)
    else none

variable {ok found} {fuel : Nat}

/-- One turn that finds, -/
theorem searchLast_here (hp : p ≠ null) (hok : ok p) (hfound : found p) (fuel : Nat) (last : α) :
    searchLast ok found next null (fuel + 1) last p = some (last, p) := by
  rw [searchLast, if_neg hp, if_pos hok, if_pos hfound]

/-- and one that does not. -/
theorem searchLast_next (hp : p ≠ null) (hok : ok p) (hfound : ¬ found p) (fuel : Nat) (last : α) :
    searchLast ok found next null (fuel + 1) last p =
      searchLast ok found next null fuel p (next p) := by
  rw [searchLast, if_neg hp, if_pos hok, if_neg hfound]

theorem searchLast_of_none (h : Chain next null p ps) (hok : ∀ q ∈ ps, ok q)
    (hfuel : ps.length < fuel) (hnone : ∀ q ∈ ps, ¬ found q) (last : α) :
    ∃ last', searchLast ok found next null fuel last p = some (last', null) := by
  induction ps generalizing fuel p last with
  | nil =>
    have hend : p = null := h
    cases fuel with
    | zero => cases hfuel
    | succ fuel => exact ⟨last, by rw [searchLast, if_pos hend]⟩
  | cons q qs ih =>
    obtain ⟨rfl, hp, hqs⟩ := h
    rw [List.forall_mem_cons] at hok hnone
    cases fuel with
    | zero => cases hfuel
    | succ fuel =>
      rw [searchLast_next hp hok.1 hnone.1]
      exact ih hqs hok.2 (Nat.lt_of_succ_lt_succ hfuel) hnone.2 p

/-- The search stops at the first node to be found, with the pointer behind on the one before. -/
theorem searchLast_of_found (h : Chain next null p (as ++ q :: bs))
    (hok : ∀ r ∈ as ++ q :: bs, ok r) (hfuel : (as ++ q :: bs).length < fuel)
    (has : ∀ a ∈ as, ¬ found a) (hq : found q) (last : α) :
    searchLast ok found next null fuel last p = some (as.getLast?.getD last, q) := by
  induction as generalizing fuel p last with
  | nil =>
    obtain ⟨rfl, hp, -⟩ := h
    cases fuel with
    | zero => cases hfuel
    | succ fuel => exact searchLast_here hp (hok p List.mem_cons_self) hq fuel last
  | cons a as ih =>
    obtain ⟨rfl, hp, hrest⟩ := h
    rw [List.cons_append, List.forall_mem_cons] at hok
    rw [List.forall_mem_cons] at has
    cases fuel with
    | zero => cases hfuel
    | succ fuel =>
      rw [searchLast_next hp hok.1 has.1, ih hrest hok.2 (Nat.lt_of_succ_lt_succ hfuel) has.2,
        List.getLast?_cons, Option.getD_some]

/-- The pointer behind plays no role in what is found. -/
theorem searchLast_snd (fuel : Nat) (last p : α) :
    (searchLast ok found next null fuel last p).map Prod.snd = search ok found next null fuel p := by
  induction fuel generalizing last p with
  | zero => rfl
  | succ fuel ih =>
    rw [searchLast, search]
    by_cases hend : p = null
    · rw [if_pos hend, if_pos hend, Option.map_some]
    · rw [if_neg hend, if_neg hend]
      by_cases hok : ok p
      · rw [if_pos hok, if_pos hok]
        by_cases hfound : found p
        · rw [if_pos hfound, if_pos hfound, Option.map_some]
        · rw [if_neg hfound, if_neg hfound, ih]
      · rw [if_neg hok, if_neg hok, Option.map_none]

theorem search_of_none (h : Chain next null p ps) (hok : ∀ q ∈ ps, ok q)
    (hfuel : ps.length < fuel) (hnone : ∀ q ∈ ps, ¬ found q) :
    search ok found next null fuel p = some null := by
  obtain ⟨last', hsearch⟩ := searchLast_of_none h hok hfuel hnone p
  rw [← searchLast_snd fuel p p, hsearch, Option.map_some]

theorem search_of_found (h : Chain next null p (as ++ q :: bs)) (hok : ∀ r ∈ as ++ q :: bs, ok r)
    (hfuel : (as ++ q :: bs).length < fuel) (has : ∀ a ∈ as, ¬ found a) (hq : found q) :
    search ok found next null fuel p = some q := by
  rw [← searchLast_snd fuel p p, searchLast_of_found h hok hfuel has hq p, Option.map_some]

end Search

end Links
