import ControlBoard.SmallMemCells

/-!
# What the calls do to the cells

One statement for each of the functions of the heap, about the cells before and after it and about
the bytes of the blocks that are in use.
-/

namespace ControlBoard

namespace SmallMem

open Tiling

variable {s t : SmallMem} {p n m : Nat} {c : Cell} {cs xs ys : List Cell}

/-! ## `plug_holes` -/

theorem Tiled.plugForward_eq (h : s.Tiled (xs ++ ⟨false, n⟩ :: ys)) :
    s.plugForward (extent 12 xs) = match ys with
      | ⟨false, _⟩ :: _ => s.plug (extent 12 xs) (extent 12 xs + 12 + n)
      | _ => s := by
  have hnext := h.next_eq
  have hend := h.end_eq
  simp only at hnext hend
  cases ys with
  | nil =>
    rw [extent_nil, Nat.add_zero] at hend
    simp only [plugForward, hnext, hend]
    rw [if_neg (by simp)]
  | cons d ys =>
    have hsplit : xs ++ ⟨false, n⟩ :: d :: ys = (xs ++ [⟨false, n⟩]) ++ d :: ys := by simp
    rw [hsplit] at h
    have hheader := h.header_eq
    rw [extent_append, extent_cons, extent_nil, Nat.add_zero, ← Nat.add_assoc] at hheader
    rw [extent_cons] at hend
    obtain ⟨_ | _, m⟩ := d
    · simp only [plugForward, hnext, hheader]
      rw [if_pos ⟨by omega, rfl, by omega⟩]
      rfl
    · simp only [plugForward, hnext, hheader]
      rw [if_neg (by simp [cellHeader])]

/-- The forward half leaves no free cell behind the block. -/
theorem Tiled.plugForward (h : s.Tiled (xs ++ ⟨false, n⟩ :: ys)) (hys : Coalesced ys) :
    ∃ n' ys', s.Plugs (s.plugForward (extent 12 xs)) (xs ++ ⟨false, n⟩ :: ys)
      (xs ++ ⟨false, n'⟩ :: ys') ∧ Coalesced (⟨false, n'⟩ :: ys') := by
  have heq := h.plugForward_eq
  match ys with
  | [] => exact ⟨n, [], heq ▸ .refl h, .singleton _⟩
  | ⟨true, m⟩ :: ys => exact ⟨n, _, heq ▸ .refl h, .cons_cons (.inr rfl) hys⟩
  | [⟨false, m⟩] => exact ⟨n + (12 + m), [], heq ▸ h.plug, .singleton _⟩
  | ⟨false, m⟩ :: ⟨true, k⟩ :: ys =>
    exact ⟨n + (12 + m), _, heq ▸ h.plug, .cons_cons (.inr rfl) hys.tail⟩
  | ⟨false, m⟩ :: ⟨false, k⟩ :: ys => 
    rcases (List.isChain_cons_cons.mp hys).1 with hfalse | hfalse
    · cases hfalse
    · cases hfalse

theorem Tiled.plugBackward_nil (h : s.Tiled (⟨false, n⟩ :: ys)) :
    s.plugBackward 0 = s := by
  have hcells : s.Tiled ([] ++ ⟨false, n⟩ :: ys) := h
  have hheader := hcells.header_eq
  rw [extent_nil] at hheader
  simp only [plugBackward, hheader, cellHeader, lastAt]
  rw [if_neg (by simp)]

theorem Tiled.plugBackward_concat (h : s.Tiled (xs ++ c :: ⟨false, n⟩ :: ys)) :
    s.plugBackward (extent 12 xs + 12 + c.size) =
      if c.used then s else s.plug (extent 12 xs) (extent 12 xs + 12 + c.size) := by
  have hheader := h.header_eq
  have hsplit : xs ++ c :: ⟨false, n⟩ :: ys = (xs ++ [c]) ++ ⟨false, n⟩ :: ys := by simp
  rw [hsplit] at h
  have hlast := h.header_eq
  rw [extent_append, extent_cons, extent_nil, Nat.add_zero, ← Nat.add_assoc, lastAt_concat,
    Nat.zero_add] at hlast
  have hprev : (s.header (extent 12 xs + 12 + c.size)).prev = extent 12 xs := by
    rw [hlast]
    rfl
  obtain ⟨_ | _, m⟩ := c
  · simp only [plugBackward, hprev, hheader]
    rw [if_pos ⟨by omega, rfl⟩]
    rfl
  · simp only [plugBackward, hprev, hheader]
    rw [if_neg (by simp [cellHeader])]
    rfl

/-- The backward half leaves no free cell before the block. -/
theorem Tiled.plugBackward (h : s.Tiled (xs ++ ⟨false, n⟩ :: ys)) (hxs : Coalesced xs)
    (hys : Coalesced (⟨false, n⟩ :: ys)) :
    ∃ cs, s.Plugs (s.plugBackward (extent 12 xs)) (xs ++ ⟨false, n⟩ :: ys) cs ∧ Coalesced cs := by
  rcases List.eq_nil_or_concat' xs with rfl | ⟨ws, c, rfl⟩
  · refine ⟨⟨false, n⟩ :: ys, ?_, hys⟩
    rw [extent_nil, Tiled.plugBackward_nil h]
    exact .refl h
  · rw [List.append_assoc, List.singleton_append] at h ⊢
    have heq := h.plugBackward_concat
    rw [extent_append, extent_cons, extent_nil, Nat.add_zero, ← Nat.add_assoc, heq]
    obtain ⟨_ | _, m⟩ := c
    · refine ⟨_, h.plug, ?_⟩
      rw [Coalesced, List.isChain_append] at hxs ⊢
      refine ⟨hxs.1, ?_, fun a ha b hb => ?_⟩
      · cases ys with
        | nil => exact .singleton _
        | cons y ys =>
          rw [Coalesced, List.isChain_cons_cons] at hys
          exact .cons_cons hys.1 hys.2
      · cases hb
        exact hxs.2.2 a ha ⟨false, m⟩ rfl
    · refine ⟨_, .refl h, ?_⟩
      rw [← List.singleton_append, ← List.append_assoc, Coalesced, List.isChain_append]
      refine ⟨hxs, hys, fun a ha b hb => ?_⟩
      rw [List.getLast?_concat] at ha
      cases ha
      exact .inl rfl

/-- `plug_holes` joins a free block with its free neighbours. -/
theorem Tiled.plugHoles (h : s.Tiled (xs ++ ⟨false, n⟩ :: ys)) (hxs : Coalesced xs)
    (hys : Coalesced ys) :
    ∃ t cs, s.plugHoles (extent 12 xs) = some t ∧ s.Plugs t (xs ++ ⟨false, n⟩ :: ys) cs ∧
      Coalesced cs := by
  obtain ⟨n', ys', hforward, hco⟩ := h.plugForward hys
  obtain ⟨cs, hbackward, hco'⟩ := hforward.tiled.plugBackward hxs hco
  refine ⟨_, cs, ?_, hforward.trans hbackward, hco'⟩
  rw [SmallMem.plugHoles, if_pos]
  refine ⟨?_, ?_⟩
  · have := h.end_eq
    simp only at this
    omega
  · rw [h.header_eq]
    rfl

/-! ## The loops of `rt_malloc` -/

theorem Tiled.length_le (h : s.Tiled (xs ++ ys)) : ys.length ≤ s.memSizeAligned := by
  have hlen := length_le_extent (h := 12) fun c hc => (h.sized c hc).1
  have hend := h.extent_eq
  have hsize := h.heapEnd_eq
  rw [List.length_append] at hlen
  omega

theorem Tiled.append_cons (h : s.Tiled (xs ++ c :: ys)) : s.Tiled ((xs ++ [c]) ++ ys) := by
  rwa [List.append_assoc, List.singleton_append]

/-- The search finds the first block that suits. -/
theorem Tiled.findFit {size fuel : Nat} (h : s.Tiled (xs ++ ys)) (hsize : size ≤ s.memSizeAligned)
    (hfuel : ys.length < fuel) : s.findFit size fuel (extent 12 xs) =
      some (((place 12 (extent 12 xs) ys).find? (suits (s.memSizeAligned - size) size)).map
        Prod.fst) := by
  have hfits := h.fits
  have hendeq := h.heapEnd_eq
  have hlimit : sizeSub s.memSizeAligned size = s.memSizeAligned - size :=
    sizeSub_of_le hsize (by omega)
  induction ys generalizing xs fuel with
  | nil =>
    obtain ⟨fuel, rfl⟩ := Nat.exists_eq_succ_of_ne_zero (Nat.ne_of_gt hfuel)
    have hend := h.extent_eq
    rw [List.append_nil] at hend
    rw [SmallMem.findFit, hlimit, if_neg (by omega)]
    rfl
  | cons c ys ih =>
    obtain ⟨fuel, rfl⟩ := Nat.exists_eq_succ_of_ne_zero (Nat.ne_of_gt (Nat.zero_lt_of_lt hfuel))
    have hend := h.end_eq
    have hroom : sizeSub (extent 12 xs + 12 + c.size) (extent 12 xs + 12) = c.size := by
      rw [sizeSub_of_le (by omega) (by omega)]
      omega
    rw [SmallMem.findFit, hlimit, h.next_eq, h.header_eq, sizeofStructMem, hroom]
    by_cases hlt : extent 12 xs < s.memSizeAligned - size
    · rw [if_pos hlt, place_cons, List.find?_cons]
      by_cases hsuits : c.used = false ∧ size ≤ c.size
      · rw [if_pos (by simpa [cellHeader] using hsuits)]
        simp [suits, hlt, hsuits]
      · rw [if_neg (by simpa [cellHeader] using hsuits)]
        have hrest := ih h.append_cons (Nat.lt_of_succ_lt_succ hfuel)
        rw [extent_append, extent_cons, extent_nil, Nat.add_zero, ← Nat.add_assoc] at hrest
        have hno : suits (s.memSizeAligned - size) size (extent 12 xs, c) = false := by
          simpa [suits, hlt] using hsuits
        rw [hrest, hno]
    · rw [if_neg hlt, find?_suits_of_le (Nat.le_of_not_lt hlt)]
      rfl

/-- `lfree` moves to the next free block. -/
theorem Tiled.skipUsed {fuel : Nat} (h : s.Tiled (xs ++ ys)) (hfuel : ys.length < fuel) :
    s.skipUsed fuel (extent 12 xs) = some ((frees 12 (extent 12 xs) ys).head?.getD s.heapEnd) := by
  induction ys generalizing xs fuel with
  | nil =>
    obtain ⟨fuel, rfl⟩ := Nat.exists_eq_succ_of_ne_zero (Nat.ne_of_gt hfuel)
    have hend := h.extent_eq
    rw [List.append_nil] at hend
    rw [SmallMem.skipUsed, hend, if_neg (by simp)]
    rfl
  | cons c ys ih =>
    obtain ⟨fuel, rfl⟩ := Nat.exists_eq_succ_of_ne_zero (Nat.ne_of_gt (Nat.zero_lt_of_lt hfuel))
    have hend := h.end_eq
    have hheader := h.header_eq
    obtain ⟨_ | _, n⟩ := c
    · rw [SmallMem.skipUsed, hheader, if_neg (by simp [cellHeader])]
      rfl
    · have hrest := ih h.append_cons (Nat.lt_of_succ_lt_succ hfuel)
      rw [extent_append, extent_cons, extent_nil, Nat.add_zero, ← Nat.add_assoc] at hrest
      rw [SmallMem.skipUsed, if_pos]
      · rw [hheader]
        exact hrest
      · rw [hheader]
        exact ⟨Nat.one_ne_zero, by omega⟩

/-- The headers are those of the cells. -/
theorem Tiled.headers {fuel : Nat} (h : s.Tiled (xs ++ ys)) (hfuel : ys.length < fuel) :
    s.headers fuel (extent 12 xs) =
      (place 12 (extent 12 xs) ys).map fun x => (x.1, s.header x.1) := by
  induction ys generalizing xs fuel with
  | nil =>
    obtain ⟨fuel, rfl⟩ := Nat.exists_eq_succ_of_ne_zero (Nat.ne_of_gt hfuel)
    have hend := h.extent_eq
    rw [List.append_nil] at hend
    rw [SmallMem.headers, hend, if_neg (by simp)]
    rfl
  | cons c ys ih =>
    obtain ⟨fuel, rfl⟩ := Nat.exists_eq_succ_of_ne_zero (Nat.ne_of_gt (Nat.zero_lt_of_lt hfuel))
    have hend := h.end_eq
    have hrest := ih h.append_cons (Nat.lt_of_succ_lt_succ hfuel)
    rw [extent_append, extent_cons, extent_nil, Nat.add_zero, ← Nat.add_assoc] at hrest
    rw [SmallMem.headers, if_pos (by omega), h.next_eq, hrest]
    rfl

/-! ## `rt_malloc` -/

/-- The bytes that the used cells take. -/
def usedBytes (cs : List Cell) : Nat := spent 12 (blocks 12 0 cs)

/-- What all calls keep. -/
structure Sound (s : SmallMem) (cs : List Cell) : Prop where
  tiled : s.Tiled cs
  coalesced : Coalesced cs
  freeOrEnd : s.FreeOrEnd cs
  usedMem : s.usedMem = usedBytes cs
  large : 12 ≤ s.memSizeAligned

/-- The heap is one free block at first. -/
theorem sound_initHeap (mem : Nat → UInt8) {ptr size : Nat} (hptr : 4 ∣ ptr) (hsize : 4 ∣ size)
    (hlarge : 12 ≤ size) (hfits : ptr + size + 24 ≤ 0x100000000) :
    (initHeap mem ptr size).Sound [⟨false, size⟩] := by
  have hmagic : heapMagic < 0x10000 := by decide
  have hnext : size + 12 < 0x100000000 := by omega
  have hapart : size + 12 + 12 ≤ 0 ∨ 0 + 12 ≤ size + 12 := by omega
  have hfirst : (initHeap mem ptr size).header 0 = ⟨heapMagic, 0, size + 12, 0⟩ :=
    (header_setHeader_of_apart hapart).trans
      (header_setHeader ⟨hmagic, Nat.zero_lt_succ _, hnext, Nat.zero_lt_succ _⟩)
  have hlast : (initHeap mem ptr size).header (size + 12) =
      ⟨heapMagic, 1, size + 12, size + 12⟩ :=
    header_setHeader ⟨hmagic, Nat.one_lt_succ_succ _, hnext, hnext⟩
  have hspan : 0 + 12 + size = size + 12 := by omega
  refine ⟨⟨⟨?_, trivial⟩, ?_, ?_, ?_, ?_, rfl, ?_, hptr⟩, .singleton _, .inl ?_, rfl, hlarge⟩
  · rw [hfirst]
    simp only [cellHeader, hspan]
    rfl
  · change _ = size + 12
    simp only [extent_cons, extent_nil]
    omega
  · change ((initHeap mem ptr size).header (size + 12)).used = 1
    rw [hlast]
  · change ((initHeap mem ptr size).header (size + 12)).next = size + 12
    rw [hlast]
  · intro c hc
    rw [List.mem_singleton.mp hc]
    exact ⟨by simp only; omega, hsize⟩
  · change ptr + (size + 12) + 12 ≤ _
    omega
  · exact List.mem_singleton.mpr rfl

/-- No free block is before `lfree`. -/
def Lowest (s : SmallMem) (cs : List Cell) : Prop := ∀ q ∈ frees 12 0 cs, s.lfree ≤ q

/-- The size of the block that `rt_malloc(size)` looks for. -/
def demand (size : Nat) : Nat := dataSize (rtAlign size)

/-- The block that it takes: the first from `lfree` on. -/
def choice (s : SmallMem) (cs : List Cell) (size : Nat) : Option (Nat × Cell) :=
  (place 12 0 cs).find? fun x =>
    s.lfree ≤ x.1 && suits (s.memSizeAligned - demand size) (demand size) x

/-- A cell of `m` bytes in the place of a free one, with the cells `zs` of what is left. -/
structure Occupies (s t : SmallMem) (xs ys : List Cell) (m : Nat) (zs : List Cell) : Prop where
  tiled : t.Tiled (xs ++ ⟨true, m⟩ :: (zs ++ ys))
  keeps : s.Keeps t (blocks 12 0 (xs ++ ⟨true, m⟩ :: (zs ++ ys)))
  rest : zs = [] ∨ ∃ k, zs = [⟨false, k⟩]
  lfree : t.lfree = s.lfree
  usedMem : t.usedMem = s.usedMem + (12 + m)

theorem Tiled.count (h : s.Tiled cs) (n : Nat) : (s.count n).Tiled cs :=
  h.of_mem ⟨rfl, rfl, rfl, nofun⟩ rfl

theorem keeps_count (s : SmallMem) (n : Nat) (bs : List (Nat × Nat)) : s.Keeps (s.count n) bs :=
  ⟨rfl, rfl, rfl, fun _ _ _ _ => rfl⟩

theorem Tiled.occupy {size : Nat} (h : s.Tiled (xs ++ ⟨false, n⟩ :: ys)) (hsize : size ≤ n)
    (hpos : 0 < size ∧ 4 ∣ size) :
    ∃ m zs, s.Occupies (s.occupy (extent 12 xs) size) xs ys m zs ∧
      size ≤ m ∧ m < size + 24 := by
  have hnext := h.next_eq
  have hend := h.end_eq
  have hfits := h.fits
  simp only at hnext hend
  have hroom : sizeSub (s.header (extent 12 xs)).next (extent 12 xs + 12) = n := by
    rw [hnext, sizeSub_of_le (by omega) (by omega)]
    omega
  have hspan : sizeSub (s.header (extent 12 xs)).next (extent 12 xs) = 12 + n := by
    rw [hnext, sizeSub_of_le (by omega) (by omega)]
    omega
  simp only [SmallMem.occupy, sizeofStructMem, minSizeAligned, hroom, hspan]
  by_cases hsplit : n ≥ size + 12 + 12
  · rw [if_pos hsplit]
    have hroom : size + 12 < n := by omega
    have htiled := (h.insertFree true hroom hpos).count (size + 12)
    have hkeeps := h.keeps_insertFree true hroom
    refine ⟨size, [⟨false, n - (size + 12)⟩], ⟨?_, ?_, .inr ⟨_, rfl⟩, ?_, ?_⟩, Nat.le_refl _,
      Nat.lt_add_of_pos_right (by decide)⟩
    · exact htiled.update_used true fun prev => rfl
    · exact (hkeeps.trans (keeps_count _ _ _)).trans (keeps_update_cell _ _ _ _)
    · exact lfree_insertFree s _ _ _
    · change (s.insertFree _ _ _).usedMem + (size + 12) = _
      rw [usedMem_insertFree, Nat.add_comm size]
  · rw [if_neg hsplit]
    have hused := h.update_used (f := fun m => { m with used := 1 }) true fun prev => rfl
    have htiled := hused.count (12 + n)
    refine ⟨n, [], ⟨?_, ?_, .inl rfl, rfl, rfl⟩, hsize, Nat.lt_of_not_le hsplit⟩
    · exact htiled.update_used true fun prev => rfl
    · exact ((keeps_update_cell s _ _ _).trans (keeps_count _ _ _)).trans
        (keeps_update_cell _ _ _ _)

theorem Tiled.header_of_place {q : Nat} (h : s.Tiled cs) (hq : (q, c) ∈ place 12 0 cs) :
    ∃ prev, s.header q = cellHeader c q prev := by
  obtain ⟨xs, ys, rfl, rfl⟩ := mem_place.mp hq
  rw [Nat.zero_add]
  exact ⟨_, h.header_eq⟩

theorem Tiled.used_of_mem_frees {q : Nat} (h : s.Tiled cs) (hq : q ∈ frees 12 0 cs) :
    (s.header q).used = 0 := by
  obtain ⟨n, hmem⟩ := mem_frees.mp hq
  obtain ⟨prev, hheader⟩ := h.header_of_place hmem
  rw [hheader]
  rfl

theorem Tiled.moveLfree (h : s.Tiled (xs ++ ys)) : s.moveLfree (extent 12 xs) =
    some { s with lfree := if extent 12 xs = s.lfree then
      (frees 12 (extent 12 xs) ys).head?.getD s.heapEnd else s.lfree } := by
  rw [SmallMem.moveLfree]
  split
  · rename_i heq
    rw [← heq, h.skipUsed (Nat.lt_succ_of_le h.length_le), Option.bind_some, if_pos]
    cases hhead : (frees 12 (extent 12 xs) ys).head? with
    | none => exact .inl rfl
    | some q =>
      have hmem : q ∈ frees 12 0 (xs ++ ys) := by
        rw [frees_append, Nat.zero_add]
        exact List.mem_append_right _ (List.mem_of_head? hhead)
      exact .inr (h.used_of_mem_frees hmem)
  · rfl

/-- What `rt_malloc` does to a heap in which `cs` was in the place of `cs'`: a block of `m` bytes at
`a` comes between the others. -/
structure Allocates (s t : SmallMem) (cs cs' : List Cell) (a m : Nat) : Prop where
  sound : t.Sound cs'
  keeps : s.Keeps t (blocks 12 0 cs')
  blocks_eq : ∃ bs bs', blocks 12 0 cs = bs ++ bs' ∧ blocks 12 0 cs' = bs ++ (a, m) :: bs'
  lowest : s.Lowest cs → t.Lowest cs'

theorem Allocates.mem {cs' : List Cell} {a : Nat} (h : s.Allocates t cs cs' a m) :
    (a, m) ∈ blocks 12 0 cs' := by
  obtain ⟨bs, bs', -, hblocks⟩ := h.blocks_eq
  rw [hblocks]
  exact List.mem_append_right _ List.mem_cons_self

theorem Allocates.mem_of_mem {cs' : List Cell} {a : Nat} {b : Nat × Nat}
    (h : s.Allocates t cs cs' a m) (hb : b ∈ blocks 12 0 cs) : b ∈ blocks 12 0 cs' := by
  obtain ⟨bs, bs', hold, hblocks⟩ := h.blocks_eq
  rw [hold] at hb
  rw [hblocks]
  simp only [List.mem_append, List.mem_cons] at hb ⊢
  exact hb.imp_right .inr

theorem Occupies.extent_eq {zs : List Cell} (h : s.Occupies t xs ys m zs)
    (hs : s.Tiled (xs ++ ⟨false, n⟩ :: ys)) : m + extent 12 zs = n := by
  have hnew := h.tiled.extent_eq
  have hold := hs.extent_eq
  rw [h.keeps.heapEnd] at hnew
  simp only [extent_append, extent_cons] at hnew hold
  omega

theorem Occupies.blocks_eq {zs : List Cell} (h : s.Occupies t xs ys m zs)
    (hs : s.Tiled (xs ++ ⟨false, n⟩ :: ys)) :
    blocks 12 0 (xs ++ ⟨true, m⟩ :: (zs ++ ys)) =
      blocks 12 0 xs ++ (extent 12 xs + 12, m) :: blocks 12 (extent 12 xs + 12 + n) ys := by
  have hextent := h.extent_eq hs
  rw [blocks_append, blocks_used, Nat.zero_add]
  rcases h.rest with rfl | ⟨k, rfl⟩
  · rw [extent_nil, Nat.add_zero] at hextent
    rw [List.nil_append, hextent]
  · simp only [extent_cons, extent_nil] at hextent
    have hbehind : extent 12 xs + 12 + m + 12 + k = extent 12 xs + 12 + n := by omega
    rw [List.singleton_append, blocks_free, hbehind]

theorem Occupies.frees_eq {zs : List Cell} (h : s.Occupies t xs ys m zs)
    (hs : s.Tiled (xs ++ ⟨false, n⟩ :: ys)) :
    ∃ qs, (∀ q ∈ qs, extent 12 xs ≤ q) ∧ frees 12 0 (xs ++ ⟨true, m⟩ :: (zs ++ ys)) =
      frees 12 0 xs ++ (qs ++ frees 12 (extent 12 xs + 12 + n) ys) := by
  have hextent := h.extent_eq hs
  rw [frees_append, frees_used, Nat.zero_add]
  rcases h.rest with rfl | ⟨k, rfl⟩
  · rw [extent_nil, Nat.add_zero] at hextent
    rw [List.nil_append, hextent]
    exact ⟨[], nofun, rfl⟩
  · simp only [extent_cons, extent_nil] at hextent
    have hbehind : extent 12 xs + 12 + m + 12 + k = extent 12 xs + 12 + n := by omega
    refine ⟨[extent 12 xs + 12 + m], fun q hq => ?_, ?_⟩
    · rw [List.mem_singleton.mp hq]
      omega
    · rw [List.singleton_append, frees_free, hbehind, List.singleton_append]

theorem Occupies.coalesced {zs : List Cell} (h : s.Occupies t xs ys m zs)
    (hs : Coalesced (xs ++ ⟨false, n⟩ :: ys)) : Coalesced (xs ++ ⟨true, m⟩ :: (zs ++ ys)) := by
  obtain ⟨hxs, hys⟩ := hs.append_cons
  refine hxs.append_used ?_ m
  rcases h.rest with rfl | ⟨k, rfl⟩
  · exact hys.tail
  · exact hys.resize k

theorem Tiled.mem_frees_split {q : Nat} (hq : q ∈ frees 12 0 cs) :
    ∃ xs n ys, cs = xs ++ ⟨false, n⟩ :: ys ∧ q = extent 12 xs := by
  obtain ⟨n, hmem⟩ := mem_frees.mp hq
  obtain ⟨xs, ys, rfl, hat⟩ := mem_place.mp hmem
  exact ⟨xs, n, ys, rfl, by rw [hat, Nat.zero_add]⟩

/-- `lfree` is where some of the cells begin. -/
theorem Sound.lfree_split (h : s.Sound cs) : ∃ xs ys, cs = xs ++ ys ∧ s.lfree = extent 12 xs := by
  rcases h.freeOrEnd with hmem | hend
  · obtain ⟨xs, n, ys, hcs, hq⟩ := Tiled.mem_frees_split hmem
    exact ⟨xs, _, hcs, hq⟩
  · exact ⟨cs, [], (List.append_nil cs).symm, by rw [hend, h.tiled.extent_eq]⟩

theorem demand_pos (size : Nat) : 0 < demand size ∧ 4 ∣ demand size := by
  rw [demand, dataSize, minSizeAligned]
  split
  · exact ⟨by decide, by decide⟩
  · exact ⟨by omega, rtAlign_dvd size⟩

theorem rtAlign_le_demand (size : Nat) : rtAlign size ≤ demand size := by
  rw [demand, dataSize, minSizeAligned]
  split <;> omega

theorem le_demand {size : Nat} (h : size ≤ 0xfffffffc) : size ≤ demand size :=
  Nat.le_trans (rtAlign_of_le h).1 (rtAlign_le_demand size)

/-- The search of `rt_malloc` chooses as `choice` says. -/
theorem Sound.findFit {size : Nat} (h : s.Sound cs) (hsize : demand size ≤ s.memSizeAligned) :
    s.findFit (demand size) (s.memSizeAligned + 1) s.lfree =
      some ((s.choice cs size).map Prod.fst) := by
  obtain ⟨xs, ys, rfl, hlfree⟩ := h.lfree_split
  rw [choice, find?_suits_from (by decide) (by rw [Nat.zero_add, hlfree]), hlfree]
  exact h.tiled.findFit hsize (Nat.lt_succ_of_le h.tiled.length_le)

theorem Sound.choice_eq_none {size : Nat} (hsize : s.memSizeAligned < demand size) :
    s.choice cs size = none := by
  rw [choice, List.find?_eq_none]
  intro x _
  simp only [suits, Bool.and_eq_true, decide_eq_true_eq]
  omega

theorem Sound.rtMalloc_eq {size : Nat} (h : s.Sound cs) (hsize : size ≠ 0) :
    s.rtMalloc size = match s.choice cs size with
      | none => some (none, s)
      | some x => s.takeBlock x.1 (demand size) := by
  have hlarge := h.large
  rw [SmallMem.rtMalloc, if_neg hsize]
  by_cases hbig : rtAlign size > s.memSizeAligned
  · have hdemand : s.memSizeAligned < demand size := by
      rw [demand, dataSize, minSizeAligned]
      split <;> omega
    rw [if_pos hbig, Sound.choice_eq_none hdemand]
  · have hdemand : demand size ≤ s.memSizeAligned := by
      rw [demand, dataSize, minSizeAligned]
      split <;> omega
    rw [if_neg hbig, ← demand, h.findFit hdemand]
    cases s.choice cs size with
    | none => rfl
    | some x => rfl

theorem Tiled.dvd_extent (h : s.Tiled (xs ++ ys)) : 4 ∣ extent 12 xs :=
  Tiling.dvd_extent (by decide) fun c hc => (h.sized c (List.mem_append_left _ hc)).2

theorem Tiled.dvd_block {b : Nat × Nat} (h : s.Tiled cs) (hb : b ∈ blocks 12 0 cs) : 4 ∣ b.1 := by
  obtain ⟨q, hmem, hq⟩ := mem_blocks.mp hb
  obtain ⟨xs, ys, rfl, hat⟩ := mem_place.mp hmem
  have hdvd := h.dvd_extent
  omega

/-- The heap after the block was occupied and `lfree` moved on. -/
theorem Occupies.allocates {zs : List Cell} {q : Nat} (h : s.Occupies t xs ys m zs)
    (hs : s.Sound (xs ++ ⟨false, n⟩ :: ys)) (hq : q = if extent 12 xs = t.lfree then
      (frees 12 (extent 12 xs) (⟨true, m⟩ :: (zs ++ ys))).head?.getD t.heapEnd else t.lfree) :
    s.Allocates { t with lfree := q } (xs ++ ⟨false, n⟩ :: ys) (xs ++ ⟨true, m⟩ :: (zs ++ ys))
      (extent 12 xs + 12) m := by
  have hblocks : blocks 12 0 (xs ++ ⟨false, n⟩ :: ys) =
      blocks 12 0 xs ++ blocks 12 (extent 12 xs + 12 + n) ys := by
    rw [blocks_append, blocks_free, Nat.zero_add]
  have hfrees : frees 12 0 (xs ++ ⟨false, n⟩ :: ys) =
      frees 12 0 xs ++ extent 12 xs :: frees 12 (extent 12 xs + 12 + n) ys := by
    rw [frees_append, frees_free, Nat.zero_add]
  have hfrees' : frees 12 0 (xs ++ ⟨true, m⟩ :: (zs ++ ys)) =
      frees 12 0 xs ++ frees 12 (extent 12 xs) (⟨true, m⟩ :: (zs ++ ys)) := by
    rw [frees_append, Nat.zero_add]
  obtain ⟨qs, hqs, hsplit⟩ := h.frees_eq hs.tiled
  have hblocks' := h.blocks_eq hs.tiled
  rw [h.lfree] at hq
  refine ⟨⟨h.tiled.of_mem (keeps_lfree t q []) rfl, h.coalesced hs.coalesced, ?_, ?_, ?_⟩,
    h.keeps.trans (keeps_lfree t q _), ⟨_, _, hblocks, hblocks'⟩, fun hlow r hr => ?_⟩
  · have hfree := hs.freeOrEnd
    rw [FreeOrEnd, hfrees] at hfree
    change q ∈ _ ∨ q = t.heapEnd
    by_cases hat : extent 12 xs = s.lfree
    · rw [if_pos hat] at hq
      cases hhead : (frees 12 (extent 12 xs) (⟨true, m⟩ :: (zs ++ ys))).head? with
      | none =>
        rw [hhead] at hq
        exact .inr hq
      | some r =>
        rw [hhead] at hq
        rw [hq, hfrees']
        exact .inl (List.mem_append_right _ (List.mem_of_head? hhead))
    · rw [if_neg hat] at hq
      rw [hq, hsplit, h.keeps.heapEnd]
      simp only [List.mem_append, List.mem_cons] at hfree ⊢
      rcases hfree with (hmem | heq | hmem) | hend
      · exact .inl (.inl hmem)
      · exact absurd heq.symm hat
      · exact .inl (.inr (.inr hmem))
      · exact .inr hend
  · change t.usedMem = _
    rw [h.usedMem, hs.usedMem, usedBytes, usedBytes, hblocks, hblocks']
    simp only [spent_append, spent]
    omega
  · change 12 ≤ t.memSizeAligned
    rw [h.keeps.memSizeAligned]
    exact hs.large
  · change q ≤ r
    rw [hq]
    by_cases hat : extent 12 xs = s.lfree
    · rw [if_pos hat]
      rw [hfrees'] at hr
      rcases List.mem_append.mp hr with hr | hr
      · have hbound := (frees_bounds hr).2
        have hle := hlow r (by rw [hfrees]; exact List.mem_append_left _ hr)
        omega
      · obtain ⟨r', hhead, hle⟩ := head_frees_le hr
        rw [hhead]
        exact hle
    · rw [if_neg hat]
      rw [hsplit] at hr
      have hle := hlow (extent 12 xs) (by rw [hfrees]; simp)
      rcases List.mem_append.mp hr with hr | hr
      · exact hlow r (by rw [hfrees]; exact List.mem_append_left _ hr)
      · rcases List.mem_append.mp hr with hr | hr
        · exact Nat.le_trans hle (hqs r hr)
        · exact hlow r (by rw [hfrees]; exact List.mem_append_right _ (List.mem_cons_of_mem _ hr))

theorem takeBlock_eq {size : Nat} {bs : List (Nat × Nat)}
    (hmove : (s.occupy p size).moveLfree p = some t) (hkeeps : s.Keeps t bs)
    (hend : p + 12 + size ≤ s.heapEnd) (hdata : (s.heapPtr + p + 12) % 4 = 0)
    (hptr : (s.heapPtr + p) % 4 = 0) :
    s.takeBlock p size = some (some (s.heapPtr + p + 12), t) := by
  rw [SmallMem.takeBlock, hmove, Option.bind_some]
  simp only [hkeeps.heapPtr, hkeeps.heapEnd, sizeofStructMem]
  rw [if_pos ⟨hend, hdata, hptr⟩]

theorem Sound.takeBlock {size q : Nat} (h : s.Sound cs) (hchoice : s.choice cs size = some (q, c)) :
    ∃ t m cs', s.takeBlock q (demand size) = some (some (s.heapPtr + q + 12), t) ∧
      s.Allocates t cs cs' (q + 12) m ∧ demand size ≤ m ∧ m < demand size + 24 := by
  have hmem := List.mem_of_find?_eq_some hchoice
  have hsuits := List.find?_some hchoice
  obtain ⟨xs, ys, rfl, hq⟩ := mem_place.mp hmem
  obtain ⟨used, n⟩ := c
  rw [Nat.zero_add] at hq
  subst hq
  simp only [suits, Bool.and_eq_true, decide_eq_true_eq, Bool.not_eq_true'] at hsuits
  obtain ⟨-, -, rfl, hsize⟩ := hsuits
  obtain ⟨m, zs, hocc, hm⟩ := h.tiled.occupy hsize (demand_pos size)
  have hend := h.tiled.end_eq
  have haligned := h.tiled.aligned
  have hdvd := h.tiled.dvd_extent
  simp only at hend
  have hmove := hocc.tiled.moveLfree
  have hallocates := hocc.allocates h rfl
  exact ⟨_, m, _, takeBlock_eq hmove hallocates.keeps (by omega) (by omega) (by omega),
    hallocates, hm⟩

/-- `rt_malloc` returns `RT_NULL` if there is nothing to choose, and otherwise the block that is
chosen. -/
theorem Sound.rtMalloc (h : s.Sound cs) (size : Nat) :
    s.rtMalloc size = some (none, s) ∧ (size = 0 ∨ s.choice cs size = none) ∨
      ∃ q c t m cs', s.choice cs size = some (q, c) ∧
        s.rtMalloc size = some (some (s.heapPtr + q + 12), t) ∧
        s.Allocates t cs cs' (q + 12) m ∧ demand size ≤ m ∧ m < demand size + 24 := by
  by_cases hsize : size = 0
  · left
    rw [SmallMem.rtMalloc, if_pos hsize]
    exact ⟨rfl, .inl hsize⟩
  · rw [h.rtMalloc_eq hsize]
    cases hchoice : s.choice cs size with
    | none => exact .inl ⟨rfl, .inr rfl⟩
    | some x =>
      obtain ⟨t, m, cs', htake, hallocates, hm⟩ := h.takeBlock hchoice
      exact .inr ⟨x.1, x.2, t, m, cs', rfl, htake, hallocates, hm⟩

/-! ## `rt_free` -/

/-- What `rt_free` does to a heap: a block of `m` bytes at `a` is gone from between the others. -/
structure Releases (s t : SmallMem) (cs cs' : List Cell) (a m : Nat) : Prop where
  sound : t.Sound cs'
  lfree_lt : t.lfree < t.heapEnd
  keeps : s.Keeps t (blocks 12 0 cs')
  blocks_eq : ∃ bs bs', blocks 12 0 cs = bs ++ (a, m) :: bs' ∧ blocks 12 0 cs' = bs ++ bs'
  lowest : s.Lowest cs → t.Lowest cs'

theorem Sound.usedMem_lt (h : s.Sound cs) : s.usedMem < 0x100000000 := by
  have hsum : spent 12 (blocks 12 0 cs) ≤ extent 12 cs := spent_blocks_le
  have hfits := h.tiled.fits
  rw [h.tiled.extent_eq] at hsum
  rw [h.usedMem, usedBytes]
  omega

/-- A block of `m` bytes at `p` is unused. -/
def unused (s : SmallMem) (p m : Nat) : SmallMem :=
  let s := s.update p fun m => { m with used := 0, magic := heapMagic }
  { s with
    lfree := if p < s.lfree then p else s.lfree
    usedMem := s.usedMem - (12 + m) }

theorem Tiled.unused (h : s.Tiled (xs ++ ⟨true, m⟩ :: ys)) :
    (s.unused (extent 12 xs) m).Tiled (xs ++ ⟨false, m⟩ :: ys) :=
  (h.update_used (f := fun m => { m with used := 0, magic := heapMagic }) false
    fun _ => rfl).of_mem ⟨rfl, rfl, rfl, nofun⟩ rfl

theorem keeps_unused (s : SmallMem) (xs : List Cell) (m : Nat) (ys : List Cell) :
    s.Keeps (s.unused (extent 12 xs) m) (blocks 12 0 (xs ++ ys)) :=
  (keeps_update_cell s xs ys fun m => { m with used := 0, magic := heapMagic }).trans
    ⟨rfl, rfl, rfl, fun _ _ _ _ => rfl⟩

theorem markUnused_eq (hnext : (s.header p).next = p + 12 + m) (hused : 12 + m ≤ s.usedMem)
    (hlt : s.usedMem < 0x100000000) (hsize : p + 12 + m < 0x100000000) :
    s.markUnused p = s.unused p m := by
  have hfits := header_fits s p
  have hheader : ((s.update p fun m => { m with used := 0, magic := heapMagic }).header p).next =
      p + 12 + m := by
    rw [header_update]
    · exact hnext
    · exact ⟨(by decide : heapMagic < 0x10000), (by decide : 0 < 0x10000), hfits.next, hfits.prev⟩
  have hspan : sizeSub (p + 12 + m) p = 12 + m := by
    rw [sizeSub_of_le (by omega) hsize]
    omega
  have hsub : sizeSub s.usedMem (12 + m) = s.usedMem - (12 + m) := sizeSub_of_le hused hlt
  simp only [markUnused, unused, hheader, usedMem_update, hspan, hsub]

theorem Sound.rtFree_eq (h : s.Sound (xs ++ ⟨true, m⟩ :: ys)) :
    s.rtFree (s.heapPtr + (extent 12 xs + 12)) =
      (s.unused (extent 12 xs) m).plugHoles (extent 12 xs) := by
  have hheader := h.tiled.header_eq
  have hend := h.tiled.end_eq
  have haligned := h.tiled.aligned
  have hdvd := h.tiled.dvd_extent
  have hfits := h.tiled.fits
  have hused := h.usedMem_lt
  have hsized := (h.tiled.sized ⟨true, m⟩ (by simp)).1
  have hcount : 12 + m ≤ s.usedMem := by
    rw [h.usedMem, usedBytes, blocks_append, blocks_used, spent_append, spent]
    simp only
    omega
  simp only at hend hsized
  have hsub : s.heapPtr + (extent 12 xs + 12) - s.heapPtr - 12 = extent 12 xs := by omega
  have hmark := markUnused_eq h.tiled.next_eq hcount hused (by simp only; omega)
  have hok : (s.header (extent 12 xs)).used ≠ 0 ∧ (s.header (extent 12 xs)).magic = heapMagic := by
    rw [hheader]
    exact ⟨Nat.one_ne_zero, rfl⟩
  rw [SmallMem.rtFree, if_neg (by omega), if_pos (by rw [sizeofStructMem]; omega)]
  simp only [sizeofStructMem, hsub]
  rw [if_pos hok, hmark]

/-- `rt_free` gives a block back. -/
theorem Sound.rtFree {a : Nat} (h : s.Sound cs) (ha : (a, m) ∈ blocks 12 0 cs) :
    ∃ t cs', s.rtFree (s.heapPtr + a) = some t ∧ s.Releases t cs cs' a m := by
  obtain ⟨q, hmem, hq⟩ := mem_blocks.mp ha
  obtain ⟨xs, ys, rfl, hat⟩ := mem_place.mp hmem
  simp only at hq
  rw [Nat.zero_add] at hat
  rw [hq, hat, h.rtFree_eq]
  have hco := h.coalesced.append_cons
  obtain ⟨t, cs', hplug, hplugs, hco'⟩ := h.tiled.unused.plugHoles hco.1 hco.2.tail
  have hblocks : blocks 12 0 (xs ++ ⟨true, m⟩ :: ys) =
      blocks 12 0 xs ++ (extent 12 xs + 12, m) :: blocks 12 (extent 12 xs + 12 + m) ys := by
    rw [blocks_append, blocks_used, Nat.zero_add]
  have hblocks' : blocks 12 0 (xs ++ ⟨false, m⟩ :: ys) =
      blocks 12 0 xs ++ blocks 12 (extent 12 xs + 12 + m) ys := by
    rw [blocks_append, blocks_free, Nat.zero_add]
  have hfrees : frees 12 0 (xs ++ ⟨true, m⟩ :: ys) =
      frees 12 0 xs ++ frees 12 (extent 12 xs + 12 + m) ys := by
    rw [frees_append, frees_used, Nat.zero_add]
  have hfrees' : frees 12 0 (xs ++ ⟨false, m⟩ :: ys) =
      frees 12 0 xs ++ extent 12 xs :: frees 12 (extent 12 xs + 12 + m) ys := by
    rw [frees_append, frees_free, Nat.zero_add]
  have hlfree : (s.unused (extent 12 xs) m).lfree =
      if extent 12 xs < s.lfree then extent 12 xs else s.lfree := rfl
  refine ⟨t, cs', hplug, ⟨hplugs.tiled, hco', hplugs.freeOrEnd ?_, ?_, ?_⟩, ?_, ?_, ?_,
    fun hlow r hr => ?_⟩
  · have hfree := h.freeOrEnd
    rw [FreeOrEnd, hfrees] at hfree
    rw [FreeOrEnd, hfrees', hlfree]
    split
    · exact .inl (by simp)
    · rcases hfree with hmem | hend
      · refine .inl ?_
        simp only [List.mem_append, List.mem_cons] at hmem ⊢
        exact hmem.imp_right .inr
      · exact .inr hend
  · have husedMem : t.usedMem = s.usedMem - (12 + m) := hplugs.usedMem
    rw [husedMem, h.usedMem, usedBytes, usedBytes, hplugs.blocks_eq, hblocks, hblocks']
    simp only [spent_append, spent]
    omega
  · rw [hplugs.keeps.memSizeAligned]
    exact h.large
  · have hle := hplugs.lfree_le
    have hend := h.tiled.end_eq
    rw [hplugs.keeps.heapEnd]
    change t.lfree < s.heapEnd
    rw [hlfree] at hle
    simp only at hend
    split at hle <;> omega
  · rw [hplugs.blocks_eq]
    exact (keeps_unused s xs m _).trans hplugs.keeps
  · rw [hplugs.blocks_eq, hblocks']
    exact ⟨_, _, hblocks, rfl⟩
  · refine Nat.le_trans hplugs.lfree_le ?_
    have hr' := hplugs.frees_subset hr
    rw [hfrees'] at hr'
    rw [hlfree]
    have hle (hr : r ∈ frees 12 0 (xs ++ ⟨true, m⟩ :: ys)) :
        (if extent 12 xs < s.lfree then extent 12 xs else s.lfree) ≤ r := by
      have := hlow r hr
      split <;> omega
    rw [hfrees] at hle
    rcases List.mem_append.mp hr' with hr' | hr'
    · exact hle (List.mem_append_left _ hr')
    · rcases List.mem_cons.mp hr' with rfl | hr'
      · split <;> omega
      · exact hle (List.mem_append_right _ hr')

/-! ## Stores into a block -/

theorem header_store {bytes : List UInt8} {a q : Nat} (h : q + 12 ≤ a ∨ a + bytes.length ≤ q) :
    (s.store (s.heapPtr + a) bytes).header q = s.header q :=
  header_congr rfl fun i hi => by
    rcases h with h | h
    · exact Memory.write_of_lt (by omega)
    · exact Memory.write_of_ge (by omega)

/-- Whoever owns a block may store into it. -/
theorem Sound.store {a i : Nat} {bytes : List UInt8} (h : s.Sound cs) (ha : (a, m) ∈ blocks 12 0 cs)
    (hbytes : i + bytes.length ≤ m) : (s.store (s.heapPtr + (a + i)) bytes).Sound cs := by
  have hbounds := blocks_bounds ha
  have hend := h.tiled.extent_eq
  simp only at hbounds
  have hheader : (s.store (s.heapPtr + (a + i)) bytes).header s.heapEnd = s.header s.heapEnd :=
    header_store (by omega)
  exact
    { tiled :=
        { h.tiled with
          segment := h.tiled.segment.congr_place fun x hx => header_store (by
            have := blocks_apart ha hx
            simp only at this
            omega)
          end_used := hheader ▸ h.tiled.end_used
          end_next := hheader ▸ h.tiled.end_next }
      coalesced := h.coalesced
      freeOrEnd := h.freeOrEnd
      usedMem := h.usedMem
      large := h.large }

/-! ## `rt_realloc` -/

/-- What `rt_realloc` does to a heap when a block of `n` bytes at `a` keeps `m` of them. The rest
is a free block; `lfree` stays the lowest one if what is behind was free, or if `lfree` is before. -/
structure Shrinks (s t : SmallMem) (cs cs' : List Cell) (a n m : Nat) : Prop where
  sound : t.Sound cs'
  keeps : s.Keeps t (blocks 12 0 cs')
  blocks_eq : ∃ bs bs', blocks 12 0 cs = bs ++ (a, n) :: bs' ∧ blocks 12 0 cs' = bs ++ (a, m) :: bs'
  lowest : s.Lowest cs → (t.Lowest cs' ↔ a + n ∈ frees 12 0 cs ∨ s.lfree < a)

theorem Shrinks.mem {cs' : List Cell} {a : Nat} (h : s.Shrinks t cs cs' a n m) :
    (a, m) ∈ blocks 12 0 cs' := by
  obtain ⟨bs, bs', -, hblocks⟩ := h.blocks_eq
  rw [hblocks]
  exact List.mem_append_right _ List.mem_cons_self

/-- A free block behind a used one is joined with what follows only. -/
theorem Tiled.plugHoles_behind {k : Nat} (h : s.Tiled (xs ++ ⟨true, m⟩ :: ⟨false, k⟩ :: ys)) :
    s.plugHoles (extent 12 xs + 12 + m) = some (match ys with
      | ⟨false, _⟩ :: _ => s.plug (extent 12 xs + 12 + m) (extent 12 xs + 12 + m + 12 + k)
      | _ => s) := by
  have hsplit : xs ++ ⟨true, m⟩ :: ⟨false, k⟩ :: ys = (xs ++ [⟨true, m⟩]) ++ ⟨false, k⟩ :: ys := by
    simp
  have hat : extent 12 (xs ++ [⟨true, m⟩]) = extent 12 xs + 12 + m := by
    simp [Nat.add_assoc]
  have hback := h.plugBackward_concat
  have hbehind := h
  rw [hsplit] at hbehind
  have hforward := hbehind.plugForward_eq
  have hend := hbehind.end_eq
  have hheader := hbehind.header_eq
  rw [hat] at hforward hend hheader
  have hfree : extent 12 xs + 12 + m < s.heapEnd ∧
      (s.header (extent 12 xs + 12 + m)).used = 0 := by
    refine ⟨by simp only at hend; omega, ?_⟩
    rw [hheader]
    rfl
  rw [SmallMem.plugHoles, if_pos hfree, hforward]
  match ys with
  | [] => exact congrArg some hback
  | ⟨true, _⟩ :: _ => exact congrArg some hback
  | ⟨false, j⟩ :: ys =>
    have hplug := hbehind.plug.tiled
    rw [hat, List.append_assoc, List.singleton_append] at hplug
    exact congrArg some hplug.plugBackward_concat

/-- A block of which `m` bytes are kept, before `plug_holes`. -/
def cut (s : SmallMem) (p n m : Nat) : SmallMem :=
  SmallMem.insertFree { s with usedMem := s.usedMem - (n - m) } p (p + 12 + m) 1

theorem Sound.tiled_cut (h : s.Sound (xs ++ ⟨true, n⟩ :: ys)) (hm : 0 < m ∧ 4 ∣ m)
    (hroom : m + 12 < n) : (s.cut (extent 12 xs) n m).Tiled
      (xs ++ ⟨true, m⟩ :: ⟨false, n - (m + 12)⟩ :: ys) ∧
    s.Keeps (s.cut (extent 12 xs) n m)
      (blocks 12 0 (xs ++ ⟨true, m⟩ :: ⟨false, n - (m + 12)⟩ :: ys)) := by
  have hmoved : Tiled { s with usedMem := s.usedMem - (n - m) } (xs ++ ⟨true, n⟩ :: ys) :=
    h.tiled.of_mem ⟨rfl, rfl, rfl, nofun⟩ rfl
  have hkeeps := hmoved.keeps_insertFree true hroom
  exact ⟨hmoved.insertFree true hroom hm, hkeeps.heapPtr, hkeeps.heapEnd, hkeeps.memSizeAligned,
    hkeeps.mem⟩

theorem frees_cut (hroom : m + 12 < n) :
    frees 12 0 (xs ++ ⟨true, m⟩ :: ⟨false, n - (m + 12)⟩ :: ys) =
      frees 12 0 xs ++ (extent 12 xs + 12 + m) :: frees 12 (extent 12 xs + 12 + n) ys := by
  have hbehind : extent 12 xs + 12 + m + 12 + (n - (m + 12)) = extent 12 xs + 12 + n := by omega
  rw [frees_append, frees_used, frees_free, Nat.zero_add, hbehind]

theorem blocks_cut (hroom : m + 12 < n) :
    blocks 12 0 (xs ++ ⟨true, m⟩ :: ⟨false, n - (m + 12)⟩ :: ys) =
      blocks 12 0 xs ++ (extent 12 xs + 12, m) :: blocks 12 (extent 12 xs + 12 + n) ys := by
  have hbehind : extent 12 xs + 12 + m + 12 + (n - (m + 12)) = extent 12 xs + 12 + n := by omega
  rw [blocks_append, blocks_used, blocks_free, Nat.zero_add, hbehind]

/-- What follows for the heap from the cells being joined. -/
theorem Sound.shrinks {cs' : List Cell} (h : s.Sound (xs ++ ⟨true, n⟩ :: ys)) (hm : 0 < m ∧ 4 ∣ m)
    (hroom : m + 12 < n) (hplugs : (s.cut (extent 12 xs) n m).Plugs t
      (xs ++ ⟨true, m⟩ :: ⟨false, n - (m + 12)⟩ :: ys) cs') (hco : Coalesced cs')
    (hlow : s.Lowest (xs ++ ⟨true, n⟩ :: ys) → (t.Lowest cs' ↔
      extent 12 xs + 12 + n ∈ frees 12 0 (xs ++ ⟨true, n⟩ :: ys) ∨ s.lfree < extent 12 xs + 12)) :
    s.Shrinks t (xs ++ ⟨true, n⟩ :: ys) cs' (extent 12 xs + 12) n m := by
  obtain ⟨htiled, hkeeps⟩ := h.tiled_cut hm hroom
  have hblocks : blocks 12 0 (xs ++ ⟨true, n⟩ :: ys) =
      blocks 12 0 xs ++ (extent 12 xs + 12, n) :: blocks 12 (extent 12 xs + 12 + n) ys := by
    rw [blocks_append, blocks_used, Nat.zero_add]
  refine ⟨⟨hplugs.tiled, hco, hplugs.freeOrEnd ?_, ?_, ?_⟩, ?_, ?_, ?_⟩
  · have hfree := h.freeOrEnd
    have hsame : (s.cut (extent 12 xs) n m).lfree = s.lfree := lfree_insertFree _ _ _ _
    rw [FreeOrEnd, frees_append, frees_used, Nat.zero_add] at hfree
    rw [FreeOrEnd, frees_cut hroom, hsame, hkeeps.heapEnd]
    rcases hfree with hmem | hend
    · refine .inl ?_
      simp only [List.mem_append, List.mem_cons] at hmem ⊢
      exact hmem.imp_right .inr
    · exact .inr hend
  · have hused : t.usedMem = s.usedMem - (n - m) :=
      hplugs.usedMem.trans (usedMem_insertFree _ _ _ _)
    rw [hused, h.usedMem, usedBytes, usedBytes, hplugs.blocks_eq, blocks_cut hroom, hblocks]
    simp only [spent_append, spent]
    omega
  · rw [hplugs.keeps.memSizeAligned, hkeeps.memSizeAligned]
    exact h.large
  · rw [hplugs.blocks_eq]
    exact hkeeps.trans hplugs.keeps
  · rw [hplugs.blocks_eq, blocks_cut hroom]
    exact ⟨_, _, hblocks, rfl⟩
  · exact hlow

theorem Sound.lfree_cases (h : s.Sound (xs ++ ⟨true, n⟩ :: ys)) :
    s.lfree + 12 ≤ extent 12 xs ∨ extent 12 xs + 12 + n ≤ s.lfree := by
  have hend := h.tiled.end_eq
  simp only at hend
  rcases h.freeOrEnd with hmem | hat
  · rw [frees_append, frees_used, Nat.zero_add] at hmem
    rcases List.mem_append.mp hmem with hmem | hmem
    · have := frees_bounds hmem
      omega
    · exact .inr (frees_bounds hmem).1
  · omega

/-- Nothing is joined: the new free block is the lowest one unless `lfree` is before it. -/
theorem Sound.lowest_cut (h : s.Sound (xs ++ ⟨true, n⟩ :: ys)) (hroom : m + 12 < n)
    (hys : extent 12 xs + 12 + n ∉ frees 12 (extent 12 xs + 12 + n) ys)
    (hlow : s.Lowest (xs ++ ⟨true, n⟩ :: ys)) :
    (s.cut (extent 12 xs) n m).Lowest (xs ++ ⟨true, m⟩ :: ⟨false, n - (m + 12)⟩ :: ys) ↔
      extent 12 xs + 12 + n ∈ frees 12 0 (xs ++ ⟨true, n⟩ :: ys) ∨
        s.lfree < extent 12 xs + 12 := by
  have hsame : (s.cut (extent 12 xs) n m).lfree = s.lfree := lfree_insertFree _ _ _ _
  have hcases := h.lfree_cases
  rw [Lowest, frees_append, frees_used, Nat.zero_add] at hlow
  rw [Lowest, hsame, frees_cut hroom, frees_append, frees_used, Nat.zero_add]
  constructor
  · intro hle
    have := hle (extent 12 xs + 12 + m) (by simp)
    exact .inr (by omega)
  · rintro (hmem | hlt) r hr
    · rcases List.mem_append.mp hmem with hmem | hmem
      · have := frees_bounds hmem
        omega
      · exact absurd hmem hys
    · rcases List.mem_append.mp hr with hr | hr
      · exact hlow r (List.mem_append_left _ hr)
      · rcases List.mem_cons.mp hr with rfl | hr
        · omega
        · exact hlow r (List.mem_append_right _ hr)

/-- The new free block is joined with the one behind it, and `lfree` moves along. -/
theorem Sound.lowest_cut_plug {j : Nat} (h : s.Sound (xs ++ ⟨true, n⟩ :: ⟨false, j⟩ :: ys))
    (hroom : m + 12 < n) (hlow : s.Lowest (xs ++ ⟨true, n⟩ :: ⟨false, j⟩ :: ys)) :
    ((s.cut (extent 12 xs) n m).plug (extent 12 xs + 12 + m)
      (extent 12 xs + 12 + m + 12 + (n - (m + 12)))).Lowest
        (xs ++ ⟨true, m⟩ :: ⟨false, n - (m + 12) + (12 + j)⟩ :: ys) := by
  have hsame : (s.cut (extent 12 xs) n m).lfree = s.lfree := lfree_insertFree _ _ _ _
  have hcases := h.lfree_cases
  have hbehind : extent 12 xs + 12 + m + 12 + (n - (m + 12)) = extent 12 xs + 12 + n := by omega
  have hrest : extent 12 xs + 12 + m + 12 + (n - (m + 12) + (12 + j)) =
      extent 12 xs + 12 + n + 12 + j := by omega
  rw [Lowest, frees_append, frees_used, frees_free, Nat.zero_add] at hlow
  rw [Lowest, frees_append, frees_used, frees_free, Nat.zero_add, hbehind, hrest]
  intro r hr
  change (if (s.cut (extent 12 xs) n m).lfree = extent 12 xs + 12 + n then extent 12 xs + 12 + m
    else (s.cut (extent 12 xs) n m).lfree) ≤ r
  have hnext := hlow (extent 12 xs + 12 + n) (by simp)
  rw [hsame]
  rcases List.mem_append.mp hr with hr | hr
  · have := hlow r (List.mem_append_left _ hr)
    have := frees_bounds hr
    split <;> omega
  · rcases List.mem_cons.mp hr with rfl | hr
    · split <;> omega
    · have := frees_bounds hr
      split <;> omega

theorem Sound.cut (h : s.Sound (xs ++ ⟨true, n⟩ :: ys)) (hm : 0 < m ∧ 4 ∣ m)
    (hroom : m + 12 < n) :
    ∃ t cs', (s.cut (extent 12 xs) n m).plugHoles (extent 12 xs + 12 + m) = some t ∧
      s.Shrinks t (xs ++ ⟨true, n⟩ :: ys) cs' (extent 12 xs + 12) n m := by
  obtain ⟨htiled, -⟩ := h.tiled_cut hm hroom
  have hplug := htiled.plugHoles_behind
  obtain ⟨hxs, hys⟩ := h.coalesced.append_cons
  have hcut (hco : Coalesced (⟨false, n - (m + 12)⟩ :: ys))
      (hnot : extent 12 xs + 12 + n ∉ frees 12 (extent 12 xs + 12 + n) ys) :
      s.Shrinks (s.cut (extent 12 xs) n m) (xs ++ ⟨true, n⟩ :: ys) _ (extent 12 xs + 12) n m :=
    h.shrinks hm hroom (.refl htiled) (hxs.append_used hco m) (h.lowest_cut hroom hnot)
  match ys with
  | [] => exact ⟨_, _, hplug, hcut (.singleton _) (by simp)⟩
  | ⟨true, j⟩ :: ys =>
    refine ⟨_, _, hplug, hcut (.cons_cons (.inr rfl) hys.tail) fun hmem => ?_⟩
    rw [frees_used] at hmem
    have := frees_bounds hmem
    omega
  | ⟨false, j⟩ :: ys =>
    have hsplit (c : Cell) (cs : List Cell) :
        xs ++ ⟨true, m⟩ :: c :: cs = (xs ++ [⟨true, m⟩]) ++ c :: cs := by simp
    have hat : extent 12 (xs ++ [⟨true, m⟩]) = extent 12 xs + 12 + m := by
      simp [Nat.add_assoc]
    rw [hsplit] at htiled
    have hplugs := htiled.plug
    rw [hat, ← hsplit, ← hsplit] at hplugs
    refine ⟨_, _, hplug, h.shrinks hm hroom hplugs (hxs.append_used (Coalesced.resize hys.tail _) m)
      fun hlow => iff_of_true (h.lowest_cut_plug hroom hlow) (.inl ?_)⟩
    rw [frees_append, frees_used, frees_free, Nat.zero_add]
    simp

theorem Sound.shrink (h : s.Sound (xs ++ ⟨true, n⟩ :: ys)) (hm : m + 12 < n) :
    s.shrink (extent 12 xs) n m =
      (s.cut (extent 12 xs) n m).plugHoles (extent 12 xs + 12 + m) := by
  have hused : (s.header (extent 12 xs)).used = 1 := by
    rw [h.tiled.header_eq]
    rfl
  have hcount : n ≤ s.usedMem := by
    rw [h.usedMem, usedBytes, blocks_append, blocks_used, spent_append, spent]
    simp only
    omega
  have hsub : sizeSub s.usedMem (n - m) = s.usedMem - (n - m) :=
    sizeSub_of_le (by omega) h.usedMem_lt
  simp only [SmallMem.shrink, SmallMem.cut, hsub, sizeofStructMem]
  change (SmallMem.insertFree _ _ _ (s.header (extent 12 xs)).used).plugHoles _ = _
  rw [hused]

/-- The header behind a block tells whether it is that of a free block. -/
theorem Tiled.used_behind (h : s.Tiled (xs ++ ⟨true, n⟩ :: ys)) :
    (s.header (extent 12 xs + 12 + n)).used = 0 ↔
      extent 12 xs + 12 + n ∈ frees 12 0 (xs ++ ⟨true, n⟩ :: ys) := by
  refine ⟨fun hused => ?_, h.used_of_mem_frees⟩
  rw [frees_append, frees_used, Nat.zero_add]
  have hend := h.end_eq
  simp only at hend
  match ys with
  | [] =>
    rw [extent_nil, Nat.add_zero] at hend
    rw [hend, h.end_used] at hused
    cases hused
  | ⟨false, j⟩ :: ys =>
    rw [frees_free]
    simp
  | ⟨true, j⟩ :: ys =>
    have hmem : (extent 12 xs + 12 + n, ⟨true, j⟩) ∈
        place 12 0 (xs ++ ⟨true, n⟩ :: ⟨true, j⟩ :: ys) := by
      rw [place_append, Nat.zero_add, place_cons, place_cons]
      simp
    obtain ⟨prev, hheader⟩ := h.header_of_place hmem
    rw [hheader] at hused
    cases hused

/-- The outcomes of `rt_realloc` for a block of `n` bytes at `a`, with the aligned size. -/
inductive Reallocates (s : SmallMem) (cs : List Cell) (a n size : Nat) :
    Option Nat × SmallMem → Prop
  | refused (hsize : size ≠ 0) (hlarge : n ≤ size + 24) (hchoice : s.choice cs size = none) :
    Reallocates s cs a n size (none, s)
  | freed {t : SmallMem} {cs' : List Cell} (hsize : size = 0) (h : s.Releases t cs cs' a n) :
    Reallocates s cs a n size (none, t)
  | same (hsize : size = n) : Reallocates s cs a n size (some (s.heapPtr + a), s)
  | shrunk {t : SmallMem} {cs' : List Cell} (hsize : size ≠ 0) (hroom : size + 24 < n)
    (h : s.Shrinks t cs cs' a n size) : Reallocates s cs a n size (some (s.heapPtr + a), t)
  | moved {t u : SmallMem} {cs' cs'' : List Cell} {a' m : Nat} (hlarge : n ≤ size + 24)
    (hsize : size ≤ m)
    (hnew : s.Allocates t cs cs' a' m) (hold : Releases
      (t.store (s.heapPtr + a') (Memory.read t.mem (s.heapPtr + a) (if n < size then n else size)))
        u cs' cs'' a n) : Reallocates s cs a n size (some (s.heapPtr + a'), u)

theorem rtAlign_idem (size : Nat) : rtAlign (rtAlign size) = rtAlign size := by
  apply rtAlign_of_dvd (rtAlign_dvd size)
  unfold rtAlign
  omega

theorem Sound.moveBlock {a size : Nat} (h : s.Sound cs) (ha : (a, n) ∈ blocks 12 0 cs)
    (hsize : size ≠ 0) (haligned : rtAlign size = size) (hlarge : n ≤ size + 24) :
    ∃ r, s.moveBlock (s.heapPtr + a) n size = some r ∧ s.Reallocates cs a n size r := by
  have hdemand : size ≤ demand size := by
    rw [demand, haligned, dataSize]
    split
    · exact Nat.le_of_lt ‹_›
    · exact Nat.le_refl _
  rcases h.rtMalloc size with ⟨hmalloc, hnone⟩ | ⟨q, c, t, m, cs', hchoice, hmalloc, hnew, hm⟩
  · refine ⟨_, ?_, .refused hsize hlarge (hnone.resolve_left hsize)⟩
    rw [SmallMem.moveBlock, hmalloc, Option.bind_some]
  · have hptr := hnew.keeps.heapPtr
    have ha' := hnew.mem_of_mem ha
    have hmem := hnew.mem
    have hlen : 0 + (Memory.read t.mem (s.heapPtr + a) (if n < size then n else size)).length ≤
        m := by
      rw [Memory.length_read]
      split <;> omega
    have hstored := hnew.sound.store hmem hlen
    obtain ⟨u, cs'', hfree, hreleases⟩ := hstored.rtFree ha'
    change SmallMem.rtFree _ (t.heapPtr + a) = some u at hfree
    rw [hptr, Nat.add_zero] at hfree hreleases
    refine ⟨(some (s.heapPtr + (q + 12)), u), ?_, .moved hlarge (by omega) hnew hreleases⟩
    rw [SmallMem.moveBlock, hmalloc, Option.bind_some]
    simp only [Nat.add_assoc s.heapPtr q 12]
    rw [hfree, Option.map_some]

theorem rtRealloc_null (s : SmallMem) (newsize : Nat) : s.rtRealloc 0 newsize =
    if rtAlign newsize > s.memSizeAligned then some (none, s)
    else if rtAlign newsize = 0 then some (none, s)
    else s.rtMalloc (rtAlign newsize) := by
  simp only [SmallMem.rtRealloc, SmallMem.rtFree, if_true, Option.map_some]

/-- The size of a cell, as `rt_realloc` computes it. -/
theorem Tiled.size_eq (h : s.Tiled (xs ++ c :: ys)) :
    sizeSub (sizeSub (s.header (extent 12 xs)).next (extent 12 xs)) sizeofStructMem = c.size := by
  have hend := h.end_eq
  have hfits := h.fits
  have hspan : sizeSub (extent 12 xs + 12 + c.size) (extent 12 xs) = 12 + c.size := by
    rw [sizeSub_of_le (by omega) (by omega)]
    omega
  have hdata : sizeSub (12 + c.size) 12 = c.size := by
    rw [sizeSub_of_le (by omega) (by omega)]
    omega
  rw [h.next_eq, hspan]
  exact hdata

/-- `rt_realloc` has one of the outcomes. -/
theorem Sound.rtRealloc {a : Nat} (h : s.Sound cs) (ha : (a, n) ∈ blocks 12 0 cs) (newsize : Nat) :
    ∃ r, s.rtRealloc (s.heapPtr + a) newsize = some r ∧
      s.Reallocates cs a n (rtAlign newsize) r := by
  obtain ⟨q, hmem, hq⟩ := mem_blocks.mp ha
  obtain ⟨xs, ys, hcs, hat⟩ := mem_place.mp hmem
  have hfits := h.tiled.fits
  have htiled : s.Tiled (xs ++ ⟨true, n⟩ :: ys) := hcs ▸ h.tiled
  have hend := htiled.end_eq
  have hsized := (h.tiled.sized ⟨true, n⟩ (by rw [hcs]; simp)).1
  simp only at hq hend hsized
  rw [Nat.zero_add] at hat
  have hdemand : rtAlign newsize ≤ demand (rtAlign newsize) := by
    rw [demand, rtAlign_idem, dataSize, minSizeAligned]
    split <;> omega
  simp only [SmallMem.rtRealloc]
  by_cases hbig : rtAlign newsize > s.memSizeAligned
  · rw [if_pos hbig]
    have hsize := h.tiled.heapEnd_eq
    exact ⟨_, rfl, .refused (by omega) (by omega) (Sound.choice_eq_none (by omega))⟩
  rw [if_neg hbig]
  by_cases hzero : rtAlign newsize = 0
  · obtain ⟨t, cs', hfree, hreleases⟩ := h.rtFree ha
    rw [if_pos hzero, hfree]
    exact ⟨_, rfl, .freed hzero hreleases⟩
  rw [if_neg hzero, if_neg (by omega), if_neg (by omega), if_neg (by rw [sizeofStructMem]; omega)]
  have hsub : s.heapPtr + a - s.heapPtr - sizeofStructMem = extent 12 xs := by
    rw [sizeofStructMem]
    omega
  rw [hsub, htiled.size_eq]
  by_cases hsame : n = rtAlign newsize
  · rw [if_pos hsame]
    exact ⟨_, rfl, .same hsame.symm⟩
  rw [if_neg hsame]
  by_cases hsmall : rtAlign newsize + sizeofStructMem + minSizeAligned < n
  · have hroom : rtAlign newsize + 24 < n := hsmall
    subst hcs
    obtain ⟨t, cs', hplug, hshrinks⟩ := h.cut ⟨by omega, rtAlign_dvd newsize⟩ (by omega)
    rw [if_pos hsmall, h.shrink (by omega), hplug]
    rw [← hat, ← hq] at hshrinks
    exact ⟨_, rfl, .shrunk hzero hroom hshrinks⟩
  · rw [if_neg hsmall]
    exact h.moveBlock ha hzero (rtAlign_idem newsize) (Nat.le_of_not_lt hsmall)

end SmallMem

end ControlBoard
