import ControlBoard.Lib.Tiling
import ControlBoard.SmallMem

/-!
# The heap as a sequence of cells

The headers of the heap as those of a sequence of cells, and what `plug_holes` and the insertion of
a free block do to the sequence. A change of the heap is described by the cells before it, the
cells it is about and the cells behind it.
-/

namespace ControlBoard

namespace SmallMem

open Tiling

/-- The header of a cell at `p`, where the one before it is at `prev`. -/
def cellHeader (c : Cell) (p prev : Nat) : HeapMem :=
  ⟨heapMagic, if c.used then 1 else 0, p + 12 + c.size, prev⟩

/-- The cells are in memory from `p` on, and the one before them is at `prev`. -/
def Segment (s : SmallMem) (p prev : Nat) : List Cell → Prop
  | [] => True
  | c :: cs => s.header p = cellHeader c p prev ∧ s.Segment (p + 12 + c.size) p cs

/-- The heap is the cells and `heap_end`. -/
structure Tiled (s : SmallMem) (cs : List Cell) : Prop where
  segment : s.Segment 0 0 cs
  extent_eq : extent 12 cs = s.heapEnd
  end_used : (s.header s.heapEnd).used = 1
  end_next : (s.header s.heapEnd).next = s.heapEnd
  sized : ∀ c ∈ cs, 0 < c.size ∧ 4 ∣ c.size
  heapEnd_eq : s.heapEnd = s.memSizeAligned + 12
  fits : s.heapPtr + s.heapEnd + 12 ≤ 0x100000000
  aligned : 4 ∣ s.heapPtr

/-- The bytes of some blocks are as they were, and the heap is where it was. -/
structure Keeps (s t : SmallMem) (bs : List (Nat × Nat)) : Prop where
  heapPtr : t.heapPtr = s.heapPtr
  heapEnd : t.heapEnd = s.heapEnd
  memSizeAligned : t.memSizeAligned = s.memSizeAligned
  mem : ∀ b ∈ bs, ∀ i < b.2, t.mem (s.heapPtr + b.1 + i) = s.mem (s.heapPtr + b.1 + i)

variable {s t u : SmallMem} {p q prev n m : Nat} {c : Cell} {cs xs ys : List Cell}
  {bs : List (Nat × Nat)}

theorem Keeps.refl (s : SmallMem) (bs : List (Nat × Nat)) : s.Keeps s bs :=
  ⟨rfl, rfl, rfl, fun _ _ _ _ => rfl⟩

theorem Keeps.trans (h : s.Keeps t bs) (h' : t.Keeps u bs) : s.Keeps u bs where
  heapPtr := h'.heapPtr.trans h.heapPtr
  heapEnd := h'.heapEnd.trans h.heapEnd
  memSizeAligned := h'.memSizeAligned.trans h.memSizeAligned
  mem b hb i hi := by
    have hmem := h'.mem b hb i hi
    rw [h.heapPtr] at hmem
    exact hmem.trans (h.mem b hb i hi)

theorem keeps_lfree (s : SmallMem) (q : Nat) (bs : List (Nat × Nat)) :
    s.Keeps { s with lfree := q } bs := ⟨rfl, rfl, rfl, fun _ _ _ _ => rfl⟩

/-- A write to a header that is in none of the blocks. -/
theorem keeps_setHeader {m : HeapMem} (h : ∀ b ∈ bs, p + 12 ≤ b.1 ∨ b.1 + b.2 ≤ p) :
    s.Keeps (s.setHeader p m) bs :=
  ⟨rfl, rfl, rfl, fun b hb i hi => mem_setHeader (by have := h b hb; omega)⟩

theorem Keeps.mono {bs' : List (Nat × Nat)} (h : s.Keeps t bs) (hbs : bs' ⊆ bs) : s.Keeps t bs' :=
  ⟨h.heapPtr, h.heapEnd, h.memSizeAligned, fun b hb => h.mem b (hbs hb)⟩

theorem keeps_update {f : HeapMem → HeapMem} (h : ∀ b ∈ bs, p + 12 ≤ b.1 ∨ b.1 + b.2 ≤ p) :
    s.Keeps (s.update p f) bs := keeps_setHeader h

theorem cellHeader_fits (h : p + 12 + c.size < 0x100000000) (hprev : prev < 0x100000000) :
    (cellHeader c p prev).Fits := by
  refine ⟨(by decide : heapMagic < 0x10000), ?_, h, hprev⟩
  simp only [cellHeader]
  split <;> decide

/-! ## A free block is put in -/

/-- The block at `p` and a free one at `p2` behind it, before what follows is told of it. -/
def linkFree (s : SmallMem) (p p2 used : Nat) : SmallMem :=
  (s.setHeader p2 ⟨heapMagic, 0, (s.header p).next, p⟩).update p fun m =>
    { m with next := p2, used := used }

theorem insertFree_eq (s : SmallMem) (p p2 used : Nat) : s.insertFree p p2 used =
    if (s.header p).next ≠ s.memSizeAligned + 12 then
      (s.linkFree p p2 used).update (s.header p).next fun m => { m with prev := p2 }
    else s.linkFree p p2 used := rfl

@[simp] theorem lfree_insertFree (s : SmallMem) (p p2 used : Nat) :
    (s.insertFree p p2 used).lfree = s.lfree := by
  rw [insertFree_eq]
  split
  · rfl
  · rfl

@[simp] theorem usedMem_insertFree (s : SmallMem) (p p2 used : Nat) :
    (s.insertFree p p2 used).usedMem = s.usedMem := by
  rw [insertFree_eq]
  split
  · rfl
  · rfl

section InsertFree

variable {p2 used : Nat}

theorem header_linkFree_of_apart {r : Nat} (hp : p + 12 ≤ r ∨ r + 12 ≤ p)
    (hp2 : p2 + 12 ≤ r ∨ r + 12 ≤ p2) : (s.linkFree p p2 used).header r = s.header r := by
  rw [linkFree, header_update_of_apart hp, header_setHeader_of_apart hp2]

theorem keeps_linkFree (h : ∀ b ∈ bs, (p + 12 ≤ b.1 ∨ b.1 + b.2 ≤ p) ∧
    (p2 + 12 ≤ b.1 ∨ b.1 + b.2 ≤ p2)) : s.Keeps (s.linkFree p p2 used) bs :=
  (keeps_setHeader fun b hb => (h b hb).2).trans (keeps_update fun b hb => (h b hb).1)

variable (hp2 : p + 12 ≤ p2) (hnext : p2 + 12 ≤ (s.header p).next)

include hp2 hnext

theorem header_insertFree_ptr (hused : used < 0x10000) :
    (s.insertFree p p2 used).header p = { s.header p with next := p2, used := used } := by
  have hfits := header_fits s p
  have hnextfits := hfits.next
  have hsame := header_setHeader_of_apart (s := s) (r := p)
    (m := ⟨heapMagic, 0, (s.header p).next, p⟩) (.inr hp2)
  have hlink : (s.linkFree p p2 used).header p = { s.header p with next := p2, used := used } := by
    rw [linkFree, header_update, hsame]
    rw [hsame]
    exact ⟨hfits.magic, hused, (by omega : p2 < 0x100000000), hfits.prev⟩
  rw [insertFree_eq]
  split
  · rw [header_update_of_apart (by omega), hlink]
  · exact hlink

theorem header_insertFree_ptr2 :
    (s.insertFree p p2 used).header p2 = ⟨heapMagic, 0, (s.header p).next, p⟩ := by
  have hnextfits := (header_fits s p).next
  have hlink : (s.linkFree p p2 used).header p2 = ⟨heapMagic, 0, (s.header p).next, p⟩ := by
    rw [linkFree, header_update_of_apart (.inl hp2), header_setHeader]
    exact ⟨(by decide : heapMagic < 0x10000), Nat.zero_lt_succ _, hnextfits,
      (by omega : p < 0x100000000)⟩
  rw [insertFree_eq]
  split
  · rw [header_update_of_apart (.inr hnext), hlink]
  · exact hlink

theorem header_insertFree_next :
    (s.insertFree p p2 used).header (s.header p).next = { s.header (s.header p).next with
      prev := if (s.header p).next ≠ s.memSizeAligned + 12 then p2 else
        (s.header (s.header p).next).prev } := by
  have hfits := header_fits s (s.header p).next
  have hnextfits := (header_fits s p).next
  have hlink : (s.linkFree p p2 used).header (s.header p).next = s.header (s.header p).next :=
    header_linkFree_of_apart (by omega) (by omega)
  rw [insertFree_eq]
  split
  · rw [header_update, hlink]
    rw [hlink]
    exact ⟨hfits.magic, hfits.used, hfits.next, (by omega : p2 < 0x100000000)⟩
  · exact hlink

theorem header_insertFree_of_apart {r : Nat} (hr : r + 12 ≤ p ∨ (s.header p).next + 12 ≤ r) :
    (s.insertFree p p2 used).header r = s.header r := by
  have hlink : (s.linkFree p p2 used).header r = s.header r :=
    header_linkFree_of_apart (by omega) (by omega)
  rw [insertFree_eq]
  split
  · rw [header_update_of_apart (by omega), hlink]
  · exact hlink

theorem keeps_insertFree (hbs : ∀ b ∈ bs, b.1 + b.2 ≤ p ∨ p + 12 ≤ b.1 ∧ b.1 + b.2 ≤ p2 ∨
    (s.header p).next + 12 ≤ b.1) : s.Keeps (s.insertFree p p2 used) bs := by
  have hlink : s.Keeps (s.linkFree p p2 used) bs := keeps_linkFree fun b hb => by
    have := hbs b hb
    omega
  rw [insertFree_eq]
  split
  · exact hlink.trans (keeps_update fun b hb => by have := hbs b hb; omega)
  · exact hlink

end InsertFree

/-! ## Two blocks become one -/

/-- The block at `p` takes in the one at `p2`. -/
def absorb (s : SmallMem) (p p2 : Nat) : SmallMem :=
  let s := s.update p fun m => { m with next := (s.header p2).next }
  s.update (s.header p2).next fun m => { m with prev := p }

section Absorb

variable {p2 : Nat} (hp2 : p + 12 ≤ p2) (hnext : p2 + 12 ≤ (s.header p2).next)

include hp2

theorem absorb_eq : s.absorb p p2 =
    (s.update p fun m => { m with next := (s.header p2).next }).update (s.header p2).next
      fun m => { m with prev := p } := by
  have hsame := header_update_of_apart (s := s) (r := p2)
    (f := fun m => { m with next := (s.header p2).next }) (.inl hp2)
  simp only [absorb]
  rw [hsame]

theorem header_absorb_of_apart {r : Nat} (hp : p + 12 ≤ r ∨ r + 12 ≤ p)
    (hr : (s.header p2).next + 12 ≤ r ∨ r + 12 ≤ (s.header p2).next) :
    (s.absorb p p2).header r = s.header r := by
  rw [absorb_eq hp2, header_update_of_apart hr, header_update_of_apart hp]

include hnext

theorem header_absorb_ptr :
    (s.absorb p p2).header p = { s.header p with next := (s.header p2).next } := by
  have hfits := header_fits s p
  rw [absorb_eq hp2, header_update_of_apart (by omega), header_update]
  exact ⟨hfits.magic, hfits.used, (header_fits s p2).next, hfits.prev⟩

theorem header_absorb_next : (s.absorb p p2).header (s.header p2).next =
    { s.header (s.header p2).next with prev := p } := by
  have hfits := header_fits s (s.header p2).next
  have hnextfits := (header_fits s p2).next
  have hsame := header_update_of_apart (s := s) (r := (s.header p2).next)
    (f := fun m => { m with next := (s.header p2).next }) (.inl (by omega : p + 12 ≤ _))
  rw [absorb_eq hp2, header_update, hsame]
  rw [hsame]
  exact ⟨hfits.magic, hfits.used, hfits.next, (by omega : p < 0x100000000)⟩

theorem keeps_absorb (hbs : ∀ b ∈ bs, b.1 + b.2 ≤ p ∨ p + 12 ≤ b.1 ∧
    b.1 + b.2 ≤ (s.header p2).next ∨ (s.header p2).next + 12 ≤ b.1) :
    s.Keeps (s.absorb p p2) bs := by
  rw [absorb_eq hp2]
  exact (keeps_update fun b hb => by have := hbs b hb; omega).trans
    (keeps_update fun b hb => by have := hbs b hb; omega)

end Absorb

/-! ## Segments -/

theorem Segment.congr_place (h : s.Segment p prev cs)
    (heq : ∀ x ∈ place 12 p cs, t.header x.1 = s.header x.1) : t.Segment p prev cs := by
  induction cs generalizing p prev with
  | nil => trivial
  | cons c cs ih =>
    rw [place_cons, List.forall_mem_cons] at heq
    exact ⟨heq.1.trans h.1, ih h.2 heq.2⟩

theorem Segment.congr (h : s.Segment p prev cs)
    (heq : ∀ r, p ≤ r → r + 12 ≤ p + extent 12 cs → t.header r = s.header r) :
    t.Segment p prev cs :=
  h.congr_place fun x hx => by
    have := place_bounds hx
    exact heq x.1 this.1 (by omega)

/-- The cells behind a cell that has moved. -/
theorem Segment.relink (h : s.Segment p prev cs)
    (hhead : cs ≠ [] → t.header p = { s.header p with prev := q })
    (heq : ∀ r, p + 12 ≤ r → r + 12 ≤ p + extent 12 cs → t.header r = s.header r) :
    t.Segment p q cs := by
  cases cs with
  | nil => trivial
  | cons c cs =>
    rw [extent_cons] at heq
    refine ⟨?_, h.2.congr fun r hp hr => heq r (by omega) (by omega)⟩
    rw [hhead (List.cons_ne_nil c cs), h.1]
    rfl

theorem segment_append :
    s.Segment p prev (xs ++ ys) ↔
      s.Segment p prev xs ∧ s.Segment (p + extent 12 xs) (lastAt 12 p prev xs) ys := by
  induction xs generalizing p prev with
  | nil => simp [Segment, lastAt]
  | cons x xs ih =>
    rw [List.cons_append, Segment, Segment, ih, extent_cons, lastAt, and_assoc]
    simp only [Nat.add_assoc]

/-- No block is in the header of a cell. -/
theorem keeps_update_cell (s : SmallMem) (xs ys : List Cell) (f : HeapMem → HeapMem) :
    s.Keeps (s.update (extent 12 xs) f) (blocks 12 0 (xs ++ ys)) := by
  refine keeps_update fun b hb => ?_
  rw [blocks_append, Nat.zero_add] at hb
  rcases List.mem_append.mp hb with hb | hb
  · have := blocks_bounds hb
    omega
  · have := blocks_bounds hb
    omega

namespace Tiled

/-! ## What the headers say -/

theorem header_eq (h : s.Tiled (xs ++ c :: ys)) :
    s.header (extent 12 xs) = cellHeader c (extent 12 xs) (lastAt 12 0 0 xs) := by
  have hseg := (segment_append.mp h.segment).2
  rw [Nat.zero_add] at hseg
  exact hseg.1

theorem next_eq (h : s.Tiled (xs ++ c :: ys)) :
    (s.header (extent 12 xs)).next = extent 12 xs + 12 + c.size := by
  rw [h.header_eq]
  rfl

theorem prev_eq (h : s.Tiled (xs ++ c :: ys)) (hys : ys ≠ []) :
    (s.header (extent 12 xs + 12 + c.size)).prev = extent 12 xs := by
  cases ys with
  | nil => exact absurd rfl hys
  | cons d ys =>
    have hsplit : xs ++ c :: d :: ys = (xs ++ [c]) ++ d :: ys := by simp
    rw [hsplit] at h
    have hheader := h.header_eq
    rw [extent_append, extent_cons, extent_nil, Nat.add_zero, ← Nat.add_assoc,
      lastAt_concat, Nat.zero_add] at hheader
    rw [hheader]
    rfl

theorem next_next_eq {d : Cell} (h : s.Tiled (xs ++ c :: d :: ys)) :
    (s.header (extent 12 xs + 12 + c.size)).next = extent 12 xs + 12 + c.size + 12 + d.size := by
  have hsplit : xs ++ c :: d :: ys = (xs ++ [c]) ++ d :: ys := by simp
  rw [hsplit] at h
  have hnext := h.next_eq
  rwa [extent_append, extent_cons, extent_nil, Nat.add_zero, ← Nat.add_assoc] at hnext

theorem end_eq (h : s.Tiled (xs ++ c :: ys)) :
    extent 12 xs + 12 + c.size + extent 12 ys = s.heapEnd := by
  rw [← h.extent_eq, extent_append, extent_cons]
  omega

/-- Cells are replaced by others that take the same bytes. -/
theorem splice (mid mid' : List Cell) (h : s.Tiled (xs ++ (mid ++ ys)))
    (hkeeps : s.Keeps t []) (hsize : extent 12 mid' = extent 12 mid)
    (hsized : ∀ c ∈ mid', 0 < c.size ∧ 4 ∣ c.size)
    (hbefore : ∀ r, r + 12 ≤ extent 12 xs → t.header r = s.header r)
    (hmid : t.Segment (extent 12 xs) (lastAt 12 0 0 xs) mid')
    (hnext : ∃ v, t.header (extent 12 xs + extent 12 mid) =
      { s.header (extent 12 xs + extent 12 mid) with prev := v } ∧
        (ys ≠ [] → v = lastAt 12 (extent 12 xs) (lastAt 12 0 0 xs) mid'))
    (hbehind : ∀ r, extent 12 xs + extent 12 mid + 12 ≤ r → t.header r = s.header r) :
    t.Tiled (xs ++ (mid' ++ ys)) := by
  have hextent := h.extent_eq
  rw [extent_append, extent_append] at hextent
  obtain ⟨v, hnext, hprev⟩ := hnext
  obtain ⟨hxs, hmidys⟩ := segment_append.mp h.segment
  obtain ⟨-, hys⟩ := segment_append.mp hmidys
  rw [Nat.zero_add] at hys
  have hend : t.header s.heapEnd =
      { s.header s.heapEnd with prev := (t.header s.heapEnd).prev } := by
    cases ys with
    | nil =>
      rw [extent_nil, Nat.add_zero] at hextent
      rw [← hextent, hnext]
    | cons y ys =>
      rw [extent_cons] at hextent
      rw [hbehind s.heapEnd (by omega)]
  exact
    { segment := by
        rw [segment_append, segment_append, Nat.zero_add]
        refine ⟨hxs.congr fun r _ hr => hbefore r (by omega), hmid, ?_⟩
        rw [hsize]
        exact hys.relink (fun hne => by rw [hnext, hprev hne]) fun r hr _ => hbehind r hr
      extent_eq := by
        rw [extent_append, extent_append, hsize, hkeeps.heapEnd, hextent]
      end_used := by
        rw [hkeeps.heapEnd, hend]
        exact h.end_used
      end_next := by
        rw [hkeeps.heapEnd, hend]
        exact h.end_next
      sized := by
        intro c hc
        simp only [List.mem_append] at hc
        rcases hc with hc | hc | hc
        · exact h.sized c (List.mem_append_left _ hc)
        · exact hsized c hc
        · exact h.sized c (List.mem_append_right _ (List.mem_append_right _ hc))
      heapEnd_eq := by
        rw [hkeeps.heapEnd, hkeeps.memSizeAligned]
        exact h.heapEnd_eq
      fits := by
        rw [hkeeps.heapPtr, hkeeps.heapEnd]
        exact h.fits
      aligned := by
        rw [hkeeps.heapPtr]
        exact h.aligned }

/-- A cell is taken into use or given back. -/
theorem update_used {f : HeapMem → HeapMem} {old : Bool} (h : s.Tiled (xs ++ ⟨old, n⟩ :: ys))
    (new : Bool) (hf : ∀ prev, f (cellHeader ⟨old, n⟩ (extent 12 xs) prev) =
      cellHeader ⟨new, n⟩ (extent 12 xs) prev) :
    (s.update (extent 12 xs) f).Tiled (xs ++ ⟨new, n⟩ :: ys) := by
  have hheader : (s.update (extent 12 xs) f).header (extent 12 xs) =
      cellHeader ⟨new, n⟩ (extent 12 xs) (lastAt 12 0 0 xs) := by
    rw [header_update, h.header_eq, hf]
    rw [h.header_eq, hf]
    have := h.header_eq ▸ header_fits s (extent 12 xs)
    exact cellHeader_fits this.next this.prev
  have hextent : extent 12 [⟨old, n⟩] = 12 + n := by simp
  have hbehind : ∀ r, extent 12 xs + (12 + n) ≤ r →
      (s.update (extent 12 xs) f).header r = s.header r :=
    fun r hr => header_update_of_apart (by omega)
  refine h.splice [⟨old, n⟩] [⟨new, n⟩] (keeps_setHeader nofun) rfl ?_
    (fun r hr => header_update_of_apart (by omega)) ⟨hheader, trivial⟩
    ⟨(s.header (extent 12 xs + extent 12 [⟨old, n⟩])).prev, ?_, fun hys => ?_⟩
    fun r hr => hbehind r (by omega)
  · intro c hc
    rw [List.mem_singleton.mp hc]
    exact h.sized ⟨old, n⟩ (List.mem_append_right _ List.mem_cons_self)
  · rw [hextent]
    exact hbehind _ (Nat.le_refl _)
  · rw [hextent, ← Nat.add_assoc]
    exact h.prev_eq hys

/-- A free block is split off a cell. -/
theorem insertFree {old : Bool} (h : s.Tiled (xs ++ ⟨old, n⟩ :: ys)) (used : Bool)
    (hroom : m + 12 < n) (hm : 0 < m ∧ 4 ∣ m) :
    (s.insertFree (extent 12 xs) (extent 12 xs + 12 + m) (if used then 1 else 0)).Tiled
      (xs ++ ⟨used, m⟩ :: ⟨false, n - (m + 12)⟩ :: ys) := by
  have hsized := h.sized ⟨old, n⟩ (List.mem_append_right _ List.mem_cons_self)
  have hnext := h.next_eq
  have hend := h.end_eq
  have hheader := h.header_eq
  have hendeq := h.heapEnd_eq
  simp only at hsized hnext hend
  have hp2 : extent 12 xs + 12 ≤ extent 12 xs + 12 + m := Nat.le_add_right _ m
  have hp2next : extent 12 xs + 12 + m + 12 ≤ (s.header (extent 12 xs)).next := by omega
  have hbehind : extent 12 xs + extent 12 [⟨old, n⟩] = (s.header (extent 12 xs)).next := by
    rw [hnext]
    simp only [extent_cons, extent_nil]
    omega
  refine h.splice [⟨old, n⟩] [⟨used, m⟩, ⟨false, n - (m + 12)⟩]
    (keeps_insertFree hp2 hp2next nofun) ?_ ?_
    (fun r hr => header_insertFree_of_apart hp2 hp2next (.inl hr)) ⟨?_, ?_, trivial⟩
    ⟨_, by rw [hbehind]; exact header_insertFree_next hp2 hp2next, fun hys => ?_⟩
    fun r hr => header_insertFree_of_apart hp2 hp2next (.inr (by omega))
  · simp only [extent_cons, extent_nil]
    omega
  · simp only [List.mem_cons, List.not_mem_nil, or_false, forall_eq_or_imp, forall_eq]
    omega
  · rw [header_insertFree_ptr hp2 hp2next (by split <;> decide), hheader]
    rfl
  · rw [header_insertFree_ptr2 hp2 hp2next, hnext]
    simp only [cellHeader, Bool.false_eq_true, if_false, HeapMem.mk.injEq, true_and, and_true]
    omega
  · rw [if_pos]
    · rfl
    · cases ys with
      | nil => exact absurd rfl hys
      | cons y ys =>
        rw [extent_cons] at hend
        omega

theorem keeps_insertFree {old : Bool} (h : s.Tiled (xs ++ ⟨old, n⟩ :: ys)) (used : Bool)
    (hroom : m + 12 < n) :
    s.Keeps (s.insertFree (extent 12 xs) (extent 12 xs + 12 + m) (if used then 1 else 0))
      (blocks 12 0 (xs ++ ⟨true, m⟩ :: ⟨false, n - (m + 12)⟩ :: ys)) := by
  have hnext := h.next_eq
  simp only at hnext
  refine SmallMem.keeps_insertFree (by omega) (by omega) fun b hb => ?_
  rw [hnext]
  rw [blocks_append, blocks_used, blocks_free, Nat.zero_add] at hb
  rcases List.mem_append.mp hb with hb | hb
  · have := blocks_bounds hb
    omega
  · rcases List.mem_cons.mp hb with rfl | hb
    · exact .inr (.inl ⟨Nat.le_refl _, Nat.le_refl _⟩)
    · have := blocks_bounds hb
      omega

/-- A cell takes in the one behind it. -/
theorem absorb {used used' : Bool} (h : s.Tiled (xs ++ ⟨used, n⟩ :: ⟨used', m⟩ :: ys)) :
    (s.absorb (extent 12 xs) (extent 12 xs + 12 + n)).Tiled
      (xs ++ ⟨used, n + (12 + m)⟩ :: ys) := by
  have hheader := h.header_eq
  have hsized := h.sized
  have hnext := h.next_next_eq
  simp only at hnext
  have hp2 : extent 12 xs + 12 ≤ extent 12 xs + 12 + n := Nat.le_add_right _ n
  have hp2next : extent 12 xs + 12 + n + 12 ≤
      (s.header (extent 12 xs + 12 + n)).next := by omega
  have hsame : extent 12 xs + extent 12 [⟨used, n⟩, ⟨used', m⟩] =
      (s.header (extent 12 xs + 12 + n)).next := by
    rw [hnext]
    simp only [extent_cons, extent_nil]
    omega
  refine h.splice [⟨used, n⟩, ⟨used', m⟩] [⟨used, n + (12 + m)⟩]
    (keeps_absorb hp2 hp2next nofun) ?_ ?_
    (fun r hr => header_absorb_of_apart hp2 (.inr hr) (by omega)) ⟨?_, trivial⟩
    ⟨_, by rw [hsame]; exact header_absorb_next hp2 hp2next, fun _ => rfl⟩
    fun r hr => header_absorb_of_apart hp2 (by omega) (by omega)
  · simp only [extent_cons, extent_nil]
    omega
  · intro c hc
    rw [List.mem_singleton.mp hc]
    have hn := hsized ⟨used, n⟩ (by simp)
    have hm := hsized ⟨used', m⟩ (by simp)
    simp only at hn hm ⊢
    omega
  · rw [header_absorb_ptr hp2 hp2next, hheader, hnext]
    simp only [cellHeader, HeapMem.mk.injEq, true_and, and_true]
    omega

theorem keeps_absorb {used used' : Bool} (h : s.Tiled (xs ++ ⟨used, n⟩ :: ⟨used', m⟩ :: ys)) :
    s.Keeps (s.absorb (extent 12 xs) (extent 12 xs + 12 + n))
      (blocks 12 0 xs ++ blocks 12 (extent 12 xs + 12 + n + 12 + m) ys) := by
  have hnext := h.next_next_eq
  simp only at hnext
  refine SmallMem.keeps_absorb (by omega) (by omega) fun b hb => ?_
  rw [hnext]
  rcases List.mem_append.mp hb with hb | hb
  · have := blocks_bounds hb
    omega
  · have := blocks_bounds hb
    omega

/-- The cells are in the memory. -/
theorem of_mem (h : s.Tiled cs) (hkeeps : s.Keeps t []) (hmem : t.mem = s.mem) : t.Tiled cs := by
  have hheader (r : Nat) : t.header r = s.header r :=
    header_congr hkeeps.heapPtr fun i _ => by rw [hmem]
  exact
    { segment := h.segment.congr fun r _ _ => hheader r
      extent_eq := by rw [hkeeps.heapEnd]; exact h.extent_eq
      end_used := by rw [hkeeps.heapEnd, hheader]; exact h.end_used
      end_next := by rw [hkeeps.heapEnd, hheader]; exact h.end_next
      sized := h.sized
      heapEnd_eq := by rw [hkeeps.heapEnd, hkeeps.memSizeAligned]; exact h.heapEnd_eq
      fits := by rw [hkeeps.heapPtr, hkeeps.heapEnd]; exact h.fits
      aligned := by rw [hkeeps.heapPtr]; exact h.aligned }

end Tiled

/-! ## `plug_holes` -/

/-- `lfree` is at a free block, or at `heap_end`. -/
def FreeOrEnd (s : SmallMem) (cs : List Cell) : Prop :=
  s.lfree ∈ frees 12 0 cs ∨ s.lfree = s.heapEnd

/-- What joining free cells leaves as it was. -/
structure Plugs (s t : SmallMem) (cs cs' : List Cell) : Prop where
  tiled : t.Tiled cs'
  keeps : s.Keeps t (blocks 12 0 cs)
  blocks_eq : blocks 12 0 cs' = blocks 12 0 cs
  frees_subset : frees 12 0 cs' ⊆ frees 12 0 cs
  lfree_le : t.lfree ≤ s.lfree
  freeOrEnd : s.FreeOrEnd cs → t.FreeOrEnd cs'
  usedMem : t.usedMem = s.usedMem
  maxMem : t.maxMem = s.maxMem

theorem Plugs.refl (h : s.Tiled cs) : s.Plugs s cs cs :=
  ⟨h, .refl s _, rfl, List.Subset.refl _, Nat.le_refl _, id, rfl, rfl⟩

theorem Plugs.trans {cs' cs'' : List Cell} (h : s.Plugs t cs cs') (h' : t.Plugs u cs' cs'') :
    s.Plugs u cs cs'' where
  tiled := h'.tiled
  keeps := by
    have hkeeps := h'.keeps
    rw [h.blocks_eq] at hkeeps
    exact h.keeps.trans hkeeps
  blocks_eq := h'.blocks_eq.trans h.blocks_eq
  frees_subset := List.Subset.trans h'.frees_subset h.frees_subset
  lfree_le := Nat.le_trans h'.lfree_le h.lfree_le
  freeOrEnd := fun hfree => h'.freeOrEnd (h.freeOrEnd hfree)
  usedMem := h'.usedMem.trans h.usedMem
  maxMem := h'.maxMem.trans h.maxMem

/-- Both halves of `plug_holes`: the free block at `p` takes in the one at `p2`. -/
def plug (s : SmallMem) (p p2 : Nat) : SmallMem :=
  SmallMem.absorb { s with lfree := if s.lfree = p2 then p else s.lfree } p p2

theorem Tiled.plug (h : s.Tiled (xs ++ ⟨false, n⟩ :: ⟨false, m⟩ :: ys)) :
    s.Plugs (s.plug (extent 12 xs) (extent 12 xs + 12 + n)) (xs ++ ⟨false, n⟩ :: ⟨false, m⟩ :: ys)
      (xs ++ ⟨false, n + (12 + m)⟩ :: ys) := by
  have hsame : extent 12 xs + 12 + (n + (12 + m)) = extent 12 xs + 12 + n + 12 + m := by omega
  have hfrees : frees 12 0 (xs ++ ⟨false, n⟩ :: ⟨false, m⟩ :: ys) = frees 12 0 xs ++
      extent 12 xs :: (extent 12 xs + 12 + n) :: frees 12 (extent 12 xs + 12 + n + 12 + m) ys := by
    rw [frees_append, frees_free, frees_free, Nat.zero_add]
  have hfrees' : frees 12 0 (xs ++ ⟨false, n + (12 + m)⟩ :: ys) = frees 12 0 xs ++
      extent 12 xs :: frees 12 (extent 12 xs + 12 + n + 12 + m) ys := by
    rw [frees_append, frees_free, Nat.zero_add, hsame]
  have hblocks : blocks 12 0 (xs ++ ⟨false, n⟩ :: ⟨false, m⟩ :: ys) =
      blocks 12 0 xs ++ blocks 12 (extent 12 xs + 12 + n + 12 + m) ys := by
    rw [blocks_append, blocks_free, blocks_free, Nat.zero_add]
  have hmoved : Tiled { s with lfree := if s.lfree = extent 12 xs + 12 + n then extent 12 xs else
      s.lfree } (xs ++ ⟨false, n⟩ :: ⟨false, m⟩ :: ys) := h.of_mem (keeps_lfree s _ []) rfl
  refine ⟨hmoved.absorb, ?_, ?_, ?_, ?_, ?_, rfl, rfl⟩
  · rw [hblocks]
    exact (keeps_lfree s _ _).trans hmoved.keeps_absorb
  · rw [hblocks, blocks_append, blocks_free, Nat.zero_add, hsame]
  · rw [hfrees, hfrees']
    intro q hq
    simp only [List.mem_append, List.mem_cons] at hq ⊢
    tauto
  · change (if s.lfree = extent 12 xs + 12 + n then extent 12 xs else s.lfree) ≤ s.lfree
    split
    · omega
    · exact Nat.le_refl _
  · intro hfree
    change (if s.lfree = extent 12 xs + 12 + n then extent 12 xs else s.lfree) ∈ _ ∨
      (if s.lfree = extent 12 xs + 12 + n then extent 12 xs else s.lfree) = s.heapEnd
    rw [FreeOrEnd, hfrees] at hfree
    rw [hfrees']
    split
    · exact .inl (by simp)
    · rename_i hne
      simp only [List.mem_append, List.mem_cons] at hfree ⊢
      tauto

end SmallMem

end ControlBoard
