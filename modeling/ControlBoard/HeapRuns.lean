import ControlBoard.HeapOwners

/-!
# Runs of the heap

From `rt_system_heap_init` on, every run of calls: what is promised to the users of the heap, when
`rt_malloc` refuses, and what is left when all is given back.
-/

namespace ControlBoard

open Tiling

/-- An area with room for both headers and for a block. -/
structure HeapArea (beginAddr endAddr : Nat) : Prop where
  begin_le : beginAddr ≤ 0xfffffffc
  end_lt : endAddr < 0x100000000
  large : rtAlign beginAddr + 36 ≤ rtAlignDown endAddr

namespace HeapRun

/-- A heap that nobody uses yet. -/
def start (heap : SmallMem) : HeapRun := ⟨heap, []⟩

/-- The promise to the users: each block is aligned, in the area and apart from the headers and the
other blocks, and there is in it what was put there. -/
structure Kept (beginAddr endAddr : Nat) (r : HeapRun) : Prop where
  place : ∀ o ∈ r.owned, 4 ∣ o.1 ∧ beginAddr + 12 ≤ o.1 ∧ o.1 + o.2.length + 12 ≤ endAddr
  apart : r.owned.Pairwise fun o o' =>
    o.1 + o.2.length + 12 ≤ o'.1 ∨ o'.1 + o'.2.length + 12 ≤ o.1
  bytes : ∀ o ∈ r.owned, Memory.read r.heap.mem o.1 o.2.length = o.2

variable {mem : Nat → UInt8} {beginAddr endAddr : Nat} {heap : SmallMem} {r : HeapRun}
  {cs : List Cell} {calls : List HeapCall}

/-- What `rt_system_heap_init` makes of an area. -/
theorem rtSystemHeapInit_eq (harea : HeapArea beginAddr endAddr)
    (hinit : SmallMem.rtSystemHeapInit mem beginAddr endAddr = some heap) : heap =
      SmallMem.initHeap mem (rtAlign beginAddr) (rtAlignDown endAddr - rtAlign beginAddr - 24) := by
  have hlarge := harea.large
  have haccepted : rtAlignDown endAddr > 2 * sizeofStructMem ∧
      rtAlignDown endAddr - 2 * sizeofStructMem ≥ rtAlign beginAddr := by
    rw [sizeofStructMem]
    omega
  rw [SmallMem.rtSystemHeapInit] at hinit
  rw [if_pos haccepted] at hinit
  exact (Option.some.inj hinit).symm

theorem good_start (harea : HeapArea beginAddr endAddr)
    (hinit : SmallMem.rtSystemHeapInit mem beginAddr endAddr = some heap) :
    (start heap).Good [⟨false, rtAlignDown endAddr - rtAlign beginAddr - 24⟩] ∧
      beginAddr ≤ heap.heapPtr ∧ heap.heapPtr + heap.heapEnd + 12 ≤ endAddr := by
  have hlarge := harea.large
  have hend := harea.end_lt
  have hbegin := (rtAlign_of_le harea.begin_le).1
  have hdown : rtAlignDown endAddr ≤ endAddr ∧ 4 ∣ rtAlignDown endAddr := by
    unfold rtAlignDown
    omega
  have hup := rtAlign_dvd beginAddr
  rw [rtSystemHeapInit_eq harea hinit]
  refine ⟨⟨SmallMem.sound_initHeap mem hup (by omega) (by omega) (by omega), ⟨.nil, ?_⟩, ?_⟩, ?_,
    ?_⟩
  · intro o ho
    exact absurd ho List.not_mem_nil
  · intro _
    exact Nat.succ_pos _
  · exact hbegin
  · change rtAlign beginAddr + (_ + 12) + 12 ≤ endAddr
    omega

theorem Good.kept (h : r.Good cs) (hbegin : beginAddr ≤ r.heap.heapPtr)
    (hend : r.heap.heapPtr + r.heap.heapEnd + 12 ≤ endAddr) : r.Kept beginAddr endAddr := by
  have hheld := h.owns.held
  refine ⟨fun o ho => ?_, ?_, fun o ho => ?_⟩
  · obtain ⟨b, hb, haddr, hlen, -⟩ := hheld o ho
    have hbounds := blocks_bounds hb
    have hdvd := h.sound.tiled.dvd_block hb
    have haligned := h.sound.tiled.aligned
    rw [h.sound.tiled.extent_eq] at hbounds
    rw [haddr]
    exact ⟨Nat.dvd_add haligned hdvd, by omega, by omega⟩
  · have hnodup := h.owns.nodup (nodup_blocks cs)
    rw [Keyed.keys, List.nodup_iff_pairwise_ne, List.pairwise_map] at hnodup
    refine hnodup.imp_of_mem fun {o o'} ho ho' hne => ?_
    obtain ⟨b, hb, haddr, hlen, -⟩ := hheld o ho
    obtain ⟨b', hb', haddr', hlen', -⟩ := hheld o' ho'
    have := blocks_apart_of_ne hb hb' (by omega)
    omega
  · obtain ⟨-, -, -, -, hread⟩ := hheld o ho
    exact hread

/-- The heap of 256 bytes of memory. -/
def sampleHeap : SmallMem := SmallMem.initHeap (fun _ => 0) 0x20000000 0xe8

theorem sampleArea : HeapArea 0x20000000 0x20000100 := ⟨by decide, by decide, by decide⟩

theorem sampleInit :
    SmallMem.rtSystemHeapInit (fun _ => 0) 0x20000000 0x20000100 = some sampleHeap := rfl

/-- A block grows and is moved, another shrinks where it is, and all are given back. -/
def sampleCalls : List HeapCall :=
  [.malloc 10, .calloc 2 8, .store 0x2000000c 3 7, .realloc 0x2000000c 60, .malloc 10,
    .free 0x20000024, .realloc 0x20000040 12, .realloc 0 5, .free 0x20000040, .free 0,
    .realloc 0x2000000c 0, .free 0x20000024]

/-- A step of users who keep to the rules. -/
def properStep (r : HeapRun) (c : HeapCall) : Option HeapRun :=
  if r.Proper c then r.step c else none

theorem good_properStep {r' : HeapRun} {c : HeapCall} (h : r.Good cs)
    (hstep : r.properStep c = some r') : ∃ cs', r.Steps cs c r' cs' := by
  rw [properStep] at hstep
  split at hstep
  · rename_i hproper
    obtain ⟨u, cs', hsteps⟩ := h.step hproper
    rw [hsteps.step] at hstep
    cases hstep
    exact ⟨cs', hsteps⟩
  · cases hstep

/-- What holds in every state of such a run. -/
theorem good_of_run {r' : HeapRun} (h : r.Good cs)
    (hrun : Transition.run properStep r calls = some r') :
    ∃ cs', r'.Good cs' ∧ r.heap.Keeps r'.heap [] := by
  have hinv : ∀ t c t', (∃ cs, t.Good cs ∧ r.heap.Keeps t.heap []) → properStep t c = some t' →
      ∃ cs, t'.Good cs ∧ r.heap.Keeps t'.heap [] := by
    rintro t c t' ⟨cs, ht, hkeeps⟩ hstep
    obtain ⟨cs', hsteps⟩ := good_properStep ht hstep
    exact ⟨cs', hsteps.good, hkeeps.trans hsteps.place⟩
  exact Transition.run_invariant hinv ⟨cs, h, .refl _ _⟩ hrun

theorem Good.blocks_eq_nil (h : r.Good cs) : blocks 12 0 cs = [] ↔ r.owned = [] := by
  have hlen := h.owns.perm.length_eq
  rw [Keyed.keys, List.length_map, List.length_map] at hlen
  rw [← List.length_eq_zero_iff, ← List.length_eq_zero_iff, hlen]

theorem Good.usedMem_eq_zero (h : r.Good cs) : r.heap.usedMem = 0 ↔ r.owned = [] := by
  rw [← h.blocks_eq_nil, h.sound.usedMem, SmallMem.usedBytes]
  cases blocks 12 0 cs with
  | nil => simp [spent]
  | cons b bs => simp [spent]

/-- Without blocks, a heap is one free block, and `lfree` is at it. -/
theorem Good.eq_singleton (h : r.Good cs) (hnone : r.owned = []) :
    cs = [⟨false, r.heap.heapEnd - 12⟩] ∧ r.heap.lfree = 0 := by
  have hblocks := h.blocks_eq_nil.mpr hnone
  have hlarge := h.sound.large
  have hextent := h.sound.tiled.extent_eq
  have hend := h.sound.tiled.heapEnd_eq
  have hfree := h.sound.freeOrEnd
  have hunused := h.unused hblocks
  rcases h.sound.coalesced.eq_singleton hblocks with rfl | ⟨n, rfl⟩
  · rw [extent_nil] at hextent
    omega
  · rw [extent_cons, extent_nil] at hextent
    have hn : n = r.heap.heapEnd - 12 := by
      simp only at hextent
      omega
    rcases hfree with hmem | hat
    · rw [hn]
      exact ⟨rfl, List.mem_singleton.mp hmem⟩
    · omega

/-- Where the cells and `lfree` are the same, `rt_malloc` has the same answer. -/
theorem rtMalloc_congr {s t : SmallMem} (hs : s.Sound cs) (ht : t.Sound cs)
    (hkeeps : s.Keeps t []) (hlfree : t.lfree = s.lfree) (size : Nat) :
    (t.rtMalloc size).map Prod.fst = (s.rtMalloc size).map Prod.fst := by
  have hchoice : t.choice cs size = s.choice cs size := by
    rw [SmallMem.choice, SmallMem.choice, hlfree, hkeeps.memSizeAligned]
  by_cases hsize : size = 0
  · rw [SmallMem.rtMalloc, SmallMem.rtMalloc, if_pos hsize, if_pos hsize]
    rfl
  rcases hs.rtMalloc size with ⟨hnull, hnone⟩ | ⟨q, c, u, m, cs', hsome, hgiven, -⟩
  · rcases ht.rtMalloc size with ⟨hnull', -⟩ | ⟨q, c, u, m, cs', hsome, -⟩
    · rw [hnull, hnull']
      rfl
    · rw [hchoice, hnone.resolve_left hsize] at hsome
      cases hsome
  · rcases ht.rtMalloc size with ⟨-, hnone⟩ | ⟨q', c', u', m', cs'', hsome', hgiven', -⟩
    · rw [← hchoice, hnone.resolve_left hsize] at hsome
      cases hsome
    · rw [hchoice, hsome] at hsome'
      cases hsome'
      rw [hgiven, hgiven', hkeeps.heapPtr]
      rfl

/-- The bytes in use are counted, and when all is given back the heap is as at the start: one free
block, and `rt_malloc` has the answers that it had. -/
theorem run_given_back (harea : HeapArea beginAddr endAddr)
    (hinit : SmallMem.rtSystemHeapInit mem beginAddr endAddr = some heap)
    (hrun : Transition.run properStep (start heap) calls = some r) :
    (r.heap.usedMem = 0 ↔ r.owned = []) ∧ (r.owned = [] →
      r.heap.lfree = heap.lfree ∧ r.heap.header 0 = heap.header 0 ∧
        ∀ size, (r.heap.rtMalloc size).map Prod.fst = (heap.rtMalloc size).map Prod.fst) := by
  obtain ⟨hstart, -⟩ := good_start harea hinit
  obtain ⟨cs, hgood, hkeeps⟩ := good_of_run hstart hrun
  refine ⟨hgood.usedMem_eq_zero, fun hnone => ?_⟩
  · obtain ⟨hcs, hlfree⟩ := hgood.eq_singleton hnone
    obtain ⟨hcs', hlfree'⟩ := hstart.eq_singleton rfl
    have hsame : cs = [⟨false, rtAlignDown endAddr - rtAlign beginAddr - 24⟩] := by
      rw [hcs, hcs', hkeeps.heapEnd]
    subst hsame
    have hlow : r.heap.lfree = heap.lfree := hlfree.trans hlfree'.symm
    have hcells : r.heap.Tiled ([] ++ [⟨false, _⟩]) := hgood.sound.tiled
    have hcells' : heap.Tiled ([] ++ [⟨false, _⟩]) := hstart.sound.tiled
    exact ⟨hlow, hcells.header_eq.trans hcells'.header_eq.symm,
      rtMalloc_congr hstart.sound hgood.sound hkeeps hlow⟩

theorem run_given_back_sample : ∃ r,
    Transition.run properStep (start sampleHeap) sampleCalls = some r ∧
      ∀ size, (r.heap.rtMalloc size).map Prod.fst = (sampleHeap.rtMalloc size).map Prod.fst := by
  have hdone : (Transition.run properStep (start sampleHeap) sampleCalls).map owned = some [] := by
    decide +kernel
  obtain ⟨r, hrun, hnone⟩ := Option.map_eq_some_iff.mp hdone
  exact ⟨r, hrun, ((run_given_back sampleArea sampleInit hrun).2 hnone).2.2⟩

/-! ## What `rt_malloc` refuses -/

/-- The headers of the heap in their order. -/
def allHeaders (s : SmallMem) : List (Nat × HeapMem) := s.headers (s.memSizeAligned + 1) 0

theorem mem_allHeaders {s : SmallMem} {x : Nat × HeapMem} (h : s.Tiled cs) :
    x ∈ allHeaders s ↔ ∃ c prev, (x.1, c) ∈ place 12 0 cs ∧ s.header x.1 = x.2 ∧
      x.2 = SmallMem.cellHeader c x.1 prev := by
  have hcells : s.Tiled ([] ++ cs) := h
  have hheaders := hcells.headers (Nat.lt_succ_of_le hcells.length_le)
  rw [extent_nil] at hheaders
  rw [allHeaders, hheaders, List.mem_map]
  constructor
  · rintro ⟨⟨q, c⟩, hmem, rfl⟩
    obtain ⟨prev, hheader⟩ := h.header_of_place hmem
    exact ⟨c, prev, hmem, rfl, hheader⟩
  · rintro ⟨c, prev, hmem, hheader, -⟩
    exact ⟨(x.1, c), hmem, Prod.ext rfl hheader⟩

/-- No free block is before `lfree`. -/
def LfreeFirst (s : SmallMem) : Prop := ∀ x ∈ allHeaders s, x.2.used = 0 → s.lfree ≤ x.1

instance (s : SmallMem) : Decidable (LfreeFirst s) :=
  inferInstanceAs (Decidable (∀ x ∈ allHeaders s, x.2.used = 0 → s.lfree ≤ x.1))

theorem lfreeFirst_iff {s : SmallMem} (h : s.Tiled cs) : LfreeFirst s ↔ s.Lowest cs := by
  constructor
  · intro hfirst q hq
    obtain ⟨n, hmem⟩ := mem_frees.mp hq
    obtain ⟨prev, hheader⟩ := h.header_of_place hmem
    refine hfirst (q, s.header q) ((mem_allHeaders h).mpr ⟨_, prev, hmem, rfl, hheader⟩) ?_
    exact h.used_of_mem_frees hq
  · intro hlow x hx hused
    obtain ⟨⟨used, n⟩, prev, hmem, -, hheader⟩ := (mem_allHeaders h).mp hx
    rw [hheader, SmallMem.cellHeader] at hused
    cases used with
    | true => cases hused
    | false => exact hlow x.1 (mem_frees.mpr ⟨n, hmem⟩)

/-- No free block that `rt_malloc(size)` looks at has room: each that has room is before `lfree`,
or it is the last one and has no byte more. -/
def NoRoom (s : SmallMem) (size : Nat) : Prop :=
  ∀ x ∈ allHeaders s, x.2.used = 0 → SmallMem.demand size ≤ x.2.next - (x.1 + 12) →
    x.1 < s.lfree ∨ x.2.next = s.heapEnd ∧ x.2.next - (x.1 + 12) = SmallMem.demand size

instance (s : SmallMem) (size : Nat) : Decidable (NoRoom s size) :=
  inferInstanceAs (Decidable (∀ x ∈ allHeaders s, x.2.used = 0 →
    SmallMem.demand size ≤ x.2.next - (x.1 + 12) → x.1 < s.lfree ∨ x.2.next = s.heapEnd ∧
      x.2.next - (x.1 + 12) = SmallMem.demand size))

theorem noRoom_iff {s : SmallMem} (h : s.Tiled cs) (size : Nat) :
    NoRoom s size ↔ s.choice cs size = none := by
  have hend := h.heapEnd_eq
  have hextent := h.extent_eq
  rw [SmallMem.choice, List.find?_eq_none]
  have hcell (q : Nat) (n : Nat) (hmem : (q, ⟨false, n⟩) ∈ place 12 0 cs)
      (hsize : SmallMem.demand size ≤ n) : q < s.memSizeAligned - SmallMem.demand size ↔
        ¬ (q + 12 + n = s.heapEnd ∧ n = SmallMem.demand size) := by
    have := place_bounds hmem
    simp only at this
    omega
  constructor
  · rintro hno ⟨q, used, n⟩ hmem
    obtain ⟨prev, hheader⟩ := h.header_of_place hmem
    simp only [suits, Bool.and_eq_true, decide_eq_true_eq, Bool.not_eq_true']
    rintro ⟨hq, hlt, rfl, hsize⟩
    have hx := hno (q, s.header q) ((mem_allHeaders h).mpr ⟨_, prev, hmem, rfl, hheader⟩)
    rw [hheader] at hx
    simp only [SmallMem.cellHeader, Nat.add_sub_cancel_left] at hx
    rcases hx rfl hsize with hbefore | hlast
    · omega
    · exact (hcell q n hmem hsize).mp hlt hlast
  · rintro hno ⟨q, m⟩ hx hused hsize
    obtain ⟨⟨used, n⟩, prev, hmem, -, hheader⟩ := (mem_allHeaders h).mp hx
    simp only at hmem hheader hused hsize ⊢
    rw [hheader] at hused hsize ⊢
    simp only [SmallMem.cellHeader, Nat.add_sub_cancel_left] at hused hsize ⊢
    cases used with
    | true => cases hused
    | false =>
      by_contra hnot
      rw [not_or, Nat.not_lt] at hnot
      have hlt := (hcell q n hmem hsize).mpr hnot.2
      refine hno _ hmem ?_
      simp [suits, hnot.1, hlt, hsize]

/-- The bytes of the block at an address, as `rt_realloc` computes them. -/
def room (s : SmallMem) (rmem : Nat) : Nat :=
  let ptr := rmem - s.heapPtr - sizeofStructMem
  sizeSub (sizeSub (s.header ptr).next ptr) sizeofStructMem

theorem room_eq {s : SmallMem} {a m : Nat} (h : s.Tiled cs) (ha : (a, m) ∈ blocks 12 0 cs) :
    room s (s.heapPtr + a) = m := by
  obtain ⟨q, hmem, hq⟩ := mem_blocks.mp ha
  obtain ⟨xs, ys, rfl, hat⟩ := mem_place.mp hmem
  simp only at hq hat
  rw [Nat.zero_add] at hat
  have hsub : s.heapPtr + a - s.heapPtr - sizeofStructMem = extent 12 xs := by
    rw [sizeofStructMem]
    omega
  rw [room, hsub]
  exact h.size_eq

/-- `RT_ALIGN` comes out as 0 behind the last multiple of four. -/
theorem demand_of_lt {size : Nat} (hbig : 0xfffffffc < size) (hlt : size < 0x100000000) :
    SmallMem.demand size = 12 := by
  have hzero : rtAlign size = 0 := by
    unfold rtAlign
    omega
  rw [SmallMem.demand, hzero]
  rfl

/-- `rt_malloc` returns `RT_NULL` if nothing is asked for or no block that it looks at has room, and
only then; the heap is as it was. A block that it returns has room for `size` bytes exactly if
`size` can be aligned. -/
theorem run_malloc (harea : HeapArea beginAddr endAddr)
    (hinit : SmallMem.rtSystemHeapInit mem beginAddr endAddr = some heap)
    (hrun : Transition.run properStep (start heap) calls = some r) {size : Nat}
    (hlt : size < 0x100000000) :
    if size = 0 ∨ NoRoom r.heap size then r.heap.rtMalloc size = some (none, r.heap)
    else ∃ p heap', r.heap.rtMalloc size = some (some p, heap') ∧
      (size ≤ room heap' p ↔ size ≤ 0xfffffffc) := by
  obtain ⟨hstart, -⟩ := good_start harea hinit
  obtain ⟨cs, hgood, -⟩ := good_of_run hstart hrun
  have hno := noRoom_iff hgood.sound.tiled size
  by_cases hzero : size = 0
  · rw [if_pos (.inl hzero), hzero]
    rfl
  rcases hgood.sound.rtMalloc size with
    ⟨hnull, hnone⟩ | ⟨q, c, t, m, cs', hsome, hgiven, hnew, hm⟩
  · rw [if_pos (.inr (hno.mpr (hnone.resolve_left hzero)))]
    exact hnull
  · have hroomy : ¬ NoRoom r.heap size := by
      rw [hno, hsome]
      exact Option.some_ne_none _
    rw [if_neg (not_or.mpr ⟨hzero, hroomy⟩)]
    refine ⟨_, t, hgiven, ?_⟩
    have hroom := room_eq hnew.sound.tiled hnew.mem
    rw [hnew.keeps.heapPtr, ← Nat.add_assoc] at hroom
    rw [hroom]
    refine ⟨fun hle => ?_, fun hle => (SmallMem.le_demand hle).trans hm.1⟩
    by_contra hbig
    have hdemand := demand_of_lt (Nat.lt_of_not_le hbig) hlt
    omega

theorem run_malloc_sample : ∃ r,
    Transition.run properStep (start sampleHeap) (sampleCalls.take 5) = some r ∧
      if 117 = 0 ∨ NoRoom r.heap 117 then r.heap.rtMalloc 117 = some (none, r.heap)
      else ∃ p heap', r.heap.rtMalloc 117 = some (some p, heap') ∧
        (117 ≤ room heap' p ↔ 117 ≤ 0xfffffffc) := by
  have hdone : (Transition.run properStep (start sampleHeap) (sampleCalls.take 5)).isSome := by
    decide +kernel
  obtain ⟨r, hrun⟩ := Option.isSome_iff_exists.mp hdone
  exact ⟨r, hrun, run_malloc sampleArea sampleInit hrun (by decide)⟩

/-- `lfree` stays at the first free block as long as no `rt_realloc` splits a block with `lfree`
behind it and a used block next to it. -/
theorem run_lfreeFirst (harea : HeapArea beginAddr endAddr)
    (hinit : SmallMem.rtSystemHeapInit mem beginAddr endAddr = some heap)
    (hrun : Transition.run properStep (start heap) calls = some r) :
    Transition.Always properStep (fun r => LfreeFirst r.heap) (start heap) calls ↔
      Transition.StepsMeet properStep KeepsLowest (start heap) calls := by
  obtain ⟨hstart, -⟩ := good_start harea hinit
  have hfirst : LfreeFirst heap := (lfreeFirst_iff hstart.sound.tiled).mpr fun q _ =>
    (Nat.le_of_eq (hstart.eq_singleton rfl).2).trans (Nat.zero_le q)
  have hinv : ∀ r c r', (∃ cs, Good r cs) → LfreeFirst r.heap → properStep r c = some r' →
      LfreeFirst r'.heap → ∃ cs, Good r' cs := by
    rintro r c r' ⟨cs, hgood⟩ - hstep -
    obtain ⟨cs', hsteps⟩ := good_properStep hgood hstep
    exact ⟨cs', hsteps.good⟩
  have hkeeps : ∀ r c r', (∃ cs, Good r cs) → LfreeFirst r.heap → properStep r c = some r' →
      (LfreeFirst r'.heap ↔ r.KeepsLowest c) := by
    rintro r c r' ⟨cs, hgood⟩ hlow hstep
    obtain ⟨cs', hsteps⟩ := good_properStep hgood hstep
    rw [lfreeFirst_iff hsteps.good.sound.tiled]
    exact hsteps.lowest ((lfreeFirst_iff hgood.sound.tiled).mp hlow)
  exact Transition.always_iff_stepsMeet_of_inv hinv hkeeps ⟨_, hstart⟩ hfirst hrun

/-- The second block is in use when the first one is split. -/
theorem run_lfreeFirst_sample :
    ¬ Transition.Always properStep (fun r => LfreeFirst r.heap) (start sampleHeap)
      [.malloc 100, .malloc 10, .realloc 0x2000000c 20] := by
  have hdone : (Transition.run properStep (start sampleHeap)
      [.malloc 100, .malloc 10, .realloc 0x2000000c 20]).isSome := by
    decide +kernel
  obtain ⟨r, hrun⟩ := Option.isSome_iff_exists.mp hdone
  rw [run_lfreeFirst sampleArea sampleInit hrun]
  decide +kernel

end HeapRun

end ControlBoard
