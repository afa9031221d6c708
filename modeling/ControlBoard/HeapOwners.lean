import ControlBoard.Lib.Keyed
import ControlBoard.Lib.Transition
import ControlBoard.SmallMemCalls
import Mathlib.Data.List.Nodup

/-!
# Those who use the heap

Runs of the calls of `Kernel/mem.c`, with stores into the blocks in between. Beside the heap stands
what its users think they have: the address of each block, and the bytes they have put there.
-/

namespace ControlBoard

open Tiling

/-- A call, or a store of one byte into a block. -/
inductive HeapCall where
  | malloc (size : Nat)
  | calloc (count size : Nat)
  | realloc (rmem newsize : Nat)
  | free (rmem : Nat)
  | store (rmem i : Nat) (v : UInt8)
  deriving DecidableEq, Repr

/-- The heap, and the blocks of its users by address with what is in them. -/
structure HeapRun where
  heap : SmallMem
  owned : List (Nat × List UInt8)

namespace HeapRun

/-- The first bytes of a block as they were, and what is behind them. -/
def resized (old : List UInt8) (heap : SmallMem) (rmem newsize : Nat) : List UInt8 :=
  old.take newsize ++ Memory.read heap.mem (rmem + old.length) (newsize - old.length)

def step (r : HeapRun) : HeapCall → Option HeapRun
  | .malloc size => (r.heap.rtMalloc size).map fun
    | (none, heap) => ⟨heap, r.owned⟩
    | (some p, heap) => ⟨heap, (p, Memory.read heap.mem p size) :: r.owned⟩
  | .calloc count size => (r.heap.rtCalloc count size).map fun
    | (none, heap) => ⟨heap, r.owned⟩
    | (some p, heap) => ⟨heap, (p, List.replicate (count * size) 0) :: r.owned⟩
  | .realloc rmem newsize =>
    let old := (Keyed.lookup rmem r.owned).getD []
    (r.heap.rtRealloc rmem newsize).map fun
      | (none, heap) => ⟨heap, if newsize = 0 then Keyed.erase rmem r.owned else r.owned⟩
      | (some p, heap) => ⟨heap, (p, resized old heap p newsize) :: Keyed.erase rmem r.owned⟩
  | .free rmem => (r.heap.rtFree rmem).map fun heap => ⟨heap, Keyed.erase rmem r.owned⟩
  | .store rmem i v =>
    let old := (Keyed.lookup rmem r.owned).getD []
    some ⟨r.heap.store (rmem + i) [v], Keyed.alter rmem (old.set i v) r.owned⟩

/-- Sizes are such that they can be aligned, and what is given back or stored into is a block. -/
def Proper (r : HeapRun) : HeapCall → Prop
  | .malloc size => size ≤ 0xfffffffc
  | .calloc count size => count * size ≤ 0xfffffffc
  | .realloc rmem newsize => newsize ≤ 0xfffffffc ∧ (rmem = 0 ∨ rmem ∈ Keyed.keys r.owned)
  | .free rmem => rmem = 0 ∨ rmem ∈ Keyed.keys r.owned
  | .store rmem i _ => ∃ bytes ∈ Keyed.lookup rmem r.owned, i < bytes.length

instance (r : HeapRun) : DecidablePred r.Proper
  | .malloc _ => inferInstanceAs (Decidable (_ ≤ _))
  | .calloc _ _ => inferInstanceAs (Decidable (_ ≤ _))
  | .realloc _ _ => inferInstanceAs (Decidable (_ ∧ (_ ∨ _)))
  | .free _ => inferInstanceAs (Decidable (_ ∨ _))
  | .store _ _ _ => inferInstanceAs (Decidable (∃ bytes ∈ Keyed.lookup _ _, _))

end HeapRun

/-! ## What a user has -/

variable {s t : SmallMem} {owned : List (Nat × List UInt8)} {bs bs' : List (Nat × Nat)}
  {o : Nat × List UInt8} {a m : Nat} {bytes : List UInt8}

/-- A block of the heap has room for the bytes, and they are in it. -/
def Held (s : SmallMem) (bs : List (Nat × Nat)) (o : Nat × List UInt8) : Prop :=
  ∃ b ∈ bs, o.1 = s.heapPtr + b.1 ∧ o.2.length ≤ b.2 ∧ Memory.read s.mem o.1 o.2.length = o.2

/-- Every block belongs to one user, who finds in it what was put there. -/
structure Owns (s : SmallMem) (owned : List (Nat × List UInt8)) (bs : List (Nat × Nat)) : Prop where
  perm : (Keyed.keys owned).Perm (bs.map fun b => s.heapPtr + b.1)
  held : ∀ o ∈ owned, Held s bs o

theorem Held.keeps (h : Held s bs o) (hkeeps : s.Keeps t bs) : Held t bs o := by
  obtain ⟨b, hb, haddr, hlen, hread⟩ := h
  refine ⟨b, hb, by rw [hkeeps.heapPtr, haddr], hlen, Eq.trans ?_ hread⟩
  apply Memory.read_congr
  intro i hi
  rw [haddr]
  exact hkeeps.mem b hb i (by omega)

theorem Owns.keeps (h : Owns s owned bs) (hkeeps : s.Keeps t bs) : Owns t owned bs where
  perm := by
    rw [hkeeps.heapPtr]
    exact h.perm
  held o ho := (h.held o ho).keeps hkeeps

/-- A new block. -/
theorem Owns.add (h : Owns s owned (bs ++ bs')) (hlen : bytes.length ≤ m)
    (hread : Memory.read s.mem (s.heapPtr + a) bytes.length = bytes) :
    Owns s ((s.heapPtr + a, bytes) :: owned) (bs ++ (a, m) :: bs') where
  perm := by
    rw [Keyed.keys_cons, List.map_append, List.map_cons]
    refine (List.Perm.cons _ ?_).trans List.perm_middle.symm
    rw [← List.map_append]
    exact h.perm
  held := by
    intro o ho
    rcases List.mem_cons.mp ho with rfl | ho
    · exact ⟨(a, m), by simp, rfl, hlen, hread⟩
    · obtain ⟨b, hb, hheld⟩ := h.held o ho
      refine ⟨b, ?_, hheld⟩
      simp only [List.mem_append, List.mem_cons] at hb ⊢
      exact hb.imp_right .inr

/-- The addresses of the blocks are different. -/
theorem Owns.nodup (h : Owns s owned bs) (hnodup : (bs.map Prod.fst).Nodup) :
    (Keyed.keys owned).Nodup := by
  have hsame : bs.map (fun b => s.heapPtr + b.1) = (bs.map Prod.fst).map (s.heapPtr + ·) := by
    rw [List.map_map]
    rfl
  rw [h.perm.nodup_iff, hsame]
  exact List.Nodup.map (fun _ _ => Nat.add_left_cancel) hnodup

/-- A block that is given back. -/
theorem Owns.remove (h : Owns s owned (bs ++ (a, m) :: bs'))
    (hnodup : ((bs ++ (a, m) :: bs').map Prod.fst).Nodup) :
    Owns s (Keyed.erase (s.heapPtr + a) owned) (bs ++ bs') := by
  have hmem : s.heapPtr + a ∈ Keyed.keys owned :=
    h.perm.mem_iff.mpr (List.mem_map.mpr ⟨(a, m), by simp, rfl⟩)
  obtain ⟨os, bytes, os', rfl, hnot, -, herase⟩ := Keyed.split_of_mem (h.nodup hnodup) hmem
  rw [herase]
  have hperm := h.perm
  rw [Keyed.keys, List.map_append, List.map_cons, List.map_append, List.map_cons] at hperm
  refine ⟨?_, fun o ho => ?_⟩
  · have hrest := (List.perm_middle.symm.trans hperm).trans List.perm_middle
    rw [Keyed.keys, List.map_append, List.map_append]
    exact hrest.cons_inv
  · have ho' : o ∈ os ++ (s.heapPtr + a, bytes) :: os' := by
      simp only [List.mem_append, List.mem_cons] at ho ⊢
      exact ho.imp_right .inr
    obtain ⟨b, hb, haddr, hheld⟩ := h.held o ho'
    refine ⟨b, ?_, haddr, hheld⟩
    simp only [List.mem_append, List.mem_cons] at hb ⊢
    rcases hb with hb | rfl | hb
    · exact .inl hb
    · exact absurd (List.mem_map.mpr ⟨o, ho, haddr⟩) hnot
    · exact .inr hb

/-- A store into one block leaves the others as they were. -/
theorem keeps_store {i : Nat} (hbs : ∀ b ∈ bs, b.1 + b.2 ≤ a + i ∨ a + i + bytes.length ≤ b.1) :
    s.Keeps (s.store (s.heapPtr + (a + i)) bytes) bs :=
  ⟨rfl, rfl, rfl, fun b hb k hk => by
    rcases hbs b hb with h | h
    · exact Memory.write_of_lt (by omega)
    · exact Memory.write_of_ge (by omega)⟩

/-- A store leaves the heap where it is. -/
theorem stays_store (s : SmallMem) (p : Nat) (bytes : List UInt8) :
    s.Keeps (s.store p bytes) [] := ⟨rfl, rfl, rfl, fun _ hb => absurd hb List.not_mem_nil⟩

theorem Owns.of_perm {owned' : List (Nat × List UInt8)} (h : Owns s owned bs)
    (hperm : owned'.Perm owned) : Owns s owned' bs :=
  ⟨(hperm.map Prod.fst).trans h.perm, fun o ho => h.held o (hperm.mem_iff.mp ho)⟩

theorem nodup_blocks (cs : List Cell) : ((blocks 12 0 cs).map Prod.fst).Nodup := by
  rw [List.nodup_iff_pairwise_ne, List.pairwise_map]
  exact pairwise_blocks.imp fun h heq => by omega

/-! ## What the calls do to it -/

variable {cs cs' : List Cell} {n : Nat}

theorem Owns.mono_keeps (h : Owns s owned (bs ++ bs')) (hkeeps : s.Keeps t (bs ++ (a, m) :: bs')) :
    Owns t owned (bs ++ bs') :=
  h.keeps (hkeeps.mono fun b hb => by
    simp only [List.mem_append, List.mem_cons] at hb ⊢
    exact hb.imp_right .inr)

theorem Owns.allocates (h : Owns s owned (blocks 12 0 cs)) (hnew : s.Allocates t cs cs' a m)
    (hlen : bytes.length ≤ m)
    (hread : Memory.read t.mem (s.heapPtr + a) bytes.length = bytes) :
    Owns t ((s.heapPtr + a, bytes) :: owned) (blocks 12 0 cs') := by
  obtain ⟨bs, bs', hold, hblocks⟩ := hnew.blocks_eq
  have hkeeps := hnew.keeps
  rw [hold] at h
  rw [hblocks] at hkeeps ⊢
  rw [← hkeeps.heapPtr] at hread ⊢
  exact (h.mono_keeps hkeeps).add hlen hread

theorem Owns.releases (h : Owns s owned (blocks 12 0 cs)) (hfree : s.Releases t cs cs' a m) :
    Owns t (Keyed.erase (s.heapPtr + a) owned) (blocks 12 0 cs') := by
  obtain ⟨bs, bs', hold, hblocks⟩ := hfree.blocks_eq
  have hkeeps := hfree.keeps
  have hnodup := nodup_blocks cs
  rw [hold] at h hnodup
  rw [hblocks] at hkeeps ⊢
  exact (h.remove hnodup).keeps hkeeps

/-- A block with other bytes in it, and perhaps less of them. -/
theorem Owns.replace (h : Owns s owned (blocks 12 0 cs))
    (hold : blocks 12 0 cs = bs ++ (a, n) :: bs') (hkeeps : s.Keeps t (bs ++ bs')) (hlen : bytes.length ≤ m)
    (hread : Memory.read t.mem (s.heapPtr + a) bytes.length = bytes) :
    Owns t ((s.heapPtr + a, bytes) :: Keyed.erase (s.heapPtr + a) owned) (bs ++ (a, m) :: bs') := by
  have hnodup := nodup_blocks cs
  rw [hold] at h hnodup
  have hrest := (h.remove hnodup).keeps hkeeps
  rw [← hkeeps.heapPtr] at hrest hread ⊢
  exact hrest.add hlen hread

theorem Owns.shrinks (h : Owns s owned (blocks 12 0 cs)) (hcut : s.Shrinks t cs cs' a n m)
    (hlen : bytes.length ≤ m)
    (hread : Memory.read t.mem (s.heapPtr + a) bytes.length = bytes) :
    Owns t ((s.heapPtr + a, bytes) :: Keyed.erase (s.heapPtr + a) owned) (blocks 12 0 cs') := by
  obtain ⟨bs, bs', hold, hblocks⟩ := hcut.blocks_eq
  have hkeeps := hcut.keeps
  rw [hblocks] at hkeeps ⊢
  refine h.replace hold (hkeeps.mono fun b hb => ?_) hlen hread
  simp only [List.mem_append, List.mem_cons] at hb ⊢
  exact hb.imp_right .inr

/-- Bytes are stored into a block. -/
theorem Owns.store {i : Nat} {new : List UInt8} (h : Owns s owned (blocks 12 0 cs))
    (ha : (a, m) ∈ blocks 12 0 cs) (hbytes : i + bytes.length ≤ m) (hlen : new.length ≤ m)
    (hread : Memory.read (s.store (s.heapPtr + (a + i)) bytes).mem (s.heapPtr + a) new.length =
      new) :
    Owns (s.store (s.heapPtr + (a + i)) bytes)
      ((s.heapPtr + a, new) :: Keyed.erase (s.heapPtr + a) owned) (blocks 12 0 cs) := by
  obtain ⟨bs, bs', hold⟩ := List.append_of_mem ha
  have happart : (blocks 12 0 cs).Pairwise fun a b => a.1 + a.2 + 12 ≤ b.1 := pairwise_blocks
  rw [hold, List.pairwise_append] at happart
  obtain ⟨-, hbehind, hbefore⟩ := happart
  have hreplaced := h.replace hold (keeps_store fun b hb => ?_) hlen hread
  · rw [hold]
    exact hreplaced
  · rcases List.mem_append.mp hb with hb | hb
    · have := hbefore b hb (a, m) List.mem_cons_self
      simp only at this
      omega
    · have := List.rel_of_pairwise_cons hbehind hb
      simp only at this
      omega

/-- The rest of a resized block is what is in memory. -/
theorem read_resized {old : List UInt8} {p newsize : Nat}
    (h : Memory.read s.mem p (min newsize old.length) = old.take newsize) :
    Memory.read s.mem p newsize = HeapRun.resized old s p newsize := by
  rw [HeapRun.resized]
  rcases Nat.le_total newsize old.length with hle | hge
  · rw [Nat.min_eq_left hle] at h
    rw [h, Nat.sub_eq_zero_of_le hle]
    exact (List.append_nil _).symm
  · rw [Nat.min_eq_right hge] at h
    obtain ⟨k, rfl⟩ := Nat.exists_eq_add_of_le hge
    rw [← h, Nat.add_sub_cancel_left, Memory.read_add]

theorem resized_congr {old : List UInt8} {newsize : Nat} (hkeeps : s.Keeps t bs)
    (ha : (a, m) ∈ bs) (hsize : newsize ≤ m) :
    HeapRun.resized old t (s.heapPtr + a) newsize =
      HeapRun.resized old s (s.heapPtr + a) newsize := by
  rw [HeapRun.resized, HeapRun.resized]
  congr 1
  apply Memory.read_congr
  intro i hi
  rw [Nat.add_assoc _ old.length]
  exact hkeeps.mem (a, m) ha (old.length + i) (by simp only; omega)

theorem length_resized {old : List UInt8} {p newsize : Nat} :
    (HeapRun.resized old s p newsize).length = newsize := by
  rw [HeapRun.resized, List.length_append, List.length_take, Memory.length_read]
  omega

/-- A block whose bytes have been moved to a new one. -/
theorem Owns.moved {u : SmallMem} {cs'' : List Cell} {a' m' k newsize : Nat} {old : List UInt8}
    (h : Owns s owned (blocks 12 0 cs)) (ha : (a, m) ∈ blocks 12 0 cs)
    (hread : Memory.read s.mem (s.heapPtr + a) old.length = old) (hlen : min newsize old.length ≤ k)
    (hk : k ≤ m) (hk' : k ≤ m') (hnewsize : newsize ≤ m') (hnew : s.Allocates t cs cs' a' m')
    (hold : SmallMem.Releases
      (t.store (s.heapPtr + a') (Memory.read t.mem (s.heapPtr + a) k)) u cs' cs'' a m) :
    Owns u ((s.heapPtr + a', HeapRun.resized old u (s.heapPtr + a') newsize) ::
      Keyed.erase (s.heapPtr + a) owned) (blocks 12 0 cs'') := by
  obtain ⟨bs, bs', hbs, hblocks⟩ := hnew.blocks_eq
  have hptr := hnew.keeps.heapPtr
  have hnodup := nodup_blocks cs'
  have hmem' := hnew.mem
  have hmem := hnew.mem_of_mem ha
  have hne : a' ≠ a := by
    rintro rfl
    rw [hblocks, List.map_append, List.map_cons, List.perm_middle.nodup_iff, ← List.map_append,
      ← hbs] at hnodup
    exact (List.nodup_cons.mp hnodup).1 (List.mem_map.mpr ⟨(a', m), ha, rfl⟩)
  -- the bytes that are copied are the old ones
  have hcopied : Memory.read (t.store (s.heapPtr + a')
      (Memory.read t.mem (s.heapPtr + a) k)).mem (s.heapPtr + a') (min newsize old.length) =
      old.take newsize := by
    have hkept : Memory.read t.mem (s.heapPtr + a) (min newsize old.length) =
        Memory.read s.mem (s.heapPtr + a) (min newsize old.length) :=
      Memory.read_congr fun i hi => hnew.keeps.mem (a, m) hmem i (by simp only; omega)
    rw [SmallMem.store, Memory.read_write_take (by rwa [Memory.length_read]), Memory.take_read,
      Nat.min_eq_left hlen, hkept, ← Memory.take_read, hread]
  have hroom : 0 + (Memory.read t.mem (s.heapPtr + a) k).length ≤ m' := by
    rw [Memory.length_read]
    omega
  have hall := read_resized hcopied
  have hempty : Owns t ((s.heapPtr + a', []) :: owned) (blocks 12 0 cs') :=
    h.allocates hnew (Nat.zero_le m') rfl
  have hstored := hempty.store (i := 0) hmem' hroom (length_resized.trans_le hnewsize) (by
    rw [length_resized, hptr, Nat.add_zero]
    exact hall)
  rw [hptr, Nat.add_zero, Keyed.erase_cons, if_pos rfl] at hstored
  have hfreed := hstored.releases hold
  change Owns u (Keyed.erase (t.heapPtr + a) _) _ at hfreed
  rw [hptr, Keyed.erase_cons, if_neg (by simp only; omega)] at hfreed
  obtain ⟨ds, ds', hds, hblocks'⟩ := hold.blocks_eq
  have hmem'' : (a', m') ∈ blocks 12 0 cs'' := by
    rw [hds] at hmem'
    rw [hblocks']
    simp only [List.mem_append, List.mem_cons, Prod.mk.injEq] at hmem' ⊢
    exact hmem'.imp_right fun h => h.resolve_left fun heq => hne heq.1
  have hsame : HeapRun.resized old u (t.heapPtr + a') newsize = HeapRun.resized old
      (t.store (s.heapPtr + a') (Memory.read t.mem (s.heapPtr + a) k)) (t.heapPtr + a') newsize :=
    resized_congr hold.keeps hmem'' hnewsize
  rw [hptr] at hsame
  rw [hsame]
  exact hfreed

namespace HeapRun

/-- What a user of the heap is promised. -/
structure Good (r : HeapRun) (cs : List Cell) : Prop where
  sound : r.heap.Sound cs
  owns : Owns r.heap r.owned (blocks 12 0 cs)
  unused : blocks 12 0 cs = [] → r.heap.lfree < r.heap.heapEnd

/-- If a block is split by `rt_realloc`, then the block behind it is free, or `lfree` is before. -/
def KeepsLowest (r : HeapRun) : HeapCall → Prop
  | .realloc rmem newsize =>
    let data := rmem - r.heap.heapPtr
    let next := (r.heap.header (data - 12)).next
    rmem ∈ Keyed.keys r.owned → rtAlign newsize ≠ 0 → rtAlign newsize + 24 < next - data →
      (r.heap.header next).used = 0 ∨ r.heap.lfree < data
  | _ => True

instance (r : HeapRun) : DecidablePred r.KeepsLowest
  | .realloc _ _ => inferInstanceAs (Decidable (_ → _ → _ → _ ∨ _))
  | .malloc _ | .calloc _ _ | .free _ | .store _ _ _ => inferInstanceAs (Decidable True)

/-- What one call does. -/
structure Steps (r : HeapRun) (cs : List Cell) (c : HeapCall) (r' : HeapRun) (cs' : List Cell) :
    Prop where
  step : r.step c = some r'
  good : r'.Good cs'
  place : r.heap.Keeps r'.heap []
  lowest : r.heap.Lowest cs → (r'.heap.Lowest cs' ↔ r.KeepsLowest c)

variable {r r' : HeapRun} {c : HeapCall}

/-- A call that changes nothing. -/
theorem Good.stays (h : r.Good cs) (hstep : r.step c = some r)
    (hlowest : r.heap.Lowest cs → r.KeepsLowest c) : r.Steps cs c r cs :=
  ⟨hstep, h, .refl _ _, fun hlow => iff_of_true hlow (hlowest hlow)⟩

/-- A call that gives a new block. -/
theorem Good.gains (h : r.Good cs) {p q : Nat} (hnew : r.heap.Allocates t cs cs' q m)
    (hstep : r.step c = some ⟨t, (p, bytes) :: r.owned⟩) (hp : p = r.heap.heapPtr + q)
    (hlen : bytes.length ≤ m) (hread : Memory.read t.mem p bytes.length = bytes)
    (hlowest : r.KeepsLowest c) : ∃ r' cs', r.Steps cs c r' cs' := by
  subst hp
  refine ⟨_, cs', hstep, ⟨hnew.sound, h.owns.allocates hnew hlen hread,
    fun hnil => absurd hnil (List.ne_nil_of_mem hnew.mem)⟩, hnew.keeps.mono (List.nil_subset _),
    fun hlow => iff_of_true (hnew.lowest hlow) hlowest⟩

/-- A call that takes a block back. -/
theorem Good.loses (h : r.Good cs) {q : Nat} (hold : r.heap.Releases t cs cs' q m)
    (hstep : r.step c = some ⟨t, Keyed.erase (r.heap.heapPtr + q) r.owned⟩)
    (hlowest : r.KeepsLowest c) : ∃ r' cs', r.Steps cs c r' cs' :=
  ⟨_, cs', hstep, ⟨hold.sound, h.owns.releases hold, fun _ => hold.lfree_lt⟩,
    hold.keeps.mono (List.nil_subset _), fun hlow => iff_of_true (hold.lowest hlow) hlowest⟩

theorem Good.malloc (h : r.Good cs) {size : Nat} (hsize : r.Proper (.malloc size)) :
    ∃ r' cs', r.Steps cs (.malloc size) r' cs' := by
  have hle : size ≤ SmallMem.demand size := SmallMem.le_demand hsize
  rcases h.sound.rtMalloc size with ⟨hmalloc, -⟩ | ⟨q, c, t, m, cs', -, hmalloc, hnew, hm⟩
  · exact ⟨r, cs, h.stays (by rw [HeapRun.step, hmalloc]; rfl) fun _ => trivial⟩
  · refine h.gains hnew (by rw [HeapRun.step, hmalloc]; rfl) (Nat.add_assoc _ q 12) ?_ ?_ trivial
    · rw [Memory.length_read]
      omega
    · rw [Memory.length_read]

theorem Good.calloc (h : r.Good cs) {count size : Nat} (hproper : r.Proper (.calloc count size)) :
    ∃ r' cs', r.Steps cs (.calloc count size) r' cs' := by
  have hsize : count * size ≤ 0xfffffffc := hproper
  have hmod : count * size % 0x100000000 = count * size := Nat.mod_eq_of_lt (by omega)
  have hle := SmallMem.le_demand hsize
  rcases h.sound.rtMalloc (count * size) with
    ⟨hmalloc, -⟩ | ⟨q, c, t, m, cs', -, hmalloc, hnew, hm⟩
  · refine ⟨r, cs, h.stays ?_ fun _ => trivial⟩
    rw [HeapRun.step, SmallMem.rtCalloc, hmod, hmalloc]
    rfl
  · have hlen : (List.replicate (count * size) (0 : UInt8)).length ≤ m := by
      rw [List.length_replicate]
      omega
    have hptr := hnew.keeps.heapPtr
    have hmem := hnew.mem
    have howns : Owns t ((r.heap.heapPtr + (q + 12), []) :: r.owned) (blocks 12 0 cs') :=
      h.owns.allocates hnew (Nat.zero_le m) rfl
    have hstored := hnew.sound.store (i := 0) hmem (by rwa [Nat.zero_add])
    have hfilled := howns.store (i := 0) hmem (by rwa [Nat.zero_add]) hlen (by
      rw [Nat.add_zero]
      exact Memory.read_write_same)
    rw [hptr, Nat.add_zero, Keyed.erase_cons, if_pos rfl] at hfilled
    rw [hptr, Nat.add_zero] at hstored
    refine ⟨⟨_, _⟩, cs', ?_, ⟨hstored, hfilled,
      fun hnil => absurd hnil (List.ne_nil_of_mem hmem)⟩,
      (hnew.keeps.mono (List.nil_subset _)).trans (stays_store _ _ _),
      fun hlow => iff_of_true (hnew.lowest hlow) trivial⟩
    rw [HeapRun.step, SmallMem.rtCalloc, hmod, hmalloc, ← Nat.add_assoc]
    rfl

/-- The block that a user means, and what is in it. -/
theorem Good.block_of_mem (h : r.Good cs) {rmem : Nat} (hmem : rmem ∈ Keyed.keys r.owned) :
    ∃ old a m, Keyed.lookup rmem r.owned = some old ∧ (a, m) ∈ blocks 12 0 cs ∧
      rmem = r.heap.heapPtr + a ∧ old.length ≤ m ∧
      Memory.read r.heap.mem rmem old.length = old := by
  have hnodup := h.owns.nodup (nodup_blocks cs)
  obtain ⟨os, old, os', hsplit, -, hlookup, -⟩ := Keyed.split_of_mem hnodup hmem
  obtain ⟨b, hb, hheld⟩ := h.owns.held (rmem, old) (by rw [hsplit]; simp)
  exact ⟨old, b.1, b.2, hlookup, hb, hheld⟩

theorem Good.zero_notMem (h : r.Good cs) : 0 ∉ Keyed.keys r.owned := by
  intro hmem
  obtain ⟨old, a, m, -, hb, hzero, -⟩ := h.block_of_mem hmem
  have := (blocks_bounds hb).1
  simp only at this
  omega

theorem Good.free (h : r.Good cs) {rmem : Nat} (hproper : r.Proper (.free rmem)) :
    ∃ r' cs', r.Steps cs (.free rmem) r' cs' := by
  rcases hproper with rfl | hmem
  · refine ⟨r, cs, h.stays ?_ fun _ => trivial⟩
    rw [HeapRun.step, SmallMem.rtFree, if_pos rfl, Keyed.erase_of_notMem h.zero_notMem]
    rfl
  · obtain ⟨old, a, m, -, hb, rfl, -⟩ := h.block_of_mem hmem
    obtain ⟨t, cs', hfree, hreleases⟩ := h.sound.rtFree hb
    exact h.loses hreleases (by rw [HeapRun.step, hfree]; rfl) trivial

theorem Good.store (h : r.Good cs) {rmem i : Nat} {v : UInt8}
    (hproper : r.Proper (.store rmem i v)) : ∃ r' cs', r.Steps cs (.store rmem i v) r' cs' := by
  obtain ⟨bytes, hbytes, hi⟩ := hproper
  have hmem : rmem ∈ Keyed.keys r.owned := by
    by_contra hnot
    rw [Keyed.lookup_eq_none.mpr hnot] at hbytes
    cases hbytes
  obtain ⟨old, a, m, hlookup, hb, rfl, hlen, hread⟩ := h.block_of_mem hmem
  rw [hlookup] at hbytes
  cases hbytes
  have hroom : i + [v].length ≤ m := by
    rw [List.length_singleton]
    omega
  have hset : Memory.read (r.heap.store (r.heap.heapPtr + (a + i)) [v]).mem (r.heap.heapPtr + a)
      (bytes.set i v).length = bytes.set i v := by
    rw [List.length_set, SmallMem.store, ← Nat.add_assoc]
    exact Memory.read_write_set hread
  have hstored := h.owns.store hb hroom (by rwa [List.length_set]) hset
  have hnodup := h.owns.nodup (nodup_blocks cs)
  refine ⟨⟨_, _⟩, cs, ?_, ⟨h.sound.store hb hroom,
    hstored.of_perm (Keyed.alter_perm hnodup hmem (bytes.set i v)), h.unused⟩,
    stays_store _ _ _, fun hlow => iff_of_true hlow trivial⟩
  rw [HeapRun.step, hlookup, Nat.add_assoc]
  rfl

theorem Good.realloc_null (h : r.Good cs) {newsize : Nat} (hsize : newsize ≤ 0xfffffffc) :
    ∃ r' cs', r.Steps cs (.realloc 0 newsize) r' cs' := by
  have hnone : Keyed.lookup 0 r.owned = none := Keyed.lookup_eq_none.mpr h.zero_notMem
  have herase := Keyed.erase_of_notMem h.zero_notMem
  have haligned := (rtAlign_of_le hsize).1
  have hlowest : r.KeepsLowest (.realloc 0 newsize) := fun hmem => absurd hmem h.zero_notMem
  have hstep : r.step (.realloc 0 newsize) = (r.heap.rtRealloc 0 newsize).map fun
      | (none, heap) => ⟨heap, r.owned⟩
      | (some p, heap) => ⟨heap, (p, resized [] heap p newsize) :: r.owned⟩ := by
    rw [HeapRun.step, hnone, herase]
    simp only [ite_self]
    rfl
  rw [SmallMem.rtRealloc_null] at hstep
  by_cases hbig : rtAlign newsize > r.heap.memSizeAligned
  · rw [if_pos hbig] at hstep
    exact ⟨r, cs, h.stays hstep fun _ => hlowest⟩
  rw [if_neg hbig] at hstep
  by_cases hzero : rtAlign newsize = 0
  · rw [if_pos hzero] at hstep
    exact ⟨r, cs, h.stays hstep fun _ => hlowest⟩
  rw [if_neg hzero] at hstep
  rcases h.sound.rtMalloc (rtAlign newsize) with
    ⟨hmalloc, -⟩ | ⟨q, c, t, m, cs', -, hmalloc, hnew, hm⟩
  · rw [hmalloc] at hstep
    exact ⟨r, cs, h.stays hstep fun _ => hlowest⟩
  · have hdemand := SmallMem.rtAlign_le_demand (rtAlign newsize)
    rw [SmallMem.rtAlign_idem] at hdemand
    rw [hmalloc] at hstep
    refine h.gains hnew hstep (Nat.add_assoc _ q 12) (length_resized.trans_le (by omega)) ?_ hlowest
    rw [length_resized]
    exact read_resized (by simp [Memory.read])

/-- What `KeepsLowest` says about a block of the heap. -/
theorem Good.keepsLowest_iff (h : r.Good cs) {n newsize : Nat} (ha : (a, n) ∈ blocks 12 0 cs) :
    r.KeepsLowest (.realloc (r.heap.heapPtr + a) newsize) ↔
      (r.heap.heapPtr + a ∈ Keyed.keys r.owned → rtAlign newsize ≠ 0 →
        rtAlign newsize + 24 < n → a + n ∈ frees 12 0 cs ∨ r.heap.lfree < a) := by
  obtain ⟨q, hplace, hq⟩ := mem_blocks.mp ha
  obtain ⟨xs, ys, rfl, hat⟩ := mem_place.mp hplace
  rw [Nat.zero_add] at hat
  simp only at hq hat
  subst hq hat
  have hdata : r.heap.heapPtr + (extent 12 xs + 12) - r.heap.heapPtr = extent 12 xs + 12 :=
    Nat.add_sub_cancel_left _ _
  have hspan : extent 12 xs + 12 + n - (extent 12 xs + 12) = n := Nat.add_sub_cancel_left _ _
  rw [KeepsLowest, hdata, Nat.add_sub_cancel, h.sound.tiled.next_eq]
  simp only [hspan]
  rw [h.sound.tiled.used_behind]

/-- Only a block that is split can lose `lfree`. -/
theorem Good.keepsLowest_of_le (h : r.Good cs) {n newsize : Nat} (ha : (a, n) ∈ blocks 12 0 cs)
    (hlarge : rtAlign newsize ≠ 0 → n ≤ rtAlign newsize + 24) :
    r.KeepsLowest (.realloc (r.heap.heapPtr + a) newsize) :=
  (h.keepsLowest_iff ha).mpr fun _ hsize hroom => absurd hroom (Nat.not_lt.mpr (hlarge hsize))

theorem step_realloc {rmem p newsize : Nat} {old : List UInt8}
    (hrealloc : r.heap.rtRealloc rmem newsize = some (some p, t))
    (hlookup : Keyed.lookup rmem r.owned = some old) : r.step (.realloc rmem newsize) =
      some ⟨t, (p, resized old t p newsize) :: Keyed.erase rmem r.owned⟩ := by
  rw [HeapRun.step, hrealloc, hlookup]
  rfl

theorem Good.realloc (h : r.Good cs) {rmem newsize : Nat}
    (hproper : r.Proper (.realloc rmem newsize)) :
    ∃ r' cs', r.Steps cs (.realloc rmem newsize) r' cs' := by
  obtain ⟨hsize, rfl | hmem⟩ := hproper
  · exact h.realloc_null hsize
  obtain ⟨old, a, m, hlookup, hb, rfl, hlen, hread⟩ := h.block_of_mem hmem
  obtain ⟨res, hrealloc, hres⟩ := h.sound.rtRealloc hb newsize
  have haligned := (rtAlign_of_le hsize).1
  have hzero : newsize = 0 ↔ rtAlign newsize = 0 := by
    unfold rtAlign
    omega
  have htake : Memory.read r.heap.mem (r.heap.heapPtr + a) (min newsize old.length) =
      old.take newsize := by
    rw [← Memory.take_read, hread]
  cases hres with
  | refused hnonzero hlarge hchoice =>
    refine ⟨r, cs, h.stays ?_ fun _ => h.keepsLowest_of_le hb fun _ => hlarge⟩
    rw [HeapRun.step, hrealloc, Option.map_some]
    simp only
    rw [if_neg (hzero.not.mpr hnonzero)]
  | freed hfree hold =>
    refine h.loses hold ?_ (h.keepsLowest_of_le hb fun hne => absurd hfree hne)
    rw [HeapRun.step, hrealloc, Option.map_some]
    simp only
    rw [if_pos (hzero.mpr hfree)]
  | same hsame =>
    obtain ⟨bs, bs', hold⟩ := List.append_of_mem hb
    have howns := h.owns.replace hold (.refl r.heap _) (length_resized.trans_le haligned)
      (by rw [length_resized]; exact read_resized htake)
    rw [hsame, ← hold] at howns
    exact ⟨_, cs, step_realloc hrealloc hlookup, ⟨h.sound, howns, h.unused⟩, .refl _ _, fun hlow =>
      iff_of_true hlow (h.keepsLowest_of_le hb fun _ => by omega)⟩
  | @shrunk t cs' hnonzero hroom hcut =>
    have hkept : Memory.read t.mem (r.heap.heapPtr + a) (min newsize old.length) =
        old.take newsize := by
      rw [← htake]
      exact Memory.read_congr fun i hi => hcut.keeps.mem (a, _) hcut.mem i (by simp only; omega)
    have howns := h.owns.shrinks hcut (length_resized.trans_le haligned)
      (by rw [length_resized]; exact read_resized hkept)
    refine ⟨_, cs', step_realloc hrealloc hlookup,
      ⟨hcut.sound, howns, fun hnil => absurd hnil (List.ne_nil_of_mem hcut.mem)⟩,
      hcut.keeps.mono (List.nil_subset _), fun hlow => ?_⟩
    rw [hcut.lowest hlow, h.keepsLowest_iff hb]
    exact ⟨fun hbehind _ _ _ => hbehind, fun hkeeps => hkeeps hmem hnonzero hroom⟩
  | moved hlarge hnewsize hnew hold =>
    have howns := h.owns.moved hb hread (by split <;> omega) (by split <;> omega)
      (by split <;> omega) (haligned.trans hnewsize) hnew hold
    refine ⟨_, _, step_realloc hrealloc hlookup,
      ⟨hold.sound, howns, fun _ => hold.lfree_lt⟩, ?_, fun hlow => ?_⟩
    · exact ((hnew.keeps.mono (List.nil_subset _)).trans (stays_store _ _ _)).trans
        (hold.keeps.mono (List.nil_subset _))
    · exact iff_of_true (hold.lowest (hnew.lowest hlow)) (h.keepsLowest_of_le hb fun _ => hlarge)

theorem Good.step (h : r.Good cs) (hproper : r.Proper c) : ∃ r' cs', r.Steps cs c r' cs' := by
  cases c with
  | malloc size => exact h.malloc hproper
  | calloc count size => exact h.calloc hproper
  | realloc rmem newsize => exact h.realloc hproper
  | free rmem => exact h.free hproper
  | store rmem i v => exact h.store hproper

end HeapRun

end ControlBoard
