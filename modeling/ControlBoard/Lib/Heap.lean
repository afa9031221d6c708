import Mathlib.Data.List.Pairwise

/-!
# A heap of disjoint blocks

The blocks that are allocated at some time. Two of them never overlap, which is part of the
structure, so a block is known by its address. What is in memory outside of them is the
allocator's, and may change with each of its calls.
-/

/-- An allocated block, and which of the allocations it is. -/
structure Block where
  addr : Nat
  size : Nat
  serial : Nat
  deriving DecidableEq, Repr

namespace Block

/-- The addresses of a block. -/
def Contains (b : Block) (i : Nat) : Prop := b.addr ≤ i ∧ i < b.addr + b.size

instance (b : Block) : DecidablePred b.Contains := fun _ => inferInstanceAs (Decidable (_ ∧ _))

/-- Two blocks do not overlap. -/
def Apart (b c : Block) : Prop := b.addr + b.size ≤ c.addr ∨ c.addr + c.size ≤ b.addr

instance (b c : Block) : Decidable (b.Apart c) := inferInstanceAs (Decidable (_ ∨ _))

variable {b c : Block}

theorem Apart.symm (h : b.Apart c) : c.Apart b := Or.symm h

instance : Std.Symm Apart := ⟨fun _ _ => Apart.symm⟩

theorem Apart.not_contains {i : Nat} (h : b.Apart c) (hi : c.Contains i) : ¬ b.Contains i := by
  intro hb
  obtain ⟨hge, hlt⟩ := hi
  obtain ⟨hge', hlt'⟩ := hb
  rcases h with h | h
  · omega
  · omega

end Block

/-- The allocated blocks. -/
structure Heap where
  live : List Block
  apart : live.Pairwise Block.Apart
  sized : ∀ b ∈ live, 0 < b.size

namespace Heap

def empty : Heap := ⟨[], .nil, by simp⟩

/-- A new block. -/
def alloc (h : Heap) (b : Block) (hapart : ∀ c ∈ h.live, b.Apart c) (hsize : 0 < b.size) : Heap where
  live := b :: h.live
  apart := List.pairwise_cons.mpr ⟨hapart, h.apart⟩
  sized := List.forall_mem_cons.mpr ⟨hsize, h.sized⟩

/-- The block that starts at some address. -/
def blockAt (h : Heap) (p : Nat) : Option Block := h.live.find? (·.addr = p)

/-- The block that starts there is given back. -/
def free (h : Heap) (p : Nat) : Heap where
  live := h.live.filter (·.addr ≠ p)
  apart := h.apart.filter _
  sized := fun b hb => h.sized b (List.mem_filter.mp hb).1

/-- A memory of which only the allocated blocks are kept. -/
def keep (h : Heap) (mem garbage : Nat → UInt8) : Nat → UInt8 :=
  fun i => if ∃ b ∈ h.live, b.Contains i then mem i else garbage i

variable {h : Heap} {b c : Block} {p : Nat}

@[simp] theorem live_alloc (hapart : ∀ c ∈ h.live, b.Apart c) (hsize : 0 < b.size) :
    (h.alloc b hapart hsize).live = b :: h.live := rfl

theorem mem_free : b ∈ (h.free p).live ↔ b ∈ h.live ∧ b.addr ≠ p := by
  simp [free]

theorem apart_of_ne (hb : b ∈ h.live) (hc : c ∈ h.live) (hne : b ≠ c) : b.Apart c :=
  h.apart.forall hb hc hne

/-- A block is known by its address. -/
theorem eq_of_addr_eq (hb : b ∈ h.live) (hc : c ∈ h.live) (haddr : b.addr = c.addr) : b = c := by
  by_contra hne
  have := h.sized b hb
  have := h.sized c hc
  rcases apart_of_ne hb hc hne with hapart | hapart
  · omega
  · omega

theorem blockAt_addr (hb : b ∈ h.live) : h.blockAt b.addr = some b := by
  cases hat : h.blockAt b.addr with
  | none => exact absurd (List.find?_eq_none.mp hat b hb) (by simp)
  | some c =>
    have haddr : c.addr = b.addr := by simpa using List.find?_some hat
    rw [eq_of_addr_eq (List.mem_of_find?_eq_some hat) hb haddr]

/-- An allocated block is as it was. -/
theorem keep_of_contains {i : Nat} (hb : b ∈ h.live) (hi : b.Contains i)
    (mem garbage : Nat → UInt8) : h.keep mem garbage i = mem i :=
  if_pos ⟨b, hb, hi⟩

end Heap
