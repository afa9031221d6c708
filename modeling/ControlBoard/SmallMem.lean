import ControlBoard.Lib.Memory

/-!
# The heap of `Kernel/mem.c`

`rt_system_heap_init`, `rt_malloc`, `rt_realloc`, `rt_calloc` and `rt_free` of the small memory
algorithm, with `struct heap_mem` in the bytes of the memory. A `struct heap_mem *` is its offset
from `heap_ptr`, as in its own fields `next` and `prev`. The headers change only under `heap_sem`,
and a call is one step. Where an assertion of it fails, or a loop does not end, the result is `none`.
-/

namespace ControlBoard

/-- `struct heap_mem`. -/
structure HeapMem where
  magic : Nat
  used : Nat
  next : Nat
  prev : Nat
  deriving DecidableEq, Repr

/-- The fields have the widths that `struct heap_mem` gives them. -/
structure HeapMem.Fits (m : HeapMem) : Prop where
  magic : m.magic < 0x10000
  used : m.used < 0x10000
  next : m.next < 0x100000000
  prev : m.prev < 0x100000000

/-- `HEAP_MAGIC`. -/
def heapMagic : Nat := 0x1ea0

/-- `MIN_SIZE_ALIGNED`. -/
def minSizeAligned : Nat := 12

/-- `SIZEOF_STRUCT_MEM`. -/
def sizeofStructMem : Nat := 12

/-- `RT_ALIGN(n, RT_ALIGN_SIZE)` on 32 bits. -/
def rtAlign (n : Nat) : Nat := (n + 3) % 0x100000000 / 4 * 4

/-- `RT_ALIGN_DOWN(n, RT_ALIGN_SIZE)`. -/
def rtAlignDown (n : Nat) : Nat := n / 4 * 4

/-- The difference of two `rt_size_t`. -/
def sizeSub (a b : Nat) : Nat := (a + 0x100000000 - b) % 0x100000000

theorem sizeSub_of_le {a b : Nat} (h : b ≤ a) (ha : a < 0x100000000) : sizeSub a b = a - b := by
  unfold sizeSub
  omega

theorem rtAlign_of_le {n : Nat} (h : n ≤ 0xfffffffc) : n ≤ rtAlign n ∧ rtAlign n < n + 4 := by
  unfold rtAlign
  omega

theorem rtAlign_dvd (n : Nat) : 4 ∣ rtAlign n := Nat.dvd_mul_left 4 _

theorem rtAlign_of_dvd {n : Nat} (h : 4 ∣ n) (hn : n < 0x100000000) : rtAlign n = n := by
  obtain ⟨k, rfl⟩ := h
  unfold rtAlign
  omega

/-- The memory and the static variables of the file; `heap_end` and `lfree` as offsets. -/
structure SmallMem where
  mem : Nat → UInt8
  heapPtr : Nat
  heapEnd : Nat
  lfree : Nat
  memSizeAligned : Nat
  usedMem : Nat
  maxMem : Nat

namespace SmallMem

/-- The header at an offset. -/
def header (s : SmallMem) (p : Nat) : HeapMem where
  magic := Memory.half s.mem (s.heapPtr + p)
  used := Memory.half s.mem (s.heapPtr + p + 2)
  next := Memory.word s.mem (s.heapPtr + p + 4)
  prev := Memory.word s.mem (s.heapPtr + p + 8)

/-- A header is written. -/
def setHeader (s : SmallMem) (p : Nat) (m : HeapMem) : SmallMem :=
  let mem := Memory.write s.mem (s.heapPtr + p) (Memory.halfBytes m.magic)
  let mem := Memory.write mem (s.heapPtr + p + 2) (Memory.halfBytes m.used)
  let mem := Memory.write mem (s.heapPtr + p + 4) (Memory.wordBytes m.next)
  { s with mem := Memory.write mem (s.heapPtr + p + 8) (Memory.wordBytes m.prev) }

/-- Assignments to fields of the header at an offset. -/
def update (s : SmallMem) (p : Nat) (f : HeapMem → HeapMem) : SmallMem :=
  s.setHeader p (f (s.header p))

variable {s : SmallMem} {p r i : Nat} {m : HeapMem} {f : HeapMem → HeapMem}

theorem header_fits (s : SmallMem) (p : Nat) : (s.header p).Fits :=
  ⟨Memory.half_lt _ _, Memory.half_lt _ _, Memory.word_lt _ _, Memory.word_lt _ _⟩

theorem mem_setHeader (h : i < s.heapPtr + p ∨ s.heapPtr + p + 12 ≤ i) :
    (s.setHeader p m).mem i = s.mem i := by
  simp only [setHeader]
  rw [Memory.write_of_not_mem, Memory.write_of_not_mem, Memory.write_of_not_mem,
    Memory.write_of_not_mem]
  all_goals
    simp only [Memory.length_halfBytes, Memory.length_wordBytes]
    omega

theorem header_setHeader (h : m.Fits) : (s.setHeader p m).header p = m := by
  simp only [header, setHeader]
  rw [HeapMem.mk.injEq]
  refine ⟨?_, ?_, ?_, ?_⟩
  · rw [Memory.half_write_disjoint (by omega), Memory.half_write_disjoint (by omega),
      Memory.half_write_disjoint (by omega), Memory.half_write h.magic]
  · rw [Memory.half_write_disjoint (by omega), Memory.half_write_disjoint (by omega),
      Memory.half_write h.used]
  · rw [Memory.word_write_disjoint (by omega), Memory.word_write h.next]
  · exact Memory.word_write h.prev

theorem header_congr {s t : SmallMem} (hptr : t.heapPtr = s.heapPtr)
    (hmem : ∀ i < 12, t.mem (s.heapPtr + p + i) = s.mem (s.heapPtr + p + i)) :
    t.header p = s.header p := by
  simp only [header, hptr]
  rw [HeapMem.mk.injEq]
  refine ⟨Memory.half_congr ?_, Memory.half_congr ?_, Memory.word_congr ?_, Memory.word_congr ?_⟩
  · exact fun i hi => hmem i (by omega)
  · exact fun i hi => by rw [Nat.add_assoc _ 2]; exact hmem (2 + i) (by omega)
  · exact fun i hi => by rw [Nat.add_assoc _ 4]; exact hmem (4 + i) (by omega)
  · exact fun i hi => by rw [Nat.add_assoc _ 8]; exact hmem (8 + i) (by omega)

theorem header_setHeader_of_apart (h : p + 12 ≤ r ∨ r + 12 ≤ p) :
    (s.setHeader p m).header r = s.header r :=
  header_congr rfl fun _ _ => mem_setHeader (by omega)

@[simp] theorem usedMem_update : (s.update p f).usedMem = s.usedMem := rfl

@[simp] theorem lfree_update : (s.update p f).lfree = s.lfree := rfl

theorem header_update (h : (f (s.header p)).Fits) : (s.update p f).header p = f (s.header p) :=
  header_setHeader h

theorem header_update_of_apart (h : p + 12 ≤ r ∨ r + 12 ≤ p) :
    (s.update p f).header r = s.header r := header_setHeader_of_apart h

/-- The heap of `size` bytes at `ptr`: one free block, and `heap_end`. -/
def initHeap (mem : Nat → UInt8) (ptr size : Nat) : SmallMem :=
  let s : SmallMem := ⟨mem, ptr, size + sizeofStructMem, 0, size, 0, 0⟩
  let s := s.setHeader 0 ⟨heapMagic, 0, size + sizeofStructMem, 0⟩
  s.setHeader s.heapEnd ⟨heapMagic, 1, size + sizeofStructMem, size + sizeofStructMem⟩

/-- `rt_system_heap_init(begin_addr, end_addr)`; `none` if the area is refused. -/
def rtSystemHeapInit (mem : Nat → UInt8) (beginAddr endAddr : Nat) : Option SmallMem :=
  let beginAlign := rtAlign beginAddr
  let endAlign := rtAlignDown endAddr
  if endAlign > 2 * sizeofStructMem ∧ endAlign - 2 * sizeofStructMem ≥ beginAlign then
    some (initHeap mem beginAlign (endAlign - beginAlign - 2 * sizeofStructMem))
  else none

/-! ## `plug_holes` -/

/-- `mem` and the free block behind it become one. -/
def plugForward (s : SmallMem) (mem : Nat) : SmallMem :=
  let nmem := (s.header mem).next
  if mem ≠ nmem ∧ (s.header nmem).used = 0 ∧ nmem ≠ s.heapEnd then
    let s := { s with lfree := if s.lfree = nmem then mem else s.lfree }
    let s := s.update mem fun m => { m with next := (s.header nmem).next }
    s.update (s.header nmem).next fun m => { m with prev := mem }
  else s

/-- `mem` and the free block before it become one. -/
def plugBackward (s : SmallMem) (mem : Nat) : SmallMem :=
  let pmem := (s.header mem).prev
  if pmem ≠ mem ∧ (s.header pmem).used = 0 then
    let s := { s with lfree := if s.lfree = mem then pmem else s.lfree }
    let s := s.update pmem fun m => { m with next := (s.header mem).next }
    s.update (s.header mem).next fun m => { m with prev := pmem }
  else s

/-- `plug_holes(mem)`. -/
def plugHoles (s : SmallMem) (mem : Nat) : Option SmallMem :=
  if mem < s.heapEnd ∧ (s.header mem).used = 0 then some ((s.plugForward mem).plugBackward mem)
  else none

/-! ## `rt_malloc` -/

/-- The loop of `rt_malloc` that looks for a block from `ptr` on; `none` if it does not end. -/
def findFit (s : SmallMem) (size : Nat) : Nat → Nat → Option (Option Nat)
  | 0, _ => none
  | fuel + 1, ptr =>
    if ptr < sizeSub s.memSizeAligned size then
      if (s.header ptr).used = 0 ∧
          sizeSub (s.header ptr).next (ptr + sizeofStructMem) ≥ size then
        some (some ptr)
      else findFit s size fuel (s.header ptr).next
    else some none

/-- A new free block at `ptr2`, between `mem` at `ptr` and what is behind it; `mem->used` becomes
`used`. -/
def insertFree (s : SmallMem) (ptr ptr2 used : Nat) : SmallMem :=
  let next := (s.header ptr).next
  let s := s.setHeader ptr2 ⟨heapMagic, 0, next, ptr⟩
  let s := s.update ptr fun m => { m with next := ptr2, used := used }
  if next ≠ s.memSizeAligned + sizeofStructMem then
    s.update next fun m => { m with prev := ptr2 }
  else s

/-- The counters after `n` more bytes are used. -/
def count (s : SmallMem) (n : Nat) : SmallMem :=
  let s := { s with usedMem := s.usedMem + n }
  { s with maxMem := if s.maxMem < s.usedMem then s.usedMem else s.maxMem }

/-- The block at `ptr` is used, and what it has too much is split off. -/
def occupy (s : SmallMem) (ptr size : Nat) : SmallMem :=
  let s :=
    if sizeSub (s.header ptr).next (ptr + sizeofStructMem) ≥
        size + sizeofStructMem + minSizeAligned then
      (s.insertFree ptr (ptr + sizeofStructMem + size) 1).count (size + sizeofStructMem)
    else (s.update ptr fun m => { m with used := 1 }).count (sizeSub (s.header ptr).next ptr)
  s.update ptr fun m => { m with magic := heapMagic }

/-- The loop of `rt_malloc` that moves `lfree` on; `none` if it does not end. -/
def skipUsed (s : SmallMem) : Nat → Nat → Option Nat
  | 0, _ => none
  | fuel + 1, p =>
    if (s.header p).used ≠ 0 ∧ p ≠ s.heapEnd then skipUsed s fuel (s.header p).next else some p

/-- `lfree` after the block at `mem` was taken. -/
def moveLfree (s : SmallMem) (mem : Nat) : Option SmallMem :=
  if mem = s.lfree then
    (s.skipUsed (s.memSizeAligned + 1) s.lfree).bind fun p =>
      if p = s.heapEnd ∨ (s.header p).used = 0 then some { s with lfree := p } else none
  else some s

/-- The rest of `rt_malloc` with the block that was found at `mem`. -/
def takeBlock (s : SmallMem) (mem size : Nat) : Option (Option Nat × SmallMem) :=
  ((s.occupy mem size).moveLfree mem).bind fun s =>
    if mem + sizeofStructMem + size ≤ s.heapEnd ∧
        (s.heapPtr + mem + sizeofStructMem) % 4 = 0 ∧ (s.heapPtr + mem) % 4 = 0 then
      some (some (s.heapPtr + mem + sizeofStructMem), s)
    else none

/-- An aligned size as that of a data block, which has `MIN_SIZE_ALIGNED` bytes at least. -/
def dataSize (size : Nat) : Nat := if size < minSizeAligned then minSizeAligned else size

/-- `rt_malloc(size)`: the address or `RT_NULL`, and the heap. -/
def rtMalloc (s : SmallMem) (size : Nat) : Option (Option Nat × SmallMem) :=
  if size = 0 then some (none, s)
  else if rtAlign size > s.memSizeAligned then some (none, s)
  else
    match s.findFit (dataSize (rtAlign size)) (s.memSizeAligned + 1) s.lfree with
    | none => none
    | some none => some (none, s)
    | some (some mem) => s.takeBlock mem (dataSize (rtAlign size))

/-! ## `rt_free` and `rt_realloc` -/

/-- The block at `mem` is unused, before `plug_holes`. -/
def markUnused (s : SmallMem) (mem : Nat) : SmallMem :=
  let s := s.update mem fun m => { m with used := 0, magic := heapMagic }
  { s with
    lfree := if mem < s.lfree then mem else s.lfree
    usedMem := sizeSub s.usedMem (sizeSub (s.header mem).next mem) }

/-- `rt_free(rmem)` with 0 for `RT_NULL`. A header that begins before the heap is not looked at. -/
def rtFree (s : SmallMem) (rmem : Nat) : Option SmallMem :=
  if rmem = 0 then some s
  else if rmem % 4 = 0 ∧ rmem ≥ s.heapPtr + sizeofStructMem ∧ rmem < s.heapPtr + s.heapEnd then
    let mem := rmem - s.heapPtr - sizeofStructMem
    if (s.header mem).used ≠ 0 ∧ (s.header mem).magic = heapMagic then
      (s.markUnused mem).plugHoles mem
    else none
  else none

/-- Bytes are stored at an address. -/
def store (s : SmallMem) (p : Nat) (bs : List UInt8) : SmallMem :=
  { s with mem := Memory.write s.mem p bs }

/-- The part of `rt_realloc` in which the block at `rmem` is split. -/
def shrink (s : SmallMem) (ptr size newsize : Nat) : Option SmallMem :=
  let s := { s with usedMem := sizeSub s.usedMem (size - newsize) }
  (s.insertFree ptr (ptr + sizeofStructMem + newsize) (s.header ptr).used).plugHoles
    (ptr + sizeofStructMem + newsize)

/-- The part of `rt_realloc` in which `size` bytes at `rmem` are moved to a new block. -/
def moveBlock (s : SmallMem) (rmem size newsize : Nat) : Option (Option Nat × SmallMem) :=
  (s.rtMalloc newsize).bind fun
    | (none, s) => some (none, s)
    | (some nmem, s) =>
      let bytes := Memory.read s.mem rmem (if size < newsize then size else newsize)
      ((s.store nmem bytes).rtFree rmem).map fun s => (some nmem, s)

/-- `rt_realloc(rmem, newsize)`. -/
def rtRealloc (s : SmallMem) (rmem newsize : Nat) : Option (Option Nat × SmallMem) :=
  let newsize := rtAlign newsize
  if newsize > s.memSizeAligned then some (none, s)
  else if newsize = 0 then (s.rtFree rmem).map fun s => (none, s)
  else if rmem = 0 then s.rtMalloc newsize
  else if rmem < s.heapPtr ∨ rmem ≥ s.heapPtr + s.heapEnd then some (some rmem, s)
  else if rmem < s.heapPtr + sizeofStructMem then none
  else
    let ptr := rmem - s.heapPtr - sizeofStructMem
    let size := sizeSub (sizeSub (s.header ptr).next ptr) sizeofStructMem
    if size = newsize then some (some rmem, s)
    else if newsize + sizeofStructMem + minSizeAligned < size then
      (s.shrink ptr size newsize).map fun s => (some rmem, s)
    else s.moveBlock rmem size newsize

/-- The headers from `p` to `heap_end`, along which the loops of `memcheck` and `memtrace` go. -/
def headers (s : SmallMem) : Nat → Nat → List (Nat × HeapMem)
  | 0, _ => []
  | fuel + 1, p =>
    if p ≠ s.heapEnd then (p, s.header p) :: headers s fuel (s.header p).next else []

/-- `rt_calloc(count, size)`. -/
def rtCalloc (s : SmallMem) (count size : Nat) : Option (Option Nat × SmallMem) :=
  let n := count * size % 0x100000000
  (s.rtMalloc n).map fun
    | (none, s) => (none, s)
    | (some p, s) => (some p, s.store p (List.replicate n 0))

end SmallMem

end ControlBoard
