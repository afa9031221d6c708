import ControlBoard.Kernel
import ControlBoard.Lib.Chain
import ControlBoard.Lib.Heap

/-!
# The list of the sensors

`add_sensor_node` to `find_sensor_node` of `applications/sensor_control.c`, on the bytes of their
nodes. A node has 16 of them: `statue` at offset 0, `name[10]` from offset 1 on, one that is not
used, and `next` from offset 12 on.
-/

namespace ControlBoard

/-- `sizeof(SensorNode_s)` -/
def sensorNodeSize : Nat := 16

/-- `TEMP_SENSOR`, `WIND_SPEND_SENSOR` and `WIND_DIRECTION_SENSOR` (`protocol.h:18-24`). -/
def tempName : CString := ⟨ascii "temp", by decide⟩
def windSpendName : CString := ⟨ascii "windDpend", by decide⟩
def windDirectionName : CString := ⟨ascii "windDirection", by decide⟩

/-- What a call returns, and what `find_sensor_node` stores through `statue`. -/
structure SensorReply where
  ret : Nat
  statue : Option UInt8
  deriving DecidableEq, Repr

/-- The reply of `find_sensor_node` where a name has the status, or is not there. -/
def SensorReply.ofStatue : Option UInt8 → SensorReply
  | some statue => ⟨0, some statue⟩
  | none => ⟨1, none⟩

theorem SensorReply.ofStatue_inj {v w : Option UInt8} : ofStatue v = ofStatue w ↔ v = w := by
  cases v with
  | none => cases w <;> simp [ofStatue]
  | some v => cases w <;> simp [ofStatue]

/-- What `rt_malloc` returns if it does not return `RT_NULL`: an address, and what is in memory
then where no block is allocated. -/
structure MallocAnswer where
  addr : Nat
  garbage : Nat → UInt8

/-- The memory, `SensorListHead` with 0 for `RT_NULL`, the allocated blocks, how many of them were
allocated for nodes so far, and which of those were freed. -/
structure SensorStore where
  mem : Nat → UInt8
  head : Nat
  heap : Heap
  allocated : Nat
  freed : List Nat

namespace SensorStore

/-- No node yet, and any blocks of others. -/
def start (mem : Nat → UInt8) (heap : Heap) : SensorStore := ⟨mem, 0, heap, 0, []⟩

/-! ## Fields -/

/-- `node->statue` -/
def statue (s : SensorStore) (node : Nat) : UInt8 := s.mem node

/-- `node->next` -/
def next (s : SensorStore) (node : Nat) : Nat := Memory.word s.mem (node + 12)

/-- `rt_strcmp(node->name, name) == 0` -/
def named (s : SensorStore) (name : CString) (node : Nat) : Bool :=
  (rtStrcmpFrom s.mem (node + 1) name.val).2 = 0

/-- `node->statue = v` -/
def setStatue (s : SensorStore) (node : Nat) (v : UInt8) : SensorStore :=
  { s with mem := Memory.write s.mem node [v] }

/-- `node->next = p` -/
def setNext (s : SensorStore) (node p : Nat) : SensorStore :=
  { s with mem := Memory.write s.mem (node + 12) (Memory.wordBytes p) }

/-- `strcpy(node->name, name)` -/
def strcpyName (s : SensorStore) (node : Nat) (name : CString) : SensorStore :=
  { s with mem := Memory.write s.mem (node + 1) (name.val ++ [0]) }

@[simp] theorem mem_setStatue (s : SensorStore) (node : Nat) (v : UInt8) :
    (s.setStatue node v).mem = Memory.write s.mem node [v] := rfl

@[simp] theorem mem_setNext (s : SensorStore) (node p : Nat) :
    (s.setNext node p).mem = Memory.write s.mem (node + 12) (Memory.wordBytes p) := rfl

@[simp] theorem statue_setStatue (s : SensorStore) (node : Nat) (v : UInt8) :
    (s.setStatue node v).statue node = v := Memory.write_singleton s.mem node v

@[simp] theorem statue_setNext (s : SensorStore) (node p : Nat) :
    (s.setNext node p).statue node = s.statue node := Memory.write_of_lt (by omega)

@[simp] theorem next_setStatue (s : SensorStore) (node : Nat) (v : UInt8) :
    (s.setStatue node v).next node = s.next node := by
  apply Memory.word_congr
  intro i _
  exact Memory.write_of_ge (by rw [List.length_singleton]; omega)

theorem textAt_setStatue {s : SensorStore} {node : Nat} {text : List UInt8} (v : UInt8)
    (h : TextAt s.mem (node + 1) text) : TextAt (s.setStatue node v).mem (node + 1) text := by
  have hread : Memory.read (Memory.write s.mem node [v]) (node + 1) (text.length + 1) =
      Memory.read s.mem (node + 1) (text.length + 1) :=
    Memory.read_write_disjoint (.inr (Nat.le_refl _))
  rw [TextAt, mem_setStatue, hread]
  exact h

theorem next_setNext (s : SensorStore) (node : Nat) {p : Nat} (h : p < 0x100000000) :
    (s.setNext node p).next node = p := Memory.word_write h

/-! ## Allocation -/

/-- The block of a new node. -/
def nodeBlock (s : SensorStore) (addr : Nat) : Block := ⟨addr, sensorNodeSize, s.allocated⟩

/-- What `rt_malloc` guarantees: not `RT_NULL`, within the addresses, and apart from what is
allocated. -/
structure Fresh (s : SensorStore) (addr : Nat) : Prop where
  ne_null : addr ≠ 0
  lt : addr + sensorNodeSize ≤ 0x100000000
  apart : ∀ c ∈ s.heap.live, (s.nodeBlock addr).Apart c

instance (s : SensorStore) (addr : Nat) : Decidable (s.Fresh addr) :=
  decidable_of_iff (addr ≠ 0 ∧ addr + sensorNodeSize ≤ 0x100000000 ∧
      ∀ c ∈ s.heap.live, (s.nodeBlock addr).Apart c)
    ⟨fun h => ⟨h.1, h.2.1, h.2.2⟩, fun h => ⟨h.1, h.2, h.3⟩⟩

/-- The store after `rt_malloc(sizeof(SensorNode_s))` returned a block. -/
def malloc (s : SensorStore) (a : MallocAnswer) (h : s.Fresh a.addr) : SensorStore :=
  { s with
    mem := s.heap.keep s.mem a.garbage
    heap := s.heap.alloc (s.nodeBlock a.addr) h.apart (Nat.succ_pos 15)
    allocated := s.allocated + 1 }

/-- `rt_free(p)`; none if `p` is not a block that is allocated. -/
def rtFree (s : SensorStore) (p : Nat) (garbage : Nat → UInt8) : Option SensorStore :=
  (s.heap.blockAt p).map fun b =>
    { s with
      mem := (s.heap.free p).keep s.mem garbage
      heap := s.heap.free p
      freed := s.freed ++ [b.serial] }

/-! ## The functions -/

/-- The pointer is to an allocated node, so that its fields may be read. -/
def isNode (s : SensorStore) (p : Nat) : Bool :=
  (s.heap.blockAt p).any (·.size = sensorNodeSize)

/-- More turns than a list of allocated nodes can take. -/
def fuel (s : SensorStore) : Nat := s.heap.live.length + 1

/-- `add_sensor_node` (`sensor_control.c:67-86`) -/
def addSensorNode (name : CString) (answer : Option MallocAnswer) (s : SensorStore) :
    Option (Nat × SensorStore) :=
  match answer with
  | none => some (1, s)
  | some a =>
    if h : s.Fresh a.addr then
      let node := a.addr
      let s := s.malloc a h
      let s := s.strcpyName node name
      let s := s.setStatue node 0
      if s.head = 0 then
        let s := { s with head := node }
        some (0, s.setNext node 0)
      else
        let s := s.setNext node s.head
        some (0, { s with head := node })
    else none

/-- `delete_sensor_node` (`sensor_control.c:88-115`). None if it does not end, reads what is no
node or frees what is not allocated; that holds of the others, too. -/
def deleteSensorNode (name : CString) (garbage : Nat → UInt8) (s : SensorStore) :
    Option (Nat × SensorStore) := do
  let (lastNode, node) ←
    Links.searchLast s.isNode (s.named name) s.next 0 s.fuel s.head s.head
  if node = 0 then return (1, s)
  if lastNode = node then
    let s ← { s with head := s.next s.head }.rtFree node garbage
    return (0, s)
  else
    let s ← (s.setNext lastNode (s.next node)).rtFree node garbage
    return (0, s)

/-- The loop of the next two functions. -/
def searchNode (name : CString) (s : SensorStore) : Option Nat :=
  Links.search s.isNode (s.named name) s.next 0 s.fuel s.head

/-- `alter_sensor_node` (`sensor_control.c:117-133`) -/
def alterSensorNode (name : CString) (statue : UInt8) (s : SensorStore) :
    Option (Nat × SensorStore) := do
  let node ← s.searchNode name
  if node = 0 then return (1, s)
  return (0, s.setStatue node statue)

/-- `find_sensor_node` (`sensor_control.c:136-152`) -/
def findSensorNode (name : CString) (s : SensorStore) : Option SensorReply := do
  let node ← s.searchNode name
  if node = 0 then return ⟨1, none⟩
  return ⟨0, some (s.statue node)⟩

/-! ## Nodes -/

end SensorStore

/-- A name and its status. -/
abbrev SensorEntry := CString × UInt8

namespace SensorStore

/-- The block is that of an allocated node, whose fields are a name that fits and a status. -/
structure Stores (s : SensorStore) (b : Block) (e : SensorEntry) : Prop where
  live : b ∈ s.heap.live
  size : b.size = sensorNodeSize
  lt : b.addr + sensorNodeSize ≤ 0x100000000
  statue : s.statue b.addr = e.2
  name : TextAt s.mem (b.addr + 1) e.1.val
  fits : e.1.val.length ≤ 9

/-- The bytes of a block are the same. -/
def SameIn (s s' : SensorStore) (b : Block) : Prop := ∀ i, b.Contains i → s'.mem i = s.mem i

variable {s s' s'' : SensorStore} {b c : Block} {e : SensorEntry}

theorem SameIn.trans (h : SameIn s s' b) (h' : SameIn s' s'' b) : SameIn s s'' b :=
  fun i hi => (h' i hi).trans (h i hi)

theorem SameIn.next (h : SameIn s s' b) (hsize : b.size = sensorNodeSize) :
    s'.next b.addr = s.next b.addr := by
  apply Memory.word_congr
  intro i hi
  apply h
  rw [Block.Contains, hsize, sensorNodeSize]
  omega

theorem Stores.isNode (h : s.Stores b e) : s.isNode b.addr := by
  rw [SensorStore.isNode, Heap.blockAt_addr h.live, Option.any_some, h.size]
  exact decide_eq_true rfl

/-- The comparison finds the name of the node. -/
theorem Stores.named_iff (h : s.Stores b e) (name : CString) :
    s.named name b.addr ↔ e.1 = name := by
  rw [SensorStore.named, decide_eq_true_iff, rtStrcmpFrom_eq_zero h.name e.1.property name.property,
    Subtype.ext_iff]

/-- The text of a field. -/
theorem Stores.holds (h : s.Stores b e) :
    Holds 10 (Memory.read s.mem (b.addr + 1) 10) e.1.val := by
  obtain ⟨k, hk⟩ : ∃ k, 10 = e.1.val.length + 1 + k :=
    Nat.exists_eq_add_of_le (Nat.succ_le_succ h.fits)
  refine ⟨Memory.length_read, Memory.read s.mem (b.addr + 1 + (e.1.val.length + 1)) k, ?_⟩
  rw [hk, Memory.read_add, h.name, List.append_assoc]
  rfl

/-- What happens elsewhere does not matter. -/
theorem Stores.congr (h : s.Stores b e) (hsame : SameIn s s' b) (hlive : b ∈ s'.heap.live) :
    s'.Stores b e := by
  have hsize := h.size
  have hfits := h.fits
  rw [sensorNodeSize] at hsize
  refine { h with live := hlive, statue := ?_, name := ?_ }
  · rw [SensorStore.statue, hsame b.addr (by rw [Block.Contains, hsize]; omega)]
    exact h.statue
  · have hread : Memory.read s'.mem (b.addr + 1) (e.1.val.length + 1) =
        Memory.read s.mem (b.addr + 1) (e.1.val.length + 1) := by
      apply Memory.read_congr
      intro i hi
      exact hsame _ (by rw [Block.Contains, hsize]; omega)
    rw [TextAt, hread]
    exact h.name

/-! ## Stores to a node -/

/-- A store inside of one block leaves the others. -/
theorem write_of_apart {a i : Nat} {bs : List UInt8} (h : c.Apart b) (hlo : c.addr ≤ a)
    (hhi : a + bs.length ≤ c.addr + c.size) (hi : b.Contains i) (mem : Nat → UInt8) :
    Memory.write mem a bs i = mem i := by
  apply Memory.write_of_not_mem
  intro hin
  exact h.symm.not_contains (i := i) ⟨by omega, by omega⟩ hi

theorem sameIn_setStatue (h : c.Apart b) (hsize : 0 < c.size) (v : UInt8) :
    SameIn s (s.setStatue c.addr v) b := fun _ hi =>
  write_of_apart h (Nat.le_refl _) (by rw [List.length_singleton]; omega) hi s.mem

theorem sameIn_setNext (h : c.Apart b) (hsize : c.size = sensorNodeSize) (p : Nat) :
    SameIn s (s.setNext c.addr p) b := fun _ hi =>
  write_of_apart h (Nat.le_add_right _ _) (by rw [hsize]; exact Nat.le_refl _) hi s.mem

theorem sameIn_strcpyName (h : c.Apart b) (hsize : c.size = sensorNodeSize) {name : CString}
    (hname : name.val.length ≤ 9) : SameIn s (s.strcpyName c.addr name) b := by
  intro i hi
  refine write_of_apart h (Nat.le_add_right _ _) ?_ hi s.mem
  rw [List.length_append, List.length_singleton, hsize, sensorNodeSize]
  omega

theorem Stores.setNext (h : s.Stores b e) (p : Nat) : (s.setNext b.addr p).Stores b e := by
  have hfits := h.fits
  refine { h with statue := ?_, name := ?_ }
  · rw [statue_setNext]
    exact h.statue
  · rw [TextAt, mem_setNext, Memory.read_write_disjoint (.inl (by omega))]
    exact h.name

theorem Stores.setStatue (h : s.Stores b e) (v : UInt8) :
    (s.setStatue b.addr v).Stores b (e.1, v) :=
  { h with
    statue := statue_setStatue s b.addr v
    name := textAt_setStatue v h.name }

theorem sameIn_malloc {a : MallocAnswer} (h : s.Fresh a.addr) (hb : b ∈ s.heap.live) :
    SameIn s (s.malloc a h) b := fun _ hi => Heap.keep_of_contains hb hi s.mem a.garbage

/-! ## Adding a node -/

/-- The store with a new node in front of the list. -/
def added (s : SensorStore) (a : MallocAnswer) (h : s.Fresh a.addr) (name : CString) :
    SensorStore :=
  { (((s.malloc a h).strcpyName a.addr name).setStatue a.addr 0).setNext a.addr s.head with
    head := a.addr }

/-- The branches of `add_sensor_node` do the same. -/
theorem addSensorNode_some {a : MallocAnswer} (h : s.Fresh a.addr) (name : CString) :
    s.addSensorNode name (some a) = some (0, s.added a h name) := by
  simp only [addSensorNode, dif_pos h]
  split
  · rename_i hhead
    have hnull : s.head = 0 := hhead
    rw [added, hnull]
    rfl
  · rfl

variable {a : MallocAnswer} {name : CString}

theorem sameIn_added (h : s.Fresh a.addr) (hname : name.val.length ≤ 9) (hb : b ∈ s.heap.live) :
    SameIn s (s.added a h name) b := by
  have hapart : (s.nodeBlock a.addr).Apart b := h.apart b hb
  have hcopied : SameIn s ((s.malloc a h).strcpyName a.addr name) b :=
    (sameIn_malloc h hb).trans (sameIn_strcpyName hapart rfl hname)
  have hset : SameIn s (((s.malloc a h).strcpyName a.addr name).setStatue a.addr 0) b :=
    hcopied.trans (sameIn_setStatue hapart (Nat.succ_pos _) 0)
  have hlinked := hset.trans (sameIn_setNext hapart rfl s.head)
  exact hlinked

theorem stores_added (h : s.Fresh a.addr) (hname : name.val.length ≤ 9) :
    (s.added a h name).Stores (s.nodeBlock a.addr) (name, 0) := by
  have hset : (((s.malloc a h).strcpyName a.addr name).setStatue a.addr 0).Stores
      (s.nodeBlock a.addr) (name, 0) :=
    { live := List.mem_cons_self
      size := rfl
      lt := h.lt
      statue := statue_setStatue _ a.addr 0
      name := textAt_setStatue 0 (textAt_write _ name.val)
      fits := hname }
  have hlinked := hset.setNext s.head
  exact { hlinked with }

theorem next_added (h : s.Fresh a.addr) (hhead : s.head < 0x100000000) :
    (s.added a h name).next a.addr = s.head :=
  next_setNext (((s.malloc a h).strcpyName a.addr name).setStatue a.addr 0) a.addr hhead

/-! ## Freeing a node -/

/-- The store after the block was freed. -/
def freeBlock (s : SensorStore) (b : Block) (garbage : Nat → UInt8) : SensorStore :=
  { s with
    mem := (s.heap.free b.addr).keep s.mem garbage
    heap := s.heap.free b.addr
    freed := s.freed ++ [b.serial] }

theorem rtFree_eq (hb : b ∈ s.heap.live) (garbage : Nat → UInt8) :
    s.rtFree b.addr garbage = some (s.freeBlock b garbage) := by
  rw [rtFree, Heap.blockAt_addr hb]
  rfl

theorem sameIn_freeBlock (hc : c ∈ s.heap.live) (hne : c.addr ≠ b.addr) (garbage : Nat → UInt8) :
    SameIn s (s.freeBlock b garbage) c := fun _ hi =>
  Heap.keep_of_contains (Heap.mem_free.mpr ⟨hc, hne⟩) hi s.mem garbage

/-- `delete_sensor_node` where its loop stopped at a node. -/
theorem deleteSensorNode_of_search {last node : Nat}
    (hsearch : Links.searchLast s.isNode (s.named name) s.next 0 s.fuel s.head s.head =
      some (last, node)) (hnull : node ≠ 0) (garbage : Nat → UInt8) :
    s.deleteSensorNode name garbage =
      ((if last = node then { s with head := s.next s.head }
        else s.setNext last (s.next node)).rtFree node garbage).map fun s => (0, s) := by
  simp only [deleteSensorNode, hsearch, Option.bind_eq_bind, Option.bind_some, if_neg hnull]
  rw [Option.map_eq_bind]
  by_cases hsame : last = node
  · rw [if_pos hsame, if_pos hsame]
    rfl
  · rw [if_neg hsame, if_neg hsame]
    rfl

end SensorStore

end ControlBoard
