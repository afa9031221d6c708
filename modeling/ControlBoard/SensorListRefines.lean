import ControlBoard.Lib.Keyed
import ControlBoard.Lib.Transition
import ControlBoard.SensorList
import Mathlib.Data.List.Forall2
import Mathlib.Data.List.Nodup
import Mathlib.Data.List.Perm.Subperm

/-!
# The list as a sequence

The list of the sensors is a sequence of names with a status, the newest first. Each of the four
functions does to the nodes what it does to the sequence, as long as the names fit their fields
and `rt_malloc` keeps to its guarantee.
-/

namespace ControlBoard

/-- A call, with what the allocator answers or leaves behind. -/
inductive SensorCall where
  | add (name : CString) (answer : Option MallocAnswer)
  | delete (name : CString) (garbage : Nat → UInt8)
  | alter (name : CString) (statue : UInt8)
  | find (name : CString)

/-- The store after some calls, and their replies. -/
structure SensorRun where
  store : SensorStore
  replies : List SensorReply

namespace SensorStore

def call (s : SensorStore) : SensorCall → Option (SensorReply × SensorStore)
  | .add name answer => (s.addSensorNode name answer).map fun (ret, s) => (⟨ret, none⟩, s)
  | .delete name garbage => (s.deleteSensorNode name garbage).map fun (ret, s) => (⟨ret, none⟩, s)
  | .alter name statue => (s.alterSensorNode name statue).map fun (ret, s) => (⟨ret, none⟩, s)
  | .find name => (s.findSensorNode name).map fun reply => (reply, s)

/-- A name that is stored fits `name[10]`, and the block for it is new. -/
def CallFits (s : SensorStore) : SensorCall → Prop
  | .add name (some a) => name.val.length ≤ 9 ∧ s.Fresh a.addr
  | _ => True

instance (s : SensorStore) : DecidablePred s.CallFits
  | .add _ (some _) => inferInstanceAs (Decidable (_ ∧ _))
  | .add _ none | .delete _ _ | .alter _ _ | .find _ => inferInstanceAs (Decidable True)

end SensorStore

namespace SensorRun

def step (r : SensorRun) (c : SensorCall) : Option SensorRun :=
  (r.store.call c).map fun (reply, s) => ⟨s, r.replies ++ [reply]⟩

def start (mem : Nat → UInt8) (heap : Heap) : SensorRun := ⟨.start mem heap, []⟩

end SensorRun

/-! ## The sequence -/

/-- The sequence after some calls, and their replies. -/
structure SensorSeq where
  entries : List SensorEntry
  replies : List SensorReply

namespace SensorSeq

/-- What a call does to the sequence. -/
def call (es : List SensorEntry) : SensorCall → SensorReply × List SensorEntry
  | .add _ none => (⟨1, none⟩, es)
  | .add name (some _) => (⟨0, none⟩, (name, 0) :: es)
  | .delete name _ =>
    if name ∈ Keyed.keys es then (⟨0, none⟩, Keyed.erase name es) else (⟨1, none⟩, es)
  | .alter name statue =>
    if name ∈ Keyed.keys es then (⟨0, none⟩, Keyed.alter name statue es) else (⟨1, none⟩, es)
  | .find name => (.ofStatue (Keyed.lookup name es), es)

def step (q : SensorSeq) (c : SensorCall) : SensorSeq :=
  ⟨(call q.entries c).2, q.replies ++ [(call q.entries c).1]⟩

def empty : SensorSeq := ⟨[], []⟩

end SensorSeq

/-! ## The nodes of a sequence -/

namespace SensorStore

/-- The chain from `SensorListHead` on consists of allocated nodes with the contents of the
sequence, and each block allocated for a node is either in the chain or was freed, once. -/
structure Represents (s : SensorStore) (nodes : List Block) (es : List SensorEntry) : Prop where
  chain : Links.Chain s.next 0 s.head (nodes.map Block.addr)
  contents : List.Forall₂ s.Stores nodes es
  ledger : (s.freed ++ nodes.map Block.serial).Perm (List.range s.allocated)

variable {s s' : SensorStore} {nodes ns ms : List Block} {es : List SensorEntry} {b : Block}
  {name : CString} {garbage : Nat → UInt8}

theorem stores_of_mem (h : List.Forall₂ s.Stores nodes es) (hb : b ∈ nodes) :
    ∃ e ∈ es, s.Stores b e := by
  induction h with
  | nil => cases hb
  | @cons c e nodes es hc hrest ih =>
    rcases List.mem_cons.mp hb with rfl | hb
    · exact ⟨e, List.mem_cons_self, hc⟩
    · obtain ⟨e', he', hs⟩ := ih hb
      exact ⟨e', List.mem_cons_of_mem e he', hs⟩

theorem size_of_mem (h : List.Forall₂ s.Stores nodes es) : ∀ c ∈ nodes, c.size = sensorNodeSize := by
  intro c hc
  obtain ⟨e, -, hs⟩ := stores_of_mem h hc
  exact hs.size

/-- What keeps the bytes of the nodes keeps their links. -/
theorem next_congr (hsize : ∀ c ∈ nodes, c.size = sensorNodeSize)
    (hsame : ∀ c ∈ nodes, SameIn s s' c) : ∀ p ∈ nodes.map Block.addr, s'.next p = s.next p := by
  intro p hp
  obtain ⟨c, hc, rfl⟩ := List.mem_map.mp hp
  exact (hsame c hc).next (hsize c hc)

/-- What keeps the nodes keeps their contents. -/
theorem contents_congr (h : List.Forall₂ s.Stores nodes es)
    (hkept : ∀ c ∈ nodes, ∀ e, s.Stores c e → s'.Stores c e) :
    List.Forall₂ s'.Stores nodes es := by
  induction h with
  | nil => exact .nil
  | @cons c e nodes es hc hrest ih =>
    rw [List.forall_mem_cons] at hkept
    exact .cons (hkept.1 e hc) (ih hkept.2)

namespace Represents

theorem live (h : s.Represents nodes es) (hb : b ∈ nodes) : b ∈ s.heap.live := by
  obtain ⟨e, -, hs⟩ := stores_of_mem h.contents hb
  exact hs.live

/-- No node is in the chain twice. -/
theorem nodup (h : s.Represents nodes es) : (nodes.map Block.addr).Nodup := h.chain.nodup

theorem isNode (h : s.Represents nodes es) : ∀ p ∈ nodes.map Block.addr, s.isNode p := by
  intro p hp
  obtain ⟨b, hb, rfl⟩ := List.mem_map.mp hp
  obtain ⟨e, -, hs⟩ := stores_of_mem h.contents hb
  exact hs.isNode

/-- The searches have enough turns. -/
theorem length_lt_fuel (h : s.Represents nodes es) : (nodes.map Block.addr).length < s.fuel := by
  have hsub : nodes ⊆ s.heap.live := fun b hb => h.live hb
  have hnodup : nodes.Nodup := .of_map _ h.nodup
  rw [List.length_map, fuel]
  exact Nat.lt_succ_of_le (hnodup.subperm hsub).length_le

/-- The head fits a pointer. -/
theorem head_lt (h : s.Represents nodes es) : s.head < 0x100000000 := by
  cases nodes with
  | nil =>
    have hnull : s.head = 0 := h.chain
    rw [hnull]
    decide
  | cons b nodes =>
    obtain ⟨e, -, hs⟩ := stores_of_mem h.contents (List.mem_cons_self (a := b))
    have hlt := hs.lt
    rw [sensorNodeSize] at hlt
    rw [h.chain.1]
    omega

/-- Nodes of other addresses are elsewhere. -/
theorem apart_of_ne {c : Block} (h : s.Represents nodes es) (hb : b ∈ nodes) (hc : c ∈ nodes)
    (hne : b.addr ≠ c.addr) : b.Apart c :=
  Heap.apart_of_ne (h.live hb) (h.live hc) fun heq => hne (congrArg Block.addr heq)

end Represents

/-- Either no node has a name, and no entry, or the first of the one is where the first of the
other is. -/
theorem contents_split (h : List.Forall₂ s.Stores nodes es) (name : CString) :
    ((∀ b ∈ nodes, ¬ s.named name b.addr) ∧ ∀ e ∈ es, e.1 ≠ name) ∨
    ∃ ns b ms es₁ e es₂, nodes = ns ++ b :: ms ∧ es = es₁ ++ e :: es₂ ∧
      List.Forall₂ s.Stores ns es₁ ∧ s.Stores b e ∧ List.Forall₂ s.Stores ms es₂ ∧
      (∀ c ∈ ns, ¬ s.named name c.addr) ∧ (∀ d ∈ es₁, d.1 ≠ name) ∧
      s.named name b.addr ∧ e.1 = name := by
  induction h with
  | nil => exact .inl ⟨by simp, by simp⟩
  | @cons c e nodes es hc hrest ih =>
    have hiff := hc.named_iff name
    by_cases hname : e.1 = name
    · exact .inr ⟨[], c, nodes, [], e, es, rfl, rfl, .nil, hc, hrest, by simp, by simp,
        hiff.mpr hname, hname⟩
    · have hnot : ¬ s.named name c.addr := fun hnamed => hname (hiff.mp hnamed)
      rcases ih with ⟨hnodes, hes⟩ | ⟨ns, b, ms, es₁, d, es₂, rfl, rfl, hns, hb, hms, hbefore,
        hbefore', hnamed, hd⟩
      · exact .inl ⟨List.forall_mem_cons.mpr ⟨hnot, hnodes⟩, List.forall_mem_cons.mpr ⟨hname, hes⟩⟩
      · exact .inr ⟨c :: ns, b, ms, e :: es₁, d, es₂, rfl, rfl, .cons hc hns, hb, hms,
          List.forall_mem_cons.mpr ⟨hnot, hbefore⟩, List.forall_mem_cons.mpr ⟨hname, hbefore'⟩,
          hnamed, hd⟩

/-! ## The searches -/

theorem forall_not_named (h : ∀ b ∈ nodes, ¬ s.named name b.addr) :
    ∀ p ∈ nodes.map Block.addr, ¬ s.named name p := by
  intro p hp
  obtain ⟨b, hb, rfl⟩ := List.mem_map.mp hp
  exact h b hb

theorem Represents.searchNode_none (h : s.Represents nodes es)
    (hnone : ∀ b ∈ nodes, ¬ s.named name b.addr) : s.searchNode name = some 0 :=
  Links.search_of_none h.chain h.isNode h.length_lt_fuel (forall_not_named hnone)

theorem Represents.searchNode_found (h : s.Represents (ns ++ b :: ms) es)
    (hbefore : ∀ c ∈ ns, ¬ s.named name c.addr) (hnamed : s.named name b.addr) :
    s.searchNode name = some b.addr := by
  have hchain := h.chain
  have hnode := h.isNode
  have hfuel := h.length_lt_fuel
  rw [List.map_append, List.map_cons] at hchain hnode hfuel
  exact Links.search_of_found hchain hnode hfuel (forall_not_named hbefore) hnamed

theorem Represents.ne_null (h : s.Represents nodes es) (hb : b ∈ nodes) : b.addr ≠ 0 :=
  h.chain.ne_null b.addr (List.mem_map_of_mem hb)

/-! ## What each call does -/

/-- The result of a call is that of the sequence. -/
def Follows (s : SensorStore) (es : List SensorEntry) (c : SensorCall) : Prop :=
  ∃ s' nodes', s.call c = some ((SensorSeq.call es c).1, s') ∧
    s'.Represents nodes' (SensorSeq.call es c).2

theorem Represents.findSensorNode_eq (h : s.Represents nodes es) (name : CString) :
    s.findSensorNode name = some (.ofStatue (Keyed.lookup name es)) := by
  rcases contents_split h.contents name with ⟨hnodes, hes⟩ |
    ⟨ns, b, ms, es₁, e, es₂, rfl, rfl, -, hb, -, hbefore, hbefore', hnamed, he⟩
  · have hnone : Keyed.lookup name es = none :=
      Keyed.lookup_eq_none.mpr (Keyed.notMem_of_forall_ne hes)
    simp [findSensorNode, h.searchNode_none hnodes, hnone, SensorReply.ofStatue]
  · have hlookup : Keyed.lookup name (es₁ ++ e :: es₂) = some e.2 := Keyed.lookup_split hbefore' he
    have hnull : b.addr ≠ 0 := h.ne_null (List.mem_append_right ns List.mem_cons_self)
    simp [findSensorNode, h.searchNode_found hbefore hnamed, hlookup, hnull, hb.statue,
      SensorReply.ofStatue]

theorem Represents.find (h : s.Represents nodes es) (name : CString) :
    s.Follows es (.find name) := by
  refine ⟨s, nodes, ?_, h⟩
  rw [SensorStore.call, h.findSensorNode_eq]
  rfl

theorem mem_middle_of_mem {c : Block} (hc : c ∈ ns ++ ms) : c ∈ ns ++ b :: ms := by
  rcases List.mem_append.mp hc with hc | hc
  · exact List.mem_append_left _ hc
  · exact List.mem_append_right ns (List.mem_cons_of_mem b hc)

theorem mem_of_mem_middle {c : Block} (hc : c ∈ ns ++ b :: ms) (hne : c ≠ b) : c ∈ ns ++ ms := by
  rcases List.mem_append.mp hc with hc | hc
  · exact List.mem_append_left ms hc
  · exact List.mem_append_right ns ((List.mem_cons.mp hc).resolve_left hne)

/-- The nodes before and behind one are elsewhere. -/
theorem Represents.others_apart (h : s.Represents (ns ++ b :: ms) es) :
    ∀ c ∈ ns ++ ms, c.addr ≠ b.addr ∧ b.Apart c := by
  intro c hc
  have hnodup := h.nodup
  rw [List.map_append, List.map_cons, List.nodup_middle, List.nodup_cons, ← List.map_append]
    at hnodup
  have hne : c.addr ≠ b.addr := fun heq => hnodup.1 (heq ▸ List.mem_map_of_mem hc)
  exact ⟨hne, h.apart_of_ne (List.mem_append_right ns List.mem_cons_self) (mem_middle_of_mem hc)
    hne.symm⟩

theorem Represents.alter (h : s.Represents nodes es) (name : CString) (v : UInt8) :
    s.Follows es (.alter name v) := by
  rcases contents_split h.contents name with ⟨hnodes, hes⟩ |
    ⟨ns, b, ms, es₁, e, es₂, rfl, rfl, hns, hb, hms, hbefore, hbefore', hnamed, he⟩
  · have hnone : name ∉ Keyed.keys es := Keyed.notMem_of_forall_ne hes
    refine ⟨s, nodes, ?_, ?_⟩
    · simp [call, alterSensorNode, h.searchNode_none hnodes, SensorSeq.call, hnone]
    · rw [SensorSeq.call, if_neg hnone]
      exact h
  · have hsome : name ∈ Keyed.keys (es₁ ++ e :: es₂) := Keyed.mem_keys_split he
    have hnull : b.addr ≠ 0 := h.ne_null (List.mem_append_right ns List.mem_cons_self)
    have hsame : ∀ c ∈ ns ++ ms, SameIn s (s.setStatue b.addr v) c := fun c hc =>
      sameIn_setStatue (h.others_apart c hc).2 (by rw [hb.size]; decide) v
    have hkept : ∀ c ∈ ns ++ ms, ∀ d, s.Stores c d → (s.setStatue b.addr v).Stores c d :=
      fun c hc d hd => hd.congr (hsame c hc) hd.live
    refine ⟨s.setStatue b.addr v, ns ++ b :: ms, ?_, ?_⟩
    · simp only [call, alterSensorNode, h.searchNode_found hbefore hnamed, SensorSeq.call,
        Option.bind_eq_bind, Option.bind_some, if_neg hnull, if_pos hsome]
      rfl
    · rw [SensorSeq.call, if_pos hsome, Keyed.alter_split v hbefore' he]
      refine { chain := h.chain.congr ?_, contents := ?_, ledger := h.ledger }
      · intro p hp
        obtain ⟨c, hc, rfl⟩ := List.mem_map.mp hp
        by_cases hcb : c = b
        · rw [hcb]
          exact next_setStatue s b.addr v
        · exact (hsame c (mem_of_mem_middle hc hcb)).next (size_of_mem h.contents c hc)
      · have hns' := contents_congr hns fun c hc => hkept c (List.mem_append_left ms hc)
        have hms' := contents_congr hms fun c hc => hkept c (List.mem_append_right ns hc)
        exact List.rel_append hns' (.cons (hb.setStatue v) hms')

theorem Represents.add_some {a : MallocAnswer} (h : s.Represents nodes es)
    (ha : s.Fresh a.addr) (hname : name.val.length ≤ 9) :
    s.Follows es (.add name (some a)) := by
  have hsame : ∀ c ∈ nodes, SameIn s (s.added a ha name) c := fun c hc =>
    sameIn_added ha hname (h.live hc)
  refine ⟨s.added a ha name, s.nodeBlock a.addr :: nodes, ?_, ?_⟩
  · rw [call, addSensorNode_some ha]
    rfl
  · refine
      { chain := h.chain.push ha.ne_null (next_added ha h.head_lt)
          (next_congr (size_of_mem h.contents) hsame)
        contents := .cons (stores_added ha hname) (contents_congr h.contents ?_)
        ledger := ?_ }
    · intro c hc e hs
      exact hs.congr (hsame c hc) (List.mem_cons_of_mem _ hs.live)
    · have hledger : (s.freed ++ s.allocated :: nodes.map Block.serial).Perm
          (List.range (s.allocated + 1)) := by
        rw [List.range_succ]
        exact List.perm_middle.trans ((h.ledger.cons s.allocated).trans
          (List.perm_append_singleton s.allocated _).symm)
      exact hledger

/-- What is left of the list when a node was unlinked and is freed. -/
theorem represents_freeBlock (hchain : Links.Chain s.next 0 s.head ((ns ++ ms).map Block.addr))
    (hcontents : List.Forall₂ s.Stores (ns ++ ms) es) (hother : ∀ c ∈ ns ++ ms, c.addr ≠ b.addr)
    (hledger : (s.freed ++ (ns ++ b :: ms).map Block.serial).Perm (List.range s.allocated)) :
    (s.freeBlock b garbage).Represents (ns ++ ms) es := by
  have hsame : ∀ c ∈ ns ++ ms, SameIn s (s.freeBlock b garbage) c := by
    intro c hc
    obtain ⟨e, -, hs⟩ := stores_of_mem hcontents hc
    exact sameIn_freeBlock hs.live (hother c hc) garbage
  refine
    { chain := hchain.congr (next_congr (size_of_mem hcontents) hsame)
      contents := contents_congr hcontents ?_
      ledger := ?_ }
  · intro c hc e hs
    exact hs.congr (hsame c hc) (Heap.mem_free.mpr ⟨hs.live, hother c hc⟩)
  · have hmoved : (s.freed ++ [b.serial] ++ (ns ++ ms).map Block.serial).Perm
        (s.freed ++ (ns ++ b :: ms).map Block.serial) := by
      rw [List.map_append, List.map_append, List.map_cons, List.append_assoc,
        List.singleton_append]
      exact (List.perm_middle.symm).append_left s.freed
    exact hmoved.trans hledger

/-- Behind the node `l` the list goes on with what was behind `b`. -/
theorem represents_unlink {l : Block} (h : s.Represents (ns ++ [l] ++ b :: ms) es) :
    Links.Chain (s.setNext l.addr (s.next b.addr)).next 0 s.head
        ((ns ++ [l] ++ ms).map Block.addr) ∧
      ∀ c ∈ ns ++ [l] ++ ms, ∀ e, s.Stores c e →
        (s.setNext l.addr (s.next b.addr)).Stores c e := by
  rw [List.append_assoc, List.singleton_append] at h ⊢
  have hsize : ∀ c ∈ ns ++ l :: b :: ms, c.size = sensorNodeSize := size_of_mem h.contents
  have hsame : ∀ c ∈ ns ++ b :: ms, SameIn s (s.setNext l.addr (s.next b.addr)) c := fun c hc =>
    sameIn_setNext (h.others_apart c hc).2
      (hsize l (List.mem_append_right ns List.mem_cons_self)) _
  constructor
  · have hchain := h.chain
    rw [List.map_append, List.map_cons, List.map_cons] at hchain
    rw [List.map_append, List.map_cons]
    refine hchain.unlink (next_setNext s l.addr (Memory.word_lt _ _)) ?_
    rw [← List.map_append]
    exact next_congr (fun c hc => hsize c (mem_middle_of_mem (mem_middle_of_mem hc)))
      fun c hc => hsame c (mem_middle_of_mem hc)
  · intro c hc e hs
    by_cases hcl : c = l
    · rw [hcl] at hs ⊢
      exact hs.setNext _
    · exact hs.congr (hsame c (mem_middle_of_mem (mem_of_mem_middle hc hcl))) hs.live

theorem Represents.delete (h : s.Represents nodes es) (name : CString)
    (garbage : Nat → UInt8) : s.Follows es (.delete name garbage) := by
  have hnode := h.isNode
  have hfuel := h.length_lt_fuel
  rcases contents_split h.contents name with ⟨hnodes, hes⟩ |
    ⟨ns, b, ms, es₁, e, es₂, rfl, rfl, hns, hb, hms, hbefore, hbefore', hnamed, he⟩
  · have hnone : name ∉ Keyed.keys es := Keyed.notMem_of_forall_ne hes
    obtain ⟨last, hsearch⟩ := Links.searchLast_of_none h.chain hnode hfuel
      (forall_not_named hnodes) s.head
    refine ⟨s, nodes, ?_, ?_⟩
    · simp [call, deleteSensorNode, hsearch, SensorSeq.call, hnone]
    · rw [SensorSeq.call, if_neg hnone]
      exact h
  · have hsome : name ∈ Keyed.keys (es₁ ++ e :: es₂) := Keyed.mem_keys_split he
    have hnull : b.addr ≠ 0 := h.ne_null (List.mem_append_right ns List.mem_cons_self)
    have hother : ∀ c ∈ ns ++ ms, c.addr ≠ b.addr := fun c hc => (h.others_apart c hc).1
    have hrest : List.Forall₂ s.Stores (ns ++ ms) (es₁ ++ es₂) := List.rel_append hns hms
    have hchain := h.chain
    rw [List.map_append, List.map_cons] at hchain hnode hfuel
    have hsearch := Links.searchLast_of_found hchain hnode hfuel (forall_not_named hbefore) hnamed
      s.head
    rw [Follows, SensorSeq.call, if_pos hsome, Keyed.erase_split hbefore' he, call,
      deleteSensorNode_of_search hsearch hnull garbage]
    rcases List.eq_nil_or_concat' ns with rfl | ⟨ns', l, rfl⟩
    · -- the node is the head
      have hlast : (([] : List Block).map Block.addr).getLast?.getD s.head = b.addr := hchain.1
      have hbehind : Links.Chain s.next 0 (s.next s.head) (ms.map Block.addr) := hchain.2.2
      have hfree := rtFree_eq (s := { s with head := s.next s.head }) hb.live garbage
      rw [if_pos hlast, hfree]
      refine ⟨_, [] ++ ms, rfl, ?_⟩
      exact represents_freeBlock hbehind
        (contents_congr hrest fun c _ e hs => { hs with }) hother h.ledger
    · have hlast : ((ns' ++ [l]).map Block.addr).getLast?.getD s.head = l.addr := by simp
      have hne : l.addr ≠ b.addr := hother l (by simp)
      have hfree := rtFree_eq (s := s.setNext l.addr (s.next b.addr)) hb.live garbage
      obtain ⟨hunlinked, hkept⟩ := represents_unlink h
      rw [hlast, if_neg hne, hfree]
      exact ⟨_, ns' ++ [l] ++ ms, rfl,
        represents_freeBlock hunlinked (contents_congr hrest hkept) hother h.ledger⟩

theorem Represents.call {c : SensorCall} (h : s.Represents nodes es) (hfits : s.CallFits c) :
    s.Follows es c := by
  cases c with
  | add name answer =>
    cases answer with
    | none => exact ⟨s, nodes, rfl, h⟩
    | some a => exact h.add_some hfits.2 hfits.1
  | delete name garbage => exact h.delete name garbage
  | alter name v => exact h.alter name v
  | find name => exact h.find name

end SensorStore

/-! ## Runs -/

namespace SensorRun

/-- The nodes and the replies are those of the sequence. -/
def Refines (r : SensorRun) (q : SensorSeq) : Prop :=
  (∃ nodes, r.store.Represents nodes q.entries) ∧ r.replies = q.replies

theorem refines_start (mem : Nat → UInt8) (heap : Heap) :
    (start mem heap).Refines SensorSeq.empty :=
  ⟨⟨[], rfl, .nil, .nil⟩, rfl⟩

/-- Each call is possible and keeps to the sequence. -/
theorem Refines.step {r : SensorRun} {q : SensorSeq} {c : SensorCall} (h : r.Refines q)
    (hfits : r.store.CallFits c) : ∃ r', r.step c = some r' ∧ r'.Refines (q.step c) := by
  obtain ⟨⟨nodes, hnodes⟩, hreplies⟩ := h
  obtain ⟨s', nodes', hcall, hnodes'⟩ := hnodes.call hfits
  refine ⟨⟨s', r.replies ++ [(SensorSeq.call q.entries c).1]⟩, ?_, ⟨nodes', hnodes'⟩, ?_⟩
  · rw [SensorRun.step, hcall]
    rfl
  · rw [hreplies]
    rfl

/-- Whatever the calls are, `SensorListHead` heads the nodes of the sequence, all of them
different and allocated, every other node was freed once, and the replies are right. -/
theorem sensorList_refines (mem : Nat → UInt8) (heap : Heap) (calls : List SensorCall)
    (hfits : Transition.StepsMeet step (fun r => r.store.CallFits) (start mem heap) calls) :
    ∃ r nodes, Transition.run step (start mem heap) calls = some r ∧
      r.store.Represents nodes (calls.foldl SensorSeq.step .empty).entries ∧
      (nodes.map Block.addr).Nodup ∧ r.replies = (calls.foldl SensorSeq.step .empty).replies := by
  have hstep : ∀ (r : SensorRun) (q : SensorSeq) c, r.Refines q → r.store.CallFits c →
      ∃ r', r.step c = some r' ∧ r'.Refines (q.step c) := fun _ _ _ => Refines.step
  obtain ⟨r, hrun, ⟨nodes, hnodes⟩, hreplies⟩ :=
    Transition.run_refines hstep (refines_start mem heap) hfits
  exact ⟨r, nodes, hrun, hnodes, hnodes.nodup, hreplies⟩

/-- Two nodes of one name, a failed allocation, an unlinking in the middle, and a new node where
the freed one was. -/
def sample : List SensorCall :=
  [.add tempName (some ⟨16, fun _ => 0xa5⟩), .add windSpendName (some ⟨48, fun _ => 0x5a⟩),
    .add windSpendName none, .add tempName (some ⟨32, fun _ => 1⟩), .alter tempName 1,
    .delete windSpendName (fun _ => 0xff), .add windSpendName (some ⟨48, fun _ => 7⟩),
    .delete tempName (fun _ => 0), .find tempName, .delete windSpendName fun _ => 3]

theorem sensorList_refines_sample :
    ∃ r nodes, Transition.run step (start (fun _ => 0) ⟨[⟨64, 8, 0⟩], by decide, by decide⟩) sample =
        some r ∧
      r.store.Represents nodes (sample.foldl SensorSeq.step .empty).entries ∧
      (nodes.map Block.addr).Nodup ∧ r.replies = (sample.foldl SensorSeq.step .empty).replies :=
  sensorList_refines _ _ sample (by decide +kernel)

end SensorRun

end ControlBoard
