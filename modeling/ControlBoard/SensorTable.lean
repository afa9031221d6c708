import ControlBoard.SensorListRefines
import Mathlib.Logic.Function.Basic

/-!
# The list as a table

The shell commands change the list by name, and each of the functions behind them stops at the
first node with its name. So the list is a table with one status for a name only as long as no
name comes in it twice, which `add_sensor_node` does not look after.
-/

namespace ControlBoard

/-- A command with its words, and what the allocator answers or leaves behind. -/
inductive NodeCommand where
  | addNode (argv : List CString) (answer : Option MallocAnswer)
  | deleteNode (argv : List CString) (garbage : Nat → UInt8)
  | alterNode (argv : List CString)

namespace NodeCommand

/-- The call that `add_node`, `delete_node` or `alter_node` (`sensor_control.c:167-209`) makes. -/
def call : NodeCommand → Option SensorCall
  | .addNode [_, name] answer => some (.add name answer)
  | .deleteNode [_, name] garbage => some (.delete name garbage)
  | .alterNode [_, name, v] =>
    if v.val = ascii "1" then some (.alter name 1)
    else if v.val = ascii "0" then some (.alter name 0)
    else none
  | _ => none

/-- What it prints. -/
def text : NodeCommand → List UInt8
  | .addNode [_, _] _ | .deleteNode [_, _] _ => []
  | .alterNode [_, name, v] => ascii "alter " ++ name.val ++ ascii ":" ++ v.val ++ ascii "\n"
  | _ => ascii "param number error\n"

end NodeCommand

namespace SensorStore

/-- The nodes that the loop of `display_all_sensor_node` (`sensor_control.c:155-164`) passes: the
text in `name[10]`, and the status. -/
def displayed (s : SensorStore) : Nat → Nat → List (List UInt8 × UInt8)
  | 0, _ => []
  | fuel + 1, node =>
    if node = 0 then []
    else (cstr (Memory.read s.mem (node + 1) 10), s.statue node) :: s.displayed fuel (s.next node)

def displayAllSensorNode (s : SensorStore) : List (List UInt8 × UInt8) := s.displayed s.fuel s.head

end SensorStore

/-- The store, the status that a table has for each name according to what the functions returned,
and the texts printed. -/
structure SensorShell where
  store : SensorStore
  table : CString → Option UInt8
  console : List (List UInt8)

namespace SensorShell

/-- The table after a call with some reply: a name is entered with the status 0 unless it is
there, and it is there until it is deleted. -/
def tableAfter (table : CString → Option UInt8) (reply : SensorReply) :
    SensorCall → CString → Option UInt8
  | .add name _ =>
    if reply.ret = 0 ∧ table name = none then Function.update table name (some 0) else table
  | .delete name _ => if reply.ret = 0 then Function.update table name none else table
  | .alter name v => if reply.ret = 0 then Function.update table name (some v) else table
  | .find _ => table

/-- A command, as long as a name that is stored fits its field and `rt_malloc` keeps to its
guarantee. -/
def step (t : SensorShell) (c : NodeCommand) : Option SensorShell :=
  match c.call with
  | none => some { t with console := t.console ++ [c.text] }
  | some call =>
    if t.store.CallFits call then
      (t.store.call call).map fun (reply, s) =>
        ⟨s, tableAfter t.table reply call, t.console ++ [c.text]⟩
    else none

def start (mem : Nat → UInt8) (heap : Heap) : SensorShell := ⟨.start mem heap, fun _ => none, []⟩

/-- No two nodes have the same name, and `find_sensor_node` returns what the table has. -/
structure TableKept (t : SensorShell) : Prop where
  distinct : (t.store.displayAllSensorNode.map Prod.fst).Nodup
  found : ∀ name, t.store.findSensorNode name = some (.ofStatue (t.table name))

/-- A node that the command adds has a name that no node has. -/
def AddsNew (t : SensorShell) (c : NodeCommand) : Prop :=
  ∀ name a, c.call = some (.add name (some a)) →
    name.val ∉ t.store.displayAllSensorNode.map Prod.fst

end SensorShell

/-! ## What a command shows and does -/

namespace SensorStore

variable {s : SensorStore} {nodes : List Block} {es : List SensorEntry}

theorem displayed_eq {fuel node : Nat} (hchain : Links.Chain s.next 0 node (nodes.map Block.addr))
    (hcontents : List.Forall₂ s.Stores nodes es) (hfuel : nodes.length < fuel) :
    s.displayed fuel node = es.map fun e => (e.1.val, e.2) := by
  induction hcontents generalizing fuel node with
  | nil =>
    have hend : node = 0 := hchain
    cases fuel with
    | zero => cases hfuel
    | succ fuel => rw [displayed, if_pos hend, List.map_nil]
  | @cons b e nodes es hb hrest ih =>
    obtain ⟨rfl, hnull, htail⟩ := hchain
    obtain ⟨rest, htext⟩ := hb.holds.text
    cases fuel with
    | zero => cases hfuel
    | succ fuel =>
      rw [displayed, if_neg hnull, htext, cstr_append_nul e.1.property, hb.statue,
        ih htail (Nat.lt_of_succ_lt_succ hfuel), List.map_cons]

theorem Represents.display_eq (h : s.Represents nodes es) :
    s.displayAllSensorNode = es.map fun e => (e.1.val, e.2) := by
  have hfuel := h.length_lt_fuel
  rw [List.length_map] at hfuel
  exact displayed_eq h.chain h.contents hfuel

/-- The names displayed are those of the sequence. -/
theorem Represents.names_eq (h : s.Represents nodes es) :
    s.displayAllSensorNode.map Prod.fst = (Keyed.keys es).map Subtype.val := by
  rw [h.display_eq, Keyed.keys, List.map_map, List.map_map]
  rfl

end SensorStore

namespace SensorShell

variable {t t' : SensorShell} {c : NodeCommand} {nodes : List Block} {es : List SensorEntry}

theorem tableKept_iff (h : t.store.Represents nodes es) :
    t.TableKept ↔ (Keyed.keys es).Nodup ∧ ∀ name, t.table name = Keyed.lookup name es := by
  have hdistinct : (t.store.displayAllSensorNode.map Prod.fst).Nodup ↔ (Keyed.keys es).Nodup := by
    rw [h.names_eq]
    exact List.nodup_map_iff Subtype.val_injective
  have hfound (name : CString) :
      t.store.findSensorNode name = some (.ofStatue (t.table name)) ↔
        t.table name = Keyed.lookup name es := by
    rw [h.findSensorNode_eq, Option.some_inj, SensorReply.ofStatue_inj, eq_comm]
  constructor
  · intro hkept
    exact ⟨hdistinct.mp hkept.distinct, fun name => (hfound name).mp (hkept.found name)⟩
  · intro hes
    exact ⟨hdistinct.mpr hes.1, fun name => (hfound name).mpr (hes.2 name)⟩

/-- A new name is entered in both. -/
theorem tableAfter_add_new {table : CString → Option UInt8} {name : CString}
    (htable : ∀ name, table name = Keyed.lookup name es) (hnew : name ∉ Keyed.keys es)
    (a : MallocAnswer) (name' : CString) :
    tableAfter table (SensorSeq.call es (.add name (some a))).1 (.add name (some a)) name' =
      Keyed.lookup name' ((name, 0) :: es) := by
  have hnone : table name = none := by rw [htable, Keyed.lookup_eq_none.mpr hnew]
  simp only [SensorSeq.call, tableAfter, hnone, and_self, if_true]
  rw [Function.update_apply, Keyed.lookup_cons, htable]
  by_cases hsame : name' = name
  · rw [if_pos hsame, if_pos hsame.symm]
  · rw [if_neg hsame, if_neg (Ne.symm hsame)]

/-- A table and a sequence without duplicates stay together, unless a name is added that is
there. -/
theorem tableAfter_iff {table : CString → Option UInt8} (hes : (Keyed.keys es).Nodup)
    (htable : ∀ name, table name = Keyed.lookup name es) (call : SensorCall) :
    ((Keyed.keys (SensorSeq.call es call).2).Nodup ∧
        ∀ name, tableAfter table (SensorSeq.call es call).1 call name =
          Keyed.lookup name (SensorSeq.call es call).2) ↔
      ∀ name a, call = .add name (some a) → name ∉ Keyed.keys es := by
  cases call with
  | add name answer =>
    cases answer with
    | none => exact iff_of_true ⟨hes, by simpa [tableAfter, SensorSeq.call] using htable⟩ (by simp)
    | some a =>
      constructor
      · intro h name' a' hadd
        cases hadd
        exact (List.nodup_cons.mp h.1).1
      · intro h
        have hnew : name ∉ Keyed.keys es := h name a rfl
        exact ⟨List.nodup_cons.mpr ⟨hnew, hes⟩, tableAfter_add_new htable hnew a⟩
  | delete name garbage =>
    refine iff_of_true ?_ (by simp)
    by_cases hname : name ∈ Keyed.keys es
    · simp only [SensorSeq.call, if_pos hname, tableAfter, if_true]
      refine ⟨Keyed.nodup_erase name hes, fun name' => ?_⟩
      rw [Function.update_apply, htable, Keyed.lookup_erase hes]
    · simp only [SensorSeq.call, if_neg hname, tableAfter, Nat.one_ne_zero, if_false]
      exact ⟨hes, htable⟩
  | alter name v =>
    refine iff_of_true ?_ (by simp)
    by_cases hname : name ∈ Keyed.keys es
    · simp only [SensorSeq.call, if_pos hname, tableAfter, if_true]
      refine ⟨by rwa [Keyed.keys_alter], fun name' => ?_⟩
      rw [Function.update_apply, htable, Keyed.lookup_alter hname]
    · simp only [SensorSeq.call, if_neg hname, tableAfter, Nat.one_ne_zero, if_false]
      exact ⟨hes, htable⟩
  | find name => exact iff_of_true ⟨hes, htable⟩ (by simp)

/-! ## Runs -/

/-- A command leads to nodes with the sequence of its call. -/
theorem step_cases (h : t.store.Represents nodes es) (hstep : t.step c = some t') :
    (c.call = none ∧ t'.store = t.store ∧ t'.table = t.table) ∨
    ∃ call nodes', c.call = some call ∧
      t'.store.Represents nodes' (SensorSeq.call es call).2 ∧
      t'.table = tableAfter t.table (SensorSeq.call es call).1 call := by
  rw [step] at hstep
  cases hcall : c.call with
  | none =>
    rw [hcall] at hstep
    cases hstep
    exact .inl ⟨rfl, rfl, rfl⟩
  | some call =>
    rw [hcall] at hstep
    simp only at hstep
    split at hstep
    · rename_i hfits
      obtain ⟨s', nodes', hresult, hnodes'⟩ := h.call hfits
      rw [hresult, Option.map_some, Option.some_inj] at hstep
      rw [← hstep]
      exact .inr ⟨call, nodes', rfl, hnodes', rfl⟩
    · cases hstep

/-- The list is that of some sequence. -/
def Represented (t : SensorShell) : Prop := ∃ nodes es, t.store.Represents nodes es

theorem represented_start (mem : Nat → UInt8) (heap : Heap) : (start mem heap).Represented :=
  ⟨[], [], rfl, .nil, .nil⟩

theorem Represented.step (h : t.Represented) (hstep : t.step c = some t') : t'.Represented := by
  obtain ⟨nodes, es, hnodes⟩ := h
  rcases step_cases hnodes hstep with ⟨-, hstore, -⟩ | ⟨call, nodes', -, hnodes', -⟩
  · exact ⟨nodes, es, hstore ▸ hnodes⟩
  · exact ⟨nodes', _, hnodes'⟩

/-- A command keeps the table exactly if what it adds is new. -/
theorem tableKept_step_iff (h : t.Represented) (hkept : t.TableKept)
    (hstep : t.step c = some t') : t'.TableKept ↔ t.AddsNew c := by
  obtain ⟨nodes, es, hnodes⟩ := h
  obtain ⟨hes, htable⟩ := (tableKept_iff hnodes).mp hkept
  have hnew : t.AddsNew c ↔
      ∀ name a, c.call = some (.add name (some a)) → name ∉ Keyed.keys es := by
    simp only [AddsNew, hnodes.names_eq, List.mem_map_of_injective Subtype.val_injective]
  rcases step_cases hnodes hstep with ⟨hcall, hstore, htable'⟩ |
    ⟨call, nodes', hcall, hnodes', htable'⟩
  · rw [← hstore] at hnodes
    rw [tableKept_iff hnodes, htable', hnew, hcall]
    exact iff_of_true ⟨hes, htable⟩ (by simp)
  · rw [tableKept_iff hnodes', htable', hnew, hcall, tableAfter_iff hes htable]
    simp only [Option.some_inj]

theorem tableKept_start (mem : Nat → UInt8) (heap : Heap) : (start mem heap).TableKept := by
  have hnodes : (start mem heap).store.Represents [] [] := ⟨rfl, .nil, .nil⟩
  exact (tableKept_iff hnodes).mpr ⟨List.nodup_nil, fun _ => rfl⟩

/-- In a run the list is a table all the time exactly if no command adds a name that it has. -/
theorem tableKept_iff_addsNew (mem : Nat → UInt8) (heap : Heap) {cmds : List NodeCommand}
    (hrun : Transition.run step (start mem heap) cmds = some t) :
    Transition.Always step TableKept (start mem heap) cmds ↔
      Transition.StepsMeet step AddsNew (start mem heap) cmds :=
  Transition.always_iff_stepsMeet_of_inv (fun _ _ _ h _ hstep _ => Represented.step h hstep)
    (fun _ _ _ h hkept hstep => tableKept_step_iff h hkept hstep) (represented_start mem heap)
    (tableKept_start mem heap) hrun

def addNodeWord : CString := ⟨ascii "add_node", by decide⟩
def deleteNodeWord : CString := ⟨ascii "delete_node", by decide⟩
def alterNodeWord : CString := ⟨ascii "alter_node", by decide⟩
def onWord : CString := ⟨ascii "1", by decide⟩

/-- A node is added, switched on and deleted, and its name added again; one command lacks its
name. -/
def sample : List NodeCommand :=
  [.addNode [addNodeWord, tempName] (some ⟨16, fun _ => 0xa5⟩),
    .alterNode [alterNodeWord, tempName, onWord],
    .addNode [addNodeWord, windSpendName] (some ⟨32, fun _ => 0⟩),
    .deleteNode [deleteNodeWord] (fun _ => 0),
    .deleteNode [deleteNodeWord, tempName] (fun _ => 1),
    .addNode [addNodeWord, tempName] (some ⟨48, fun _ => 2⟩)]

theorem tableKept_iff_addsNew_sample :
    ∃ t, Transition.run step (start (fun _ => 0) .empty) sample = some t ∧
      (Transition.Always step TableKept (start (fun _ => 0) .empty) sample ↔
        Transition.StepsMeet step AddsNew (start (fun _ => 0) .empty) sample) := by
  have hsome : (Transition.run step (start (fun _ => 0) .empty) sample).isSome := by decide +kernel
  obtain ⟨t, ht⟩ := Option.isSome_iff_exists.mp hsome
  exact ⟨t, ht, tableKept_iff_addsNew _ _ ht⟩

/-- A name is added twice and deleted once. -/
def addedTwice : List NodeCommand :=
  [.addNode [addNodeWord, tempName] (some ⟨16, fun _ => 0⟩),
    .addNode [addNodeWord, tempName] (some ⟨32, fun _ => 0⟩),
    .deleteNode [deleteNodeWord, tempName] (fun _ => 0)]

/-- The table has the name no more, and `find_sensor_node` finds it. -/
theorem table_lost :
    ∃ t, Transition.run step (start (fun _ => 0) .empty) addedTwice = some t ∧
      t.table tempName = none ∧ t.store.findSensorNode tempName = some ⟨0, some 0⟩ ∧
      ¬ t.TableKept := by
  have hend : (Transition.run step (start (fun _ => 0) .empty) addedTwice).map (fun t =>
      (t.table tempName, t.store.findSensorNode tempName)) = some (none, some ⟨0, some 0⟩) := by
    decide +kernel
  obtain ⟨t, ht, hpair⟩ := Option.map_eq_some_iff.mp hend
  obtain ⟨htable, hfind⟩ := Prod.mk.inj hpair
  refine ⟨t, ht, htable, hfind, fun hkept => ?_⟩
  have hfound := hkept.found tempName
  rw [htable, hfind] at hfound
  cases hfound

end SensorShell

end ControlBoard
