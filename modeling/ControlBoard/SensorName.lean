import ControlBoard.SensorList

/-!
# The name of a new node

`add_sensor_node` copies a name of any length into `name[10]`. What is too long for it spills
into the byte behind it, then into `next`, which is assigned afterwards, and then into the block
behind the node.
-/

namespace ControlBoard

namespace SensorStore

/-- What is to hold of a node that was added: its name is in `name[10]`, with its terminator, and
storing it changed nothing else, and it is found, with the status 0, and can be deleted. -/
structure FoundAgain (s : SensorStore) (name : CString) (a : MallocAnswer) (h : s.Fresh a.addr)
    (s' : SensorStore) : Prop where
  field : Holds 10 (Memory.read s'.mem (a.addr + 1) 10) name.val
  kept : ∀ i, i < a.addr + 1 ∨ a.addr + 11 ≤ i →
    ((s.malloc a h).strcpyName a.addr name).mem i = (s.malloc a h).mem i
  found : s'.findSensorNode name = some ⟨0, some 0⟩
  deleted : ∀ garbage, ∃ s'', s'.deleteSensorNode name garbage = some (0, s'')

/-- Where `add_sensor_node(name)` returns 0, the name can be found again. -/
def KeepsName (s : SensorStore) (name : CString) (answer : Option MallocAnswer) : Prop :=
  ∀ s', s.addSensorNode name answer = some (0, s') →
    ∃ a h, answer = some a ∧ s.FoundAgain name a h s'

variable {s : SensorStore} {name : CString} {a : MallocAnswer} {b : Block} {e : SensorEntry}

/-- A search stops at the head if that has the name. -/
theorem Stores.search_head (h : s.Stores b e) (hhead : s.head = b.addr) (hnull : b.addr ≠ 0) :
    Links.searchLast s.isNode (s.named e.1) s.next 0 s.fuel s.head s.head =
      some (b.addr, b.addr) := by
  have hnamed : s.named e.1 b.addr := (h.named_iff e.1).mpr rfl
  rw [hhead]
  exact Links.searchLast_here hnull h.isNode hnamed _ _

theorem Stores.find_head (h : s.Stores b e) (hhead : s.head = b.addr) (hnull : b.addr ≠ 0) :
    s.findSensorNode e.1 = some ⟨0, some e.2⟩ := by
  have hsearch : s.searchNode e.1 = some b.addr := by
    rw [searchNode, ← Links.searchLast_snd s.fuel s.head, h.search_head hhead hnull,
      Option.map_some]
  rw [findSensorNode, hsearch, Option.bind_eq_bind, Option.bind_some, if_neg hnull, h.statue]
  rfl

theorem Stores.delete_head (h : s.Stores b e) (hhead : s.head = b.addr) (hnull : b.addr ≠ 0)
    (garbage : Nat → UInt8) :
    s.deleteSensorNode e.1 garbage =
      some (0, { s with head := s.next s.head }.freeBlock b garbage) := by
  have hfree := rtFree_eq (s := { s with head := s.next s.head }) h.live garbage
  rw [deleteSensorNode_of_search (h.search_head hhead hnull) hnull, if_pos rfl, hfree]
  rfl

/-- Up to nine characters the copy keeps to the field. -/
theorem strcpyName_kept (s : SensorStore) (node : Nat) (hname : name.val.length ≤ 9) {i : Nat}
    (hi : i < node + 1 ∨ node + 11 ≤ i) : (s.strcpyName node name).mem i = s.mem i := by
  apply Memory.write_of_not_mem
  rw [List.length_append, List.length_singleton]
  omega

theorem foundAgain_added (h : s.Fresh a.addr) (hname : name.val.length ≤ 9) :
    s.FoundAgain name a h (s.added a h name) := by
  have hstores := stores_added h hname
  exact
    { field := hstores.holds
      kept := fun _ hi => strcpyName_kept _ _ hname hi
      found := hstores.find_head rfl h.ne_null
      deleted := fun garbage => ⟨_, hstores.delete_head rfl h.ne_null garbage⟩ }

theorem FoundAgain.length_le {h : s.Fresh a.addr} {s' : SensorStore}
    (hagain : s.FoundAgain name a h s') : name.val.length ≤ 9 := by
  obtain ⟨rest, hrest⟩ := hagain.field.text
  have hlen := congrArg List.length hrest
  rw [Memory.length_read, List.length_append, List.length_cons] at hlen
  omega

/-- Every name that can be added can be found again exactly if `rt_malloc` fails or the name has
at most nine characters. -/
theorem keepsName_iff (s : SensorStore) (name : CString) (answer : Option MallocAnswer)
    (hfresh : ∀ a ∈ answer, s.Fresh a.addr) :
    s.KeepsName name answer ↔ answer = none ∨ name.val.length ≤ 9 := by
  cases answer with
  | none =>
    refine iff_of_true ?_ (.inl rfl)
    intro s' hadd
    cases hadd
  | some a =>
    have ha : s.Fresh a.addr := hfresh a rfl
    have hadd := addSensorNode_some ha name
    constructor
    · intro h
      obtain ⟨a', ha', -, hagain⟩ := h _ hadd
      exact .inr hagain.length_le
    · intro h s' hs'
      have hname : name.val.length ≤ 9 := h.resolve_left (by simp)
      rw [hadd] at hs'
      cases hs'
      exact ⟨a, ha, rfl, foundAgain_added ha hname⟩

theorem keepsName_temp :
    (start (fun _ => 0xa5) .empty).KeepsName tempName (some ⟨16, fun _ => 0⟩) := by
  apply (keepsName_iff _ _ _ ?_).mpr (.inr (by decide))
  intro a ha
  cases ha
  decide

/-- The direction of the wind has 13 characters: it is added, and not found. -/
theorem windDirection_lost :
    ¬ (start (fun _ => 0) .empty).KeepsName windDirectionName (some ⟨16, fun _ => 0⟩) ∧
      ((start (fun _ => 0) .empty).addSensorNode windDirectionName (some ⟨16, fun _ => 0⟩)).bind
        (fun r => r.2.findSensorNode windDirectionName) = some ⟨1, none⟩ := by
  refine ⟨fun h => ?_, by decide +kernel⟩
  have hfresh : (start (fun _ => 0) .empty).Fresh 16 := by decide
  obtain ⟨a, _, -, hagain⟩ := h _ (addSensorNode_some hfresh _)
  exact absurd hagain.length_le (by decide)

end SensorStore

end ControlBoard
