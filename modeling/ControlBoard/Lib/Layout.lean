import Mathlib.Data.List.Forall2

/-!
# Records at fixed offsets

A record layout is the list of the widths of its fields. A sender that appends the fields it
has, one behind the other, is understood by a receiver that looks for each at its fixed offset
exactly if no field is missing before one that is there.
-/

namespace Layout

variable {β : Type}

/-- The fields that are there, one behind the other. -/
def pack : List (Option (List β)) → List β
  | [] => []
  | v :: vs => v.getD [] ++ pack vs

/-- The width of a whole record. -/
def width : List Nat → Nat
  | [] => 0
  | w :: ws => w + width ws

/-- The fixed offset of field `i`. -/
def offset (ws : List Nat) (i : Nat) : Nat := width (ws.take i)

/-- The field `i` of width `w` as the receiver finds it, if the frame is that long. -/
def field (ws : List Nat) (frame : List β) (i w : Nat) : Option (List β) :=
  if offset ws i + w ≤ frame.length then some ((frame.drop (offset ws i)).take w) else none

/-- Each field has its width if it is there. -/
def Fits : List Nat → List (Option (List β)) → Prop :=
  List.Forall₂ fun w v => ∀ bs, v = some bs → bs.length = w

/-- The receiver finds each field that is there, and none that is not. -/
def Decodes (ws : List Nat) (vs : List (Option (List β))) (frame : List β) : Prop :=
  ∀ (i : Nat) w v, ws[i]? = some w → vs[i]? = some v → field ws frame i w = v

/-- No field is missing before one that is there. -/
def NoGap (vs : List (Option (List β))) : Prop :=
  ∀ (i j : Nat) bs, i < j → vs[j]? = some (some bs) → ∃ bs', vs[i]? = some (some bs')

theorem le_width {ws : List Nat} {w : Nat} (h : w ∈ ws) : w ≤ width ws := by
  induction ws with
  | nil => cases h
  | cons v ws ih =>
    rw [width]
    rcases List.mem_cons.mp h with rfl | h
    · omega
    · have := ih h
      omega

@[simp] theorem offset_zero (ws : List Nat) : offset ws 0 = 0 := rfl

theorem offset_succ (w : Nat) (ws : List Nat) (i : Nat) :
    offset (w :: ws) (i + 1) = w + offset ws i := rfl

theorem pack_eq_nil {vs : List (Option (List β))} (h : ∀ (j : Nat) bs, vs[j]? ≠ some (some bs)) :
    pack vs = [] := by
  induction vs with
  | nil => rfl
  | cons v vs ih =>
    cases v with
    | some bs => exact absurd rfl (h 0 bs)
    | none => exact ih fun j => h (j + 1)

/-- The last field that is there ends the frame, at its fixed end or before it. -/
theorem exists_last {ws : List Nat} {vs : List (Option (List β))} (h : Fits ws vs) {j : Nat}
    {bs : List β} (hj : vs[j]? = some (some bs)) :
    ∃ (m : Nat) (last : List β), vs[m]? = some (some last) ∧ ws[m]? = some last.length ∧
      (pack vs).length ≤ offset ws m + last.length := by
  induction h generalizing j bs with
  | nil => simp at hj
  | @cons w v ws vs hv _ ih =>
    by_cases hrest : ∃ (j : Nat) (bs : List β), vs[j]? = some (some bs)
    · obtain ⟨j', bs', hj'⟩ := hrest
      obtain ⟨m, last, hm, hwidth, hlen⟩ := ih hj'
      refine ⟨m + 1, last, hm, hwidth, ?_⟩
      have hw : (v.getD []).length ≤ w := by
        cases v with
        | none => exact Nat.zero_le w
        | some bs => exact Nat.le_of_eq (hv bs rfl)
      rw [pack, List.length_append, offset_succ]
      omega
    · -- the head is the only field that is there
      have hnone : pack vs = [] := pack_eq_nil fun j bs hj => hrest ⟨j, bs, hj⟩
      cases j with
      | succ j => exact absurd ⟨j, bs, hj⟩ hrest
      | zero =>
        obtain rfl : v = some bs := by simpa using hj
        exact ⟨0, bs, rfl, by simp [hv bs rfl], by simp [pack, hnone]⟩

/-- Behind a whole field, the receiver sees the record of the remaining fields. -/
theorem field_succ {w : Nat} {bs : List β} (h : bs.length = w) (ws : List Nat) (frame : List β)
    (i n : Nat) : field (w :: ws) (bs ++ frame) (i + 1) n = field ws frame i n := by
  have hdrop : (bs ++ frame).drop (w + offset ws i) = frame.drop (offset ws i) := by
    rw [← h, List.drop_length_add_append]
  unfold field
  rw [offset_succ, hdrop, List.length_append, h, Nat.add_assoc]
  simp only [Nat.add_le_add_iff_left]

theorem field_zero {w : Nat} {bs : List β} (h : bs.length = w) (ws : List Nat) (frame : List β) :
    field (w :: ws) (bs ++ frame) 0 w = some bs := by
  unfold field
  rw [if_pos (by simp [h]), offset_zero, List.drop_zero, ← h, List.take_left]

theorem decodes_some_iff {w : Nat} {bs : List β} (h : bs.length = w) (ws : List Nat)
    (vs : List (Option (List β))) (frame : List β) :
    Decodes (w :: ws) (some bs :: vs) (bs ++ frame) ↔ Decodes ws vs frame := by
  constructor
  · intro hd i w' v hw hv
    rw [← field_succ h]
    exact hd (i + 1) w' v hw hv
  · intro hd i w' v hw hv
    cases i with
    | zero =>
      cases hw
      cases hv
      exact field_zero h ws frame
    | succ i =>
      rw [field_succ h]
      exact hd i w' v hw hv

theorem noGap_some_iff (bs : List β) (vs : List (Option (List β))) :
    NoGap (some bs :: vs) ↔ NoGap vs := by
  constructor
  · intro hg i j bs' hij hj
    exact hg (i + 1) (j + 1) bs' (Nat.succ_lt_succ hij) hj
  · intro hg i j bs' hij hj
    cases i with
    | zero => exact ⟨bs, rfl⟩
    | succ i =>
      cases j with
      | zero => omega
      | succ j => exact hg i j bs' (Nat.lt_of_succ_lt_succ hij) hj

/-- A record that begins with a missing field decodes only if there is nothing in it. -/
theorem decodes_none_iff {w : Nat} {ws : List Nat} {vs : List (Option (List β))} (h : Fits ws vs)
    (hpos : ∀ w' ∈ w :: ws, 0 < w') :
    Decodes (w :: ws) (none :: vs) (pack vs) ↔ NoGap (none :: vs) := by
  constructor
  · intro hd i j bs hij hj
    cases j with
    | zero => omega
    | succ j =>
      obtain ⟨m, last, hm, hwidth, hlen⟩ := exists_last h (List.getElem?_cons_succ ▸ hj)
      have hw := hpos w List.mem_cons_self
      have hfound := hd (m + 1) last.length (some last) hwidth hm
      rw [field, offset_succ, if_neg (by omega)] at hfound
      cases hfound
  · intro hg
    have hnone : ∀ (j : Nat) bs, vs[j]? ≠ some (some bs) := by
      intro j bs hj
      obtain ⟨bs', h0⟩ := hg 0 (j + 1) bs (Nat.succ_pos j) hj
      simp at h0
    intro i w' v hw hv
    have hw' := hpos w' (List.mem_of_getElem? hw)
    have hv : v = none := by
      cases i with
      | zero => exact (Option.some_inj.mp hv).symm
      | succ i =>
        cases v with
        | none => rfl
        | some bs => exact absurd hv (hnone i bs)
    rw [hv, pack_eq_nil hnone, field, if_neg (by rw [List.length_nil]; omega)]

theorem decodes_pack_iff {ws : List Nat} {vs : List (Option (List β))} (h : Fits ws vs)
    (hpos : ∀ w ∈ ws, 0 < w) : Decodes ws vs (pack vs) ↔ NoGap vs := by
  induction h with
  | nil => exact iff_of_true (by simp [Decodes]) (by simp [NoGap])
  | @cons w v ws vs hv hrest ih =>
    cases v with
    | none => exact decodes_none_iff hrest hpos
    | some bs =>
      rw [pack, Option.getD_some, decodes_some_iff (hv bs rfl), noGap_some_iff]
      exact ih fun w hw => hpos w (List.mem_cons_of_mem _ hw)

end Layout
