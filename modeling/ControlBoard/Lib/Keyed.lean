import Mathlib.Data.List.Basic

/-!
# Sequences of entries with a key

The operations on the first entry with a key. Where no key comes twice, they are those of a table
that has at most one value for a key.
-/

namespace Keyed

variable {κ β : Type}

def keys (es : List (κ × β)) : List κ := es.map Prod.fst

variable {key k : κ} {v : β} {e : κ × β} {es es₁ es₂ : List (κ × β)}

@[simp] theorem keys_cons (e : κ × β) (es : List (κ × β)) : keys (e :: es) = e.1 :: keys es := rfl

theorem notMem_of_forall_ne (h : ∀ e ∈ es, e.1 ≠ key) : key ∉ keys es := by
  intro hmem
  obtain ⟨e, he, heq⟩ := List.mem_map.mp hmem
  exact h e he heq

theorem mem_keys_split (he : e.1 = key) : key ∈ keys (es₁ ++ e :: es₂) :=
  List.mem_map.mpr ⟨e, List.mem_append_right es₁ List.mem_cons_self, he⟩

variable [DecidableEq κ]

/-- The value of the first entry with a key. -/
def lookup (key : κ) (es : List (κ × β)) : Option β := (es.find? (·.1 = key)).map Prod.snd

/-- The sequence without the first entry with a key. -/
def erase (key : κ) (es : List (κ × β)) : List (κ × β) := es.eraseP (·.1 = key)

/-- The sequence with another value in the first entry with a key. -/
def alter (key : κ) (v : β) : List (κ × β) → List (κ × β)
  | [] => []
  | e :: es => if e.1 = key then (e.1, v) :: es else e :: alter key v es

theorem lookup_cons (e : κ × β) (es : List (κ × β)) :
    lookup key (e :: es) = if e.1 = key then some e.2 else lookup key es := by
  unfold lookup
  by_cases h : e.1 = key
  · rw [List.find?_cons_of_pos (by simpa using h), if_pos h, Option.map_some]
  · rw [List.find?_cons_of_neg (by simpa using h), if_neg h]

theorem erase_cons (e : κ × β) (es : List (κ × β)) :
    erase key (e :: es) = if e.1 = key then es else e :: erase key es := by
  unfold erase
  by_cases h : e.1 = key
  · rw [List.eraseP_cons_of_pos (by simpa using h), if_pos h]
  · rw [List.eraseP_cons_of_neg (by simpa using h), if_neg h]

theorem erase_of_notMem (h : key ∉ keys es) : erase key es = es :=
  List.eraseP_of_forall_not fun e he heq =>
    h (List.mem_map.mpr ⟨e, he, by simpa using heq⟩)

/-! ## The first entry with a key -/

theorem lookup_split (h : ∀ d ∈ es₁, d.1 ≠ key) (he : e.1 = key) :
    lookup key (es₁ ++ e :: es₂) = some e.2 := by
  induction es₁ with
  | nil => rw [List.nil_append, lookup_cons, if_pos he]
  | cons d es₁ ih =>
    rw [List.forall_mem_cons] at h
    rw [List.cons_append, lookup_cons, if_neg h.1, ih h.2]

theorem erase_split (h : ∀ d ∈ es₁, d.1 ≠ key) (he : e.1 = key) :
    erase key (es₁ ++ e :: es₂) = es₁ ++ es₂ := by
  induction es₁ with
  | nil => rw [List.nil_append, erase_cons, if_pos he, List.nil_append]
  | cons d es₁ ih =>
    rw [List.forall_mem_cons] at h
    rw [List.cons_append, erase_cons, if_neg h.1, ih h.2, List.cons_append]

theorem alter_split (v : β) (h : ∀ d ∈ es₁, d.1 ≠ key) (he : e.1 = key) :
    alter key v (es₁ ++ e :: es₂) = es₁ ++ (e.1, v) :: es₂ := by
  induction es₁ with
  | nil => rw [List.nil_append, alter, if_pos he, List.nil_append]
  | cons d es₁ ih =>
    rw [List.forall_mem_cons] at h
    rw [List.cons_append, alter, if_neg h.1, ih h.2, List.cons_append]

/-! ## As a table -/

theorem lookup_eq_none : lookup key es = none ↔ key ∉ keys es := by
  induction es with
  | nil => simp [lookup, keys]
  | cons e es ih =>
    rw [lookup_cons, keys_cons, List.mem_cons, not_or]
    by_cases h : e.1 = key
    · simp [h]
    · rw [if_neg h, ih, and_iff_right (Ne.symm h)]

theorem keys_alter (key : κ) (v : β) (es : List (κ × β)) : keys (alter key v es) = keys es := by
  induction es with
  | nil => rfl
  | cons e es ih =>
    rw [alter]
    by_cases h : e.1 = key
    · rw [if_pos h]
      rfl
    · rw [if_neg h, keys_cons, keys_cons, ih]

theorem nodup_erase (key : κ) (h : (keys es).Nodup) : (keys (erase key es)).Nodup :=
  h.sublist ((List.eraseP_sublist).map Prod.fst)

theorem lookup_alter (h : key ∈ keys es) :
    lookup k (alter key v es) = if k = key then some v else lookup k es := by
  induction es with
  | nil => cases h
  | cons e es ih =>
    rw [alter]
    by_cases he : e.1 = key
    · rw [if_pos he, lookup_cons, lookup_cons, he]
      by_cases hk : k = key
      · simp [hk]
      · simp [hk, Ne.symm hk]
    · have htail : key ∈ keys es := (List.mem_cons.mp h).resolve_left (Ne.symm he)
      rw [if_neg he, lookup_cons, lookup_cons, ih htail]
      by_cases hk : k = key
      · rw [if_pos hk, if_neg (hk ▸ he), if_pos hk]
      · rw [if_neg hk, if_neg hk]

/-- Where no key comes twice, the key is gone with its first entry. -/
theorem lookup_erase (h : (keys es).Nodup) :
    lookup k (erase key es) = if k = key then none else lookup k es := by
  induction es with
  | nil => simp [lookup, erase]
  | cons e es ih =>
    rw [keys_cons, List.nodup_cons] at h
    rw [erase_cons]
    by_cases he : e.1 = key
    · rw [if_pos he, lookup_cons]
      by_cases hk : k = key
      · rw [if_pos hk, lookup_eq_none, hk, ← he]
        exact h.1
      · rw [if_neg hk, he, if_neg (Ne.symm hk)]
    · rw [if_neg he, lookup_cons, lookup_cons, ih h.2]
      by_cases hk : k = key
      · rw [if_pos hk, if_neg (hk ▸ he), if_pos hk]
      · rw [if_neg hk, if_neg hk]

/-- Where no key comes twice, the first entry with a key is the only one. -/
theorem split_of_mem (h : (keys es).Nodup) (hk : key ∈ keys es) :
    ∃ es₁ v es₂, es = es₁ ++ (key, v) :: es₂ ∧ key ∉ keys (es₁ ++ es₂) ∧
      lookup key es = some v ∧ erase key es = es₁ ++ es₂ := by
  obtain ⟨⟨key, v⟩, he, rfl⟩ := List.mem_map.mp hk
  obtain ⟨es₁, es₂, rfl⟩ := List.append_of_mem he
  have hmiddle : (key :: keys (es₁ ++ es₂)).Nodup := by
    rw [keys, List.map_append, List.map_cons, List.perm_middle.nodup_iff] at h
    rwa [keys, List.map_append]
  have hnot := (List.nodup_cons.mp hmiddle).1
  have hbefore : ∀ d ∈ es₁, d.1 ≠ key := fun d hd heq =>
    hnot (List.mem_map.mpr ⟨d, List.mem_append_left _ hd, heq⟩)
  exact ⟨es₁, v, es₂, rfl, hnot, lookup_split hbefore rfl, erase_split hbefore rfl⟩

theorem alter_perm (h : (keys es).Nodup) (hk : key ∈ keys es) (v : β) :
    (alter key v es).Perm ((key, v) :: erase key es) := by
  obtain ⟨es₁, w, es₂, rfl, hnot, -, herase⟩ := split_of_mem h hk
  have hbefore : ∀ d ∈ es₁, d.1 ≠ key := fun d hd heq =>
    hnot (List.mem_map.mpr ⟨d, List.mem_append_left _ hd, heq⟩)
  rw [herase, alter_split v hbefore rfl]
  exact List.perm_middle

end Keyed
