import Mathlib.Data.List.TakeWhile

/-!
# Byte memory and C strings

A memory, or the part of one that starts at some array, is a function from the offset to the
byte there; so a write past the end of an array is a write to what lies behind it. A C string
is a list of bytes none of which is the terminator.
-/

namespace Memory

/-- The bytes `mem[a], …, mem[a + n - 1]`. -/
def read (mem : Nat → UInt8) (a n : Nat) : List UInt8 := (List.range n).map fun i => mem (a + i)

/-- The memory after `bs` was stored from `a` on. -/
def write (mem : Nat → UInt8) (a : Nat) (bs : List UInt8) : Nat → UInt8 :=
  fun i => if h : a ≤ i ∧ i < a + bs.length then bs[i - a] else mem i

variable {mem : Nat → UInt8} {a b n : Nat} {bs : List UInt8}

@[simp] theorem length_read : (read mem a n).length = n := by
  simp [read]

@[simp] theorem getElem_read {i : Nat} (h : i < (read mem a n).length) :
    (read mem a n)[i] = mem (a + i) := by
  simp [read]

theorem read_congr {mem' : Nat → UInt8} (h : ∀ i < n, mem (a + i) = mem' (a + i)) :
    read mem a n = read mem' a n := by
  apply List.map_congr_left
  intro i hi
  exact h i (List.mem_range.mp hi)

theorem write_of_lt {i : Nat} (h : i < a) : write mem a bs i = mem i := by
  unfold write
  rw [dif_neg (by omega)]

theorem write_of_ge {i : Nat} (h : a + bs.length ≤ i) : write mem a bs i = mem i := by
  unfold write
  rw [dif_neg (by omega)]

theorem write_of_not_mem {i : Nat} (h : ¬ (a ≤ i ∧ i < a + bs.length)) :
    write mem a bs i = mem i := dif_neg h

@[simp] theorem write_nil : write mem a [] = mem := by
  funext i
  rcases Nat.lt_or_ge i a with h | h
  · exact write_of_lt h
  · exact write_of_ge h

theorem write_add {i : Nat} (h : i < bs.length) : write mem a bs (a + i) = bs[i] := by
  unfold write
  rw [dif_pos (by omega)]
  simp

theorem write_singleton (mem : Nat → UInt8) (a : Nat) (v : UInt8) : write mem a [v] a = v := by
  simp [write]

/-- What was stored is read back. -/
theorem read_write_same : read (write mem a bs) a bs.length = bs := by
  apply List.ext_getElem
  · simp
  · intro i hi _
    rw [getElem_read, write_add (by simpa using hi)]

/-- A store leaves what lies before it or behind it as it was. -/
theorem read_write_disjoint (h : b + n ≤ a ∨ a + bs.length ≤ b) :
    read (write mem a bs) b n = read mem b n := by
  apply read_congr
  intro i hi
  rcases h with h | h
  · exact write_of_lt (by omega)
  · exact write_of_ge (by omega)

/-- Two stores one behind the other are one. -/
theorem write_write_append {cs : List UInt8} :
    write (write mem a bs) (a + bs.length) cs = write mem a (bs ++ cs) := by
  funext i
  rcases Nat.lt_or_ge i (a + bs.length) with hi | hi
  · rw [write_of_lt hi]
    rcases Nat.lt_or_ge i a with hlt | hge
    · rw [write_of_lt hlt, write_of_lt hlt]
    · obtain ⟨k, rfl⟩ := Nat.exists_eq_add_of_le hge
      have hk : k < bs.length := by omega
      rw [write_add hk, write_add (by rw [List.length_append]; omega), List.getElem_append_left hk]
  · rcases Nat.lt_or_ge i (a + bs.length + cs.length) with hlt | hge
    · obtain ⟨k, rfl⟩ := Nat.exists_eq_add_of_le hi
      have hk : k < cs.length := by omega
      rw [write_add hk, Nat.add_assoc, write_add (by rw [List.length_append]; omega)]
      simp
    · rw [write_of_ge hge, write_of_ge (by omega), write_of_ge (by rw [List.length_append]; omega)]

/-- Stores apart from each other may change places. -/
theorem write_comm {cs : List UInt8} (h : a + bs.length ≤ b) :
    write (write mem a bs) b cs = write (write mem b cs) a bs := by
  funext i
  by_cases hb : b ≤ i ∧ i < b + cs.length
  · rw [@write_of_ge (write mem b cs) a bs i (Nat.le_trans h hb.1), write, dif_pos hb, write,
      dif_pos hb]
  · rw [write_of_not_mem hb]
    by_cases ha : a ≤ i ∧ i < a + bs.length
    · rw [write, dif_pos ha, write, dif_pos ha]
    · rw [write_of_not_mem ha, write_of_not_mem ha, write_of_not_mem hb]

/-- The four bytes of a number, the lowest first. -/
def wordBytes (v : Nat) : List UInt8 :=
  [UInt8.ofNat v, UInt8.ofNat (v / 0x100), UInt8.ofNat (v / 0x10000), UInt8.ofNat (v / 0x1000000)]

/-- The number in four bytes. -/
def word (mem : Nat → UInt8) (a : Nat) : Nat :=
  (mem a).toNat + 0x100 * (mem (a + 1)).toNat + 0x10000 * (mem (a + 2)).toNat +
    0x1000000 * (mem (a + 3)).toNat

theorem word_lt (mem : Nat → UInt8) (a : Nat) : word mem a < 0x100000000 := by
  have := (mem a).toNat_lt
  have := (mem (a + 1)).toNat_lt
  have := (mem (a + 2)).toNat_lt
  have := (mem (a + 3)).toNat_lt
  unfold word
  omega

theorem word_congr {mem' : Nat → UInt8} (h : ∀ i < 4, mem' (a + i) = mem (a + i)) :
    word mem' a = word mem a := by
  have hzero := h 0 (by decide)
  rw [Nat.add_zero] at hzero
  rw [word, word, hzero, h 1 (by decide), h 2 (by decide), h 3 (by decide)]

/-- A number of 32 bits is read back. -/
theorem word_write {v : Nat} (h : v < 0x100000000) : word (write mem a (wordBytes v)) a = v := by
  have hlen : (wordBytes v).length = 4 := rfl
  have hbyte (i : Nat) (hi : i < (wordBytes v).length) :
      write mem a (wordBytes v) (a + i) = (wordBytes v)[i] := write_add hi
  have hzero := hbyte 0 (by omega)
  rw [Nat.add_zero] at hzero
  rw [word, hzero, hbyte 1 (by omega), hbyte 2 (by omega), hbyte 3 (by omega)]
  simp only [wordBytes, List.getElem_cons_zero, List.getElem_cons_succ, UInt8.toNat_ofNat']
  omega

/-- The two bytes of a number, the lower first. -/
def halfBytes (v : Nat) : List UInt8 := [UInt8.ofNat v, UInt8.ofNat (v / 0x100)]

/-- The number in two bytes. -/
def half (mem : Nat → UInt8) (a : Nat) : Nat := (mem a).toNat + 0x100 * (mem (a + 1)).toNat

theorem half_lt (mem : Nat → UInt8) (a : Nat) : half mem a < 0x10000 := by
  have := (mem a).toNat_lt
  have := (mem (a + 1)).toNat_lt
  unfold half
  omega

theorem half_congr {mem' : Nat → UInt8} (h : ∀ i < 2, mem' (a + i) = mem (a + i)) :
    half mem' a = half mem a := by
  have hzero := h 0 (by decide)
  rw [Nat.add_zero] at hzero
  rw [half, half, hzero, h 1 (by decide)]

/-- A number of 16 bits is read back. -/
theorem half_write {v : Nat} (h : v < 0x10000) : half (write mem a (halfBytes v)) a = v := by
  have hlen : (halfBytes v).length = 2 := rfl
  have hbyte (i : Nat) (hi : i < (halfBytes v).length) :
      write mem a (halfBytes v) (a + i) = (halfBytes v)[i] := write_add hi
  have hzero := hbyte 0 (by omega)
  rw [Nat.add_zero] at hzero
  rw [half, hzero, hbyte 1 (by omega)]
  simp only [halfBytes, List.getElem_cons_zero, List.getElem_cons_succ, UInt8.toNat_ofNat']
  omega

/-- A store leaves the numbers before it and behind it as they were. -/
theorem half_write_disjoint (h : b + 2 ≤ a ∨ a + bs.length ≤ b) :
    half (write mem a bs) b = half mem b := by
  apply half_congr
  intro i hi
  rcases h with h | h
  · exact write_of_lt (by omega)
  · exact write_of_ge (by omega)

theorem word_write_disjoint (h : b + 4 ≤ a ∨ a + bs.length ≤ b) :
    word (write mem a bs) b = word mem b := by
  apply word_congr
  intro i hi
  rcases h with h | h
  · exact write_of_lt (by omega)
  · exact write_of_ge (by omega)

@[simp] theorem length_halfBytes (v : Nat) : (halfBytes v).length = 2 := rfl

@[simp] theorem length_wordBytes (v : Nat) : (wordBytes v).length = 4 := rfl

theorem read_add (m : Nat) : read mem a (n + m) = read mem a n ++ read mem (a + n) m := by
  apply List.ext_getElem
  · simp
  · intro i hi _
    rw [List.getElem_append]
    split
    · simp
    · rename_i h
      simp only [getElem_read, length_read] at h ⊢
      congr 1
      omega

theorem take_read (k : Nat) : (read mem a n).take k = read mem a (min k n) := by
  rw [read, ← List.map_take, List.take_range]
  rfl

theorem read_write_take (h : n ≤ bs.length) : read (write mem a bs) a n = bs.take n := by
  apply List.ext_getElem
  · simp [h]
  · intro i hi _
    rw [length_read] at hi
    rw [getElem_read, write_add (by omega), List.getElem_take]

/-- A byte is stored among others. -/
theorem read_write_set {i : Nat} {v : UInt8} (h : read mem a bs.length = bs) :
    read (write mem (a + i) [v]) a bs.length = bs.set i v := by
  apply List.ext_getElem
  · simp
  · intro k hk _
    rw [length_read] at hk
    rw [getElem_read, List.getElem_set]
    split
    · rename_i heq
      rw [← heq]
      exact write_singleton mem (a + i) v
    · rw [write_of_not_mem (by rw [List.length_singleton]; omega)]
      have hbyte := List.getElem_of_eq h (by rw [length_read]; exact hk)
      rw [← hbyte, getElem_read]

/-- What was stored is at the front of what is read from there on. -/
theorem read_write_of_le (h : bs.length ≤ n) :
    read (write mem a bs) a n = bs ++ read (write mem a bs) (a + bs.length) (n - bs.length) := by
  obtain ⟨m, rfl⟩ := Nat.exists_eq_add_of_le h
  rw [read_add, read_write_same, Nat.add_sub_cancel_left]

end Memory

/-- The bytes of an ASCII text. -/
def ascii (s : String) : List UInt8 := s.toList.map fun c => UInt8.ofNat c.toNat

/-- The C string at the front of some memory: the bytes before the first NUL. -/
def cstr (mem : List UInt8) : List UInt8 := mem.takeWhile (· ≠ 0)

/-- A C string: no byte of it is the terminator. -/
abbrev CString := {s : List UInt8 // 0 ∉ s}

theorem cstr_cons {b : UInt8} (h : b ≠ 0) (mem : List UInt8) : cstr (b :: mem) = b :: cstr mem := by
  simp [cstr, h]

theorem cstr_append {s : List UInt8} (h : 0 ∉ s) (mem : List UInt8) :
    cstr (s ++ mem) = s ++ cstr mem := by
  induction s with
  | nil => rfl
  | cons b s ih =>
    rw [List.mem_cons, not_or] at h
    rw [List.cons_append, cstr_cons (Ne.symm h.1), ih h.2, List.cons_append]

theorem cstr_append_nul {s : List UInt8} (h : 0 ∉ s) (rest : List UInt8) :
    cstr (s ++ 0 :: rest) = s := by
  rw [cstr_append h, cstr, List.takeWhile_cons_of_neg (by simp), List.append_nil]

theorem cstr_replicate_zero (n : Nat) : cstr (List.replicate n 0) = [] := by
  cases n with
  | zero => rfl
  | succ n => simp [cstr, List.replicate_succ]

/-- An array of `n` bytes holds a text together with its terminator. -/
structure Holds (n : Nat) (array text : List UInt8) : Prop where
  length : array.length = n
  text : ∃ rest, array = text ++ 0 :: rest
