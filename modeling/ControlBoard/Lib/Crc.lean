import Mathlib.Data.List.GetD
import Mathlib.Logic.Function.Iterate

/-!
# Cyclic redundancy checks, the lowest bit first

A register of `w` bits that takes in a message bit by bit and is divided by a generator with each.
The generator is given without its highest term, and reflected as the register is. Everything rests
on the register being linear: what an error does to it does not depend on the message.
-/

namespace Crc

variable {w : Nat}

/-- The lowest bit leaves the register, and adds the generator to it if it is set. -/
def shift (g c : BitVec w) : BitVec w := if c.getLsbD 0 then (c >>> 1) ^^^ g else c >>> 1

/-- The bits as the lowest ones of a register, the first of them lowest. -/
def low (w : Nat) (bs : List Bool) : BitVec w := (BitVec.ofBoolListLE bs).setWidth w

/-- One bit of the message. -/
def feed (g c : BitVec w) (b : Bool) : BitVec w := shift g (c ^^^ low w [b])

def ofBits (g c : BitVec w) (bs : List Bool) : BitVec w := bs.foldl (feed g) c

/-- The bits of a byte, the lowest first. -/
def bitsOf (b : UInt8) : List Bool := (List.range 8).map b.toBitVec.getLsbD

/-- The bits of a frame in the order in which they are sent. -/
def bits (frame : List UInt8) : List Bool := frame.flatMap bitsOf

/-- One byte of the message at once. -/
def feedByte (g c : BitVec w) (b : UInt8) : BitVec w := (shift g)^[8] (c ^^^ b.toBitVec.setWidth w)

def ofBytes (g c : BitVec w) (frame : List UInt8) : BitVec w := frame.foldl (feedByte g) c

variable {g c d : BitVec w} {b : Bool} {bs es : List Bool} {n : Nat}

/-! ## Linearity -/

theorem shift_xor (g c d : BitVec w) : shift g (c ^^^ d) = shift g c ^^^ shift g d := by
  have hcancel : ∀ x y : BitVec w, x ^^^ g ^^^ (y ^^^ g) = x ^^^ y := fun x y => by
    rw [BitVec.xor_comm y g, ← BitVec.xor_assoc, BitVec.xor_assoc x g g, BitVec.xor_self,
      BitVec.xor_zero]
  simp only [shift, BitVec.getLsbD_xor, BitVec.ushiftRight_xor_distrib]
  cases hc : c.getLsbD 0 with
  | false =>
    cases hd : d.getLsbD 0 with
    | false => simp
    | true => simp [BitVec.xor_assoc]
  | true =>
    cases hd : d.getLsbD 0 with
    | false =>
      simp only [Bool.xor_false, if_true, Bool.false_eq_true, if_false]
      rw [BitVec.xor_assoc, BitVec.xor_assoc, BitVec.xor_comm g]
    | true => simp [hcancel]

@[simp] theorem shift_zero (g : BitVec w) : shift g 0#w = 0#w := by
  simp [shift]

theorem iterate_shift_xor (g c d : BitVec w) (n : Nat) :
    (shift g)^[n] (c ^^^ d) = (shift g)^[n] c ^^^ (shift g)^[n] d := by
  induction n generalizing c d with
  | zero => rfl
  | succ n ih => rw [Function.iterate_succ_apply, Function.iterate_succ_apply,
      Function.iterate_succ_apply, shift_xor, ih]

theorem iterate_shift_zero (g : BitVec w) (n : Nat) : (shift g)^[n] 0#w = 0#w := by
  induction n with
  | zero => rfl
  | succ n ih => rw [Function.iterate_succ_apply, shift_zero, ih]

/-- With the highest bit of the generator set, nothing but 0 is shifted to 0. -/
theorem shift_eq_zero (hg : g.msb = true) : shift g c = 0#w ↔ c = 0#w := by
  refine ⟨fun h => ?_, fun h => by rw [h, shift_zero]⟩
  cases hc : c.getLsbD 0 with
  | false =>
    rw [shift, hc, if_neg (by simp)] at h
    apply BitVec.eq_of_getLsbD_eq
    intro i _
    cases i with
    | zero => simpa using hc
    | succ i =>
      have hbit := congrArg (fun x : BitVec w => x.getLsbD i) h
      simpa [Nat.add_comm] using hbit
  | true =>
    rw [shift, hc, if_pos rfl] at h
    have hbit := congrArg BitVec.msb h
    have htop : (c >>> 1).msb = false := by
      rw [BitVec.msb_ushiftRight]
      rfl
    rw [BitVec.msb_xor, hg, htop, BitVec.msb_zero] at hbit
    cases hbit

theorem iterate_shift_eq_zero (hg : g.msb = true) : (shift g)^[n] c = 0#w ↔ c = 0#w := by
  induction n generalizing c with
  | zero => rfl
  | succ n ih => rw [Function.iterate_succ_apply, ih, shift_eq_zero hg]

@[simp] theorem ofBits_nil (g c : BitVec w) : ofBits g c [] = c := rfl

@[simp] theorem ofBits_cons (g c : BitVec w) (b : Bool) (bs : List Bool) :
    ofBits g c (b :: bs) = ofBits g (feed g c b) bs := rfl

theorem ofBits_append (g c : BitVec w) (bs bs' : List Bool) :
    ofBits g c (bs ++ bs') = ofBits g (ofBits g c bs) bs' := List.foldl_append

theorem getLsbD_low (w : Nat) (bs : List Bool) (i : Nat) :
    (low w bs).getLsbD i = (decide (i < w) && bs.getD i false) := by
  rw [low, BitVec.getLsbD_setWidth, BitVec.getLsbD_ofBoolListLE]

theorem low_singleton_xor (w : Nat) (a b : Bool) :
    low w [a ^^ b] = low w [a] ^^^ low w [b] := by
  apply BitVec.eq_of_getLsbD_eq
  intro i _
  rw [BitVec.getLsbD_xor, getLsbD_low, getLsbD_low, getLsbD_low]
  cases i with
  | zero => cases decide (0 < w) <;> simp
  | succ i => simp

theorem feed_xor (g c d : BitVec w) (a b : Bool) :
    feed g (c ^^^ d) (a ^^ b) = feed g c a ^^^ feed g d b := by
  rw [feed, feed, feed, ← shift_xor, low_singleton_xor]
  congr 1
  ac_rfl

/-- What an error does to the register is what it does alone. -/
theorem ofBits_xor (g c d : BitVec w) (h : bs.length = es.length) :
    ofBits g (c ^^^ d) (List.zipWith xor bs es) = ofBits g c bs ^^^ ofBits g d es := by
  induction bs generalizing c d es with
  | nil =>
    cases es with
    | nil => rfl
    | cons e es => cases h
  | cons b bs ih =>
    cases es with
    | nil => cases h
    | cons e es =>
      rw [List.zipWith_cons_cons, ofBits_cons, ofBits_cons, ofBits_cons, feed_xor]
      exact ih _ _ (Nat.succ.inj h)

/-- Bits that are not set only shift the register. -/
theorem ofBits_replicate_false (g c : BitVec w) (n : Nat) :
    ofBits g c (List.replicate n false) = (shift g)^[n] c := by
  have hzero : low w [false] = 0#w := by
    apply BitVec.eq_of_getLsbD_eq
    intro i _
    rw [getLsbD_low]
    cases i with
    | zero => simp
    | succ i => simp
  induction n generalizing c with
  | zero => rfl
  | succ n ih =>
    rw [List.replicate_succ, ofBits_cons, ih, feed, hzero, BitVec.xor_zero,
      Function.iterate_succ_apply]

/-- What is in the register beside is shifted out by the message. -/
theorem ofBits_xor_left (g c d : BitVec w) (bs : List Bool) :
    ofBits g (c ^^^ d) bs = ofBits g c bs ^^^ (shift g)^[bs.length] d := by
  induction bs generalizing c d with
  | nil => rfl
  | cons b bs ih =>
    have hfeed : feed g (c ^^^ d) b = feed g c b ^^^ shift g d := by
      rw [feed, feed, ← shift_xor]
      congr 1
      ac_rfl
    rw [ofBits_cons, ofBits_cons, hfeed, ih, List.length_cons, Function.iterate_succ_apply]

/-! ## A few bits at once -/

theorem low_cons (b : Bool) (bs : List Bool) :
    low w (b :: bs) = low w [b] ^^^ (low w bs <<< 1) := by
  apply BitVec.eq_of_getLsbD_eq
  intro i hi
  rw [BitVec.getLsbD_xor, BitVec.getLsbD_shiftLeft, getLsbD_low, getLsbD_low, getLsbD_low]
  cases i with
  | zero => simp
  | succ i =>
    have hlt : i < w := Nat.lt_of_succ_lt hi
    simp [hi, hlt]

/-- What is moved up by one comes down again, as long as it is not cut off. -/
theorem shift_shiftLeft (g : BitVec w) (h : bs.length < w) :
    shift g (low w bs <<< 1) = low w bs := by
  have hlow : (low w bs <<< 1).getLsbD 0 = false := by
    rw [BitVec.getLsbD_shiftLeft]
    simp
  rw [shift, hlow, if_neg Bool.false_ne_true]
  apply BitVec.eq_of_getLsbD_eq
  intro i hi
  rw [BitVec.getLsbD_ushiftRight, BitVec.getLsbD_shiftLeft, getLsbD_low, getLsbD_low]
  by_cases hlt : 1 + i < w
  · simp [hi, hlt]
  · rw [List.getD_eq_default _ _ (by omega : bs.length ≤ i)]
    simp [hlt]

/-- A register that holds the bits which come next is emptied by them. -/
theorem ofBits_low (g : BitVec w) (h : bs.length ≤ w) : ofBits g (low w bs) bs = 0#w := by
  induction bs with
  | nil =>
    rw [ofBits_nil]
    apply BitVec.eq_of_getLsbD_eq
    intro i _
    rw [getLsbD_low]
    simp
  | cons b bs ih =>
    rw [ofBits_cons, low_cons, feed, BitVec.xor_comm (low w [b]), BitVec.xor_assoc,
      BitVec.xor_self, BitVec.xor_zero, shift_shiftLeft g h]
    exact ih (Nat.le_of_succ_le h)

/-- Up to `w` bits can be added to the register before they are shifted. -/
theorem ofBits_eq_iterate (g c : BitVec w) (h : bs.length ≤ w) :
    ofBits g c bs = (shift g)^[bs.length] (c ^^^ low w bs) := by
  have hxor := ofBits_xor_left g (low w bs) (c ^^^ low w bs) bs
  rw [ofBits_low g h, BitVec.zero_xor] at hxor
  rw [← hxor, BitVec.xor_comm c, ← BitVec.xor_assoc, BitVec.xor_self, BitVec.zero_xor]

theorem low_eq_zero (h : bs.length ≤ w) : low w bs = 0#w ↔ ∀ b ∈ bs, b = false := by
  constructor
  · intro hlow b hb
    obtain ⟨i, hi, rfl⟩ := List.getElem_of_mem hb
    have hbit : (low w bs).getLsbD i = (0#w).getLsbD i := by rw [hlow]
    rw [getLsbD_low, BitVec.getLsbD_zero, List.getD_eq_getElem _ _ hi] at hbit
    simpa [Nat.lt_of_lt_of_le hi h] using hbit
  · intro hall
    apply BitVec.eq_of_getLsbD_eq
    intro i _
    rw [getLsbD_low, BitVec.getLsbD_zero]
    by_cases hi : i < bs.length
    · rw [List.getD_eq_getElem _ _ hi, hall _ (List.getElem_mem hi), Bool.and_false]
    · rw [List.getD_eq_default _ _ (Nat.le_of_not_lt hi), Bool.and_false]

/-- The register is emptied by exactly the bits that it holds. -/
theorem ofBits_eq_zero (hg : g.msb = true) (h : bs.length ≤ w) :
    ofBits g c bs = 0#w ↔ c = low w bs := by
  rw [ofBits_eq_iterate g c h, iterate_shift_eq_zero hg, BitVec.xor_eq_zero_iff]

/-! ## Bytes -/

@[simp] theorem length_bitsOf (b : UInt8) : (bitsOf b).length = 8 := rfl

theorem getD_bitsOf (b : UInt8) (i : Nat) : (bitsOf b).getD i false = b.toBitVec.getLsbD i := by
  by_cases hi : i < 8
  · rw [List.getD_eq_getElem _ _ (by rwa [length_bitsOf])]
    simp [bitsOf]
  · rw [List.getD_eq_default _ _ (by rw [length_bitsOf]; omega),
      BitVec.getLsbD_of_ge _ _ (Nat.le_of_not_lt hi)]

theorem low_bitsOf (w : Nat) (b : UInt8) : low w (bitsOf b) = b.toBitVec.setWidth w := by
  apply BitVec.eq_of_getLsbD_eq
  intro i _
  rw [getLsbD_low, getD_bitsOf, BitVec.getLsbD_setWidth]

theorem feedByte_eq (g c : BitVec w) (hw : 8 ≤ w) (b : UInt8) :
    feedByte g c b = ofBits g c (bitsOf b) := by
  rw [feedByte, ofBits_eq_iterate g c (by rwa [length_bitsOf]), low_bitsOf, length_bitsOf]

/-- A frame byte by byte is the frame bit by bit. -/
theorem ofBytes_eq (g c : BitVec w) (hw : 8 ≤ w) (frame : List UInt8) :
    ofBytes g c frame = ofBits g c (bits frame) := by
  induction frame generalizing c with
  | nil => rfl
  | cons b frame ih =>
    have hcons : bits (b :: frame) = bitsOf b ++ bits frame := rfl
    rw [hcons, ofBits_append, ← feedByte_eq g c hw, ← ih]
    rfl

theorem ofBytes_append (g c : BitVec w) (frame frame' : List UInt8) :
    ofBytes g c (frame ++ frame') = ofBytes g (ofBytes g c frame) frame' := List.foldl_append

theorem length_bits (frame : List UInt8) : (bits frame).length = 8 * frame.length := by
  induction frame with
  | nil => rfl
  | cons b frame ih =>
    have hcons : bits (b :: frame) = bitsOf b ++ bits frame := rfl
    rw [hcons, List.length_append, length_bitsOf, ih, List.length_cons]
    omega

/-- What moves down without meeting a set bit is not changed otherwise. -/
theorem iterate_shift_of_clear (g : BitVec w) (h : ∀ i < n, c.getLsbD i = false) :
    (shift g)^[n] c = c >>> n := by
  induction n generalizing c with
  | zero => simp
  | succ n ih =>
    have hfirst : shift g c = c >>> 1 := by
      rw [shift, h 0 (Nat.succ_pos n), if_neg Bool.false_ne_true]
    have hrest : ∀ i < n, (c >>> 1).getLsbD i = false := fun i hi => by
      rw [BitVec.getLsbD_ushiftRight, Nat.add_comm]
      exact h (i + 1) (Nat.succ_lt_succ hi)
    rw [Function.iterate_succ_apply, hfirst, ih hrest, ← BitVec.shiftRight_add, Nat.add_comm]

/-- The lowest bits can be looked up in a table, and the others move down. -/
theorem iterate_shift_eq (g c : BitVec w) (n : Nat) :
    (shift g)^[n] c = (shift g)^[n] ((c.setWidth n).setWidth w) ^^^ (c >>> n) := by
  have hclear : ∀ i < n, (c ^^^ (c.setWidth n).setWidth w).getLsbD i = false := fun i hi => by
    rw [BitVec.getLsbD_xor, BitVec.getLsbD_setWidth, BitVec.getLsbD_setWidth]
    by_cases hw : i < w
    · simp [hi, hw]
    · simp [hw, BitVec.getLsbD_of_ge c i (Nat.le_of_not_lt hw)]
  have hdown : (c ^^^ (c.setWidth n).setWidth w) >>> n = c >>> n := by
    apply BitVec.eq_of_getLsbD_eq
    intro i _
    simp [BitVec.getLsbD_ushiftRight, BitVec.getLsbD_setWidth]
  have hsum := iterate_shift_xor g ((c.setWidth n).setWidth w) (c ^^^ (c.setWidth n).setWidth w) n
  rw [iterate_shift_of_clear g hclear, hdown] at hsum
  rw [← hsum, BitVec.xor_comm c, ← BitVec.xor_assoc, BitVec.xor_self, BitVec.zero_xor]

/-! ## Parity -/

/-- Whether an odd number of the first values is true. -/
def oddBelow (f : Nat → Bool) : Nat → Bool
  | 0 => false
  | n + 1 => oddBelow f n ^^ f n

/-- Whether an odd number of bits is set. -/
def parity (c : BitVec w) : Bool := oddBelow c.getLsbD w

def oddBits (bs : List Bool) : Bool := bs.foldr xor false

theorem oddBelow_xor (f f' : Nat → Bool) (n : Nat) :
    oddBelow (fun i => f i ^^ f' i) n = (oddBelow f n ^^ oddBelow f' n) := by
  induction n with
  | zero => rfl
  | succ n ih =>
    rw [oddBelow, oddBelow, oddBelow, ih, Bool.xor_assoc, Bool.xor_assoc,
      Bool.xor_left_comm (oddBelow f' n)]

theorem oddBelow_succ (f : Nat → Bool) (n : Nat) :
    oddBelow (fun i => f (i + 1)) n = (oddBelow f n ^^ f 0 ^^ f n) := by
  induction n with
  | zero => simp [oddBelow]
  | succ n ih =>
    rw [oddBelow, oddBelow, ih, Bool.xor_assoc, Bool.xor_assoc, Bool.xor_assoc, Bool.xor_assoc,
      Bool.xor_left_comm (f 0)]

theorem parity_xor (c d : BitVec w) : parity (c ^^^ d) = (parity c ^^ parity d) := by
  rw [parity, parity, parity, ← oddBelow_xor]
  congr 1
  funext i
  rw [BitVec.getLsbD_xor]

/-- A generator with an odd number of terms below the highest keeps the parity of the register. -/
theorem parity_shift (hg : parity g = true) (c : BitVec w) : parity (shift g c) = parity c := by
  have hdown : parity (c >>> 1) = (parity c ^^ c.getLsbD 0) := by
    have hbits : (c >>> 1).getLsbD = fun i => c.getLsbD (i + 1) := by
      funext i
      rw [BitVec.getLsbD_ushiftRight, Nat.add_comm]
    rw [parity, hbits, oddBelow_succ, BitVec.getLsbD_of_ge c w (Nat.le_refl w), Bool.xor_false]
    rfl
  rw [shift]
  split
  · rename_i hbit
    rw [parity_xor, hdown, hg, hbit, Bool.xor_assoc, Bool.xor_self, Bool.xor_false]
  · rename_i hbit
    rw [Bool.not_eq_true] at hbit
    rw [hdown, hbit, Bool.xor_false]

theorem oddBelow_of_rest (f : Nat → Bool) (h : ∀ i, f (i + 1) = false) (n : Nat) :
    oddBelow f (n + 1) = f 0 := by
  induction n with
  | zero => exact Bool.false_xor _
  | succ n ih => rw [oddBelow, ih, h, Bool.xor_false]

theorem parity_low_singleton (hw : 0 < w) (b : Bool) : parity (low w [b]) = b := by
  obtain ⟨n, rfl⟩ := Nat.exists_eq_add_of_lt hw
  rw [parity, Nat.zero_add, oddBelow_of_rest _ fun i => ?_, getLsbD_low]
  · simp
  · rw [getLsbD_low]
    simp

theorem parity_ofBits (hg : parity g = true) (hw : 0 < w) (c : BitVec w) (bs : List Bool) :
    parity (ofBits g c bs) = (parity c ^^ oddBits bs) := by
  induction bs generalizing c with
  | nil =>
    rw [ofBits_nil]
    exact (Bool.xor_false _).symm
  | cons b bs ih =>
    rw [ofBits_cons, ih, feed, parity_shift hg, parity_xor, parity_low_singleton hw, Bool.xor_assoc]
    rfl

/-! ## What is noticed -/

/-- The bits that come before an error and behind it do not hide it. -/
theorem ofBits_padded (hg : g.msb = true) (a b : Nat) (bs : List Bool) :
    ofBits g 0#w (List.replicate a false ++ (bs ++ List.replicate b false)) = 0#w ↔
      ofBits g 0#w bs = 0#w := by
  rw [ofBits_append, ofBits_append, ofBits_replicate_false, ofBits_replicate_false,
    iterate_shift_zero, iterate_shift_eq_zero hg]

/-- An error within `w` bits is noticed. -/
theorem ofBits_burst (hg : g.msb = true) (h : bs.length ≤ w) :
    ofBits g 0#w bs = 0#w ↔ ∀ b ∈ bs, b = false := by
  rw [ofBits_eq_zero hg h, eq_comm, low_eq_zero h]

/-- An error in an odd number of bits is noticed. -/
theorem ofBits_odd (hg : parity g = true) (hw : 0 < w) (hodd : oddBits bs = true) :
    ofBits g 0#w bs ≠ 0#w := by
  intro hzero
  have hparity := parity_ofBits hg hw 0#w bs
  rw [hzero, hodd] at hparity
  cases hp : parity 0#w with
  | false => simp [hp] at hparity
  | true => simp [hp] at hparity

/-- An error in two bits is noticed unless the register comes round in between. -/
theorem ofBits_pair (hg : g.msb = true) (hw : 0 < w) (n : Nat) :
    ofBits g 0#w (true :: (List.replicate n false ++ [true])) = 0#w ↔
      (shift g)^[n + 1] 1#w = 1#w := by
  have hone : low w [true] = 1#w := by
    apply BitVec.eq_of_getLsbD_eq
    intro i hi
    rw [getLsbD_low, BitVec.getLsbD_one]
    cases i with
    | zero => simp [hw]
    | succ i => simp
  rw [ofBits_cons, ofBits_append, ofBits_replicate_false, feed, BitVec.zero_xor, hone,
    ← Function.iterate_succ_apply, ofBits_cons, ofBits_nil, feed, shift_eq_zero hg, hone,
    BitVec.xor_eq_zero_iff]

/-- Whether the register does not get to `d` in `n` shifts. -/
def staysAway (g d : BitVec w) : Nat → BitVec w → Bool
  | 0, c => c != d
  | n + 1, c => c != d && staysAway g d n (shift g c)

theorem iterate_ne_of_staysAway (h : staysAway g d n c = true) :
    ∀ k ≤ n, (shift g)^[k] c ≠ d := by
  induction n generalizing c with
  | zero =>
    intro k hk
    rw [Nat.le_zero.mp hk]
    simpa [staysAway] using h
  | succ n ih =>
    rw [staysAway, Bool.and_eq_true, bne_iff_ne] at h
    intro k hk
    cases k with
    | zero => exact h.1
    | succ k =>
      rw [Function.iterate_succ_apply]
      exact ih h.2 k (Nat.le_of_succ_le_succ hk)

/-! ## Kinds of errors -/

/-- Errors that are found whatever the message is: an odd number of bits, two bits, or bits within
the width of the register. -/
def Notable (w : Nat) (es : List Bool) : Prop :=
  es.count true % 2 = 1 ∨ es.count true = 2 ∨ ∃ a mid b, es =
    List.replicate a false ++ (mid ++ List.replicate b false) ∧ mid.length ≤ w ∧ true ∈ mid

theorem oddBits_iff (bs : List Bool) : oddBits bs = true ↔ bs.count true % 2 = 1 := by
  induction bs with
  | nil => simp [oddBits]
  | cons b bs ih =>
    have hcons : oddBits (b :: bs) = (b ^^ oddBits bs) := rfl
    cases b with
    | false => rw [hcons, Bool.false_xor, ih, List.count_cons_of_ne Bool.false_ne_true]
    | true =>
      rw [hcons, Bool.true_xor, Bool.not_eq_true', List.count_cons_self, ← Bool.not_eq_true, ih]
      omega

theorem eq_replicate_of_count (h : bs.count true = 0) : bs = List.replicate bs.length false :=
  List.eq_replicate_iff.mpr ⟨rfl, fun b hb => by
    cases b with
    | false => rfl
    | true => exact absurd hb (List.count_eq_zero.mp h)⟩

/-- The first bit that is set. -/
theorem exists_first (h : true ∈ bs) : ∃ a rest, bs = List.replicate a false ++ true :: rest := by
  induction bs with
  | nil => cases h
  | cons b bs ih =>
    cases b with
    | true => exact ⟨0, bs, rfl⟩
    | false =>
      obtain ⟨a, rest, rfl⟩ := ih ((List.mem_cons.mp h).resolve_left (by simp))
      exact ⟨a + 1, rest, rfl⟩

theorem exists_pair (h : bs.count true = 2) : ∃ a n b, bs = List.replicate a false ++
    ((true :: (List.replicate n false ++ [true])) ++ List.replicate b false) := by
  obtain ⟨a, rest, rfl⟩ := exists_first (List.count_pos_iff.mp (by omega : 0 < bs.count true))
  have hone : rest.count true = 1 := by
    simpa [List.count_append, List.count_replicate] using h
  obtain ⟨n, last, rfl⟩ := exists_first (List.count_pos_iff.mp (by omega : 0 < rest.count true))
  have hnone : last.count true = 0 := by
    simpa [List.count_append, List.count_replicate] using hone
  refine ⟨a, n, last.length, ?_⟩
  rw [List.cons_append, List.append_assoc, List.singleton_append, ← eq_replicate_of_count hnone]

/-- Notable errors are found, where the register does not come round within the message. -/
theorem ofBits_ne_zero (hg : g.msb = true) (hodd : parity g = true) (hw : 0 < w)
    (hround : ∀ k < n, (shift g)^[k + 1] 1#w ≠ 1#w) (hes : Notable w es)
    (hlen : es.length ≤ n + 1) : ofBits g 0#w es ≠ 0#w := by
  rcases hes with hes | hes | ⟨a, mid, b, rfl, hmid, hset⟩
  · exact ofBits_odd hodd hw ((oddBits_iff es).mpr hes)
  · obtain ⟨a, k, b, rfl⟩ := exists_pair hes
    rw [ne_eq, ofBits_padded hg, ofBits_pair hg hw]
    apply hround
    simp only [List.length_append, List.length_cons, List.length_replicate, List.length_nil] at hlen
    omega
  · rw [ne_eq, ofBits_padded hg, ofBits_burst hg hmid]
    intro hall
    cases hall true hset

end Crc
