import Mathlib.Data.List.Basic

/-!
# Hexadecimal text

Two uppercase digits a byte, the high nibble first, and back.
-/

namespace Hex

/-- `0123456789ABCDEF` -/
def digits : List UInt8 := [48, 49, 50, 51, 52, 53, 54, 55, 56, 57, 65, 66, 67, 68, 69, 70]

/-- The digit of a value below 16. -/
def digit (v : Nat) : UInt8 := digits.getD v 0

/-- The value of a digit. -/
def value (c : UInt8) : Option Nat := digits.idxOf? c

def encodeByte (b : UInt8) : List UInt8 := [digit (b.toNat / 16), digit (b.toNat % 16)]

def encode (bs : List UInt8) : List UInt8 := bs.flatMap encodeByte

/-- The bytes of a text of digit pairs. -/
def decode : List UInt8 → Option (List UInt8)
  | [] => some []
  | [_] => none
  | high :: low :: rest => do
    let h ← value high
    let l ← value low
    let bs ← decode rest
    return UInt8.ofNat (16 * h + l) :: bs

theorem encode_cons (b : UInt8) (bs : List UInt8) : encode (b :: bs) = encodeByte b ++ encode bs :=
  rfl

theorem length_encode (bs : List UInt8) : (encode bs).length = 2 * bs.length := by
  induction bs with
  | nil => rfl
  | cons b bs ih =>
    rw [encode_cons, List.length_append, ih, List.length_cons]
    simp only [encodeByte, List.length_cons, List.length_nil]
    omega

theorem value_digit {v : Nat} (h : v < 16) : value (digit v) = some v := by
  revert v
  decide

/-- Decoding gives the bytes back. -/
theorem decode_encode (bs : List UInt8) : decode (encode bs) = some bs := by
  induction bs with
  | nil => rfl
  | cons b bs ih =>
    have hhigh : value (digit (b.toNat / 16)) = some (b.toNat / 16) := by
      apply value_digit
      have := b.toNat_lt
      omega
    have hlow : value (digit (b.toNat % 16)) = some (b.toNat % 16) :=
      value_digit (Nat.mod_lt _ (by omega))
    have hbyte : UInt8.ofNat (16 * (b.toNat / 16) + b.toNat % 16) = b := by
      rw [Nat.div_add_mod, UInt8.ofNat_toNat]
    simp only [encode_cons, encodeByte, List.cons_append, List.nil_append, decode, hhigh, hlow, ih,
      Option.bind_eq_bind, Option.bind_some, hbyte]
    rfl

theorem encode_injective : Function.Injective encode := by
  intro bs bs' h
  have hdecode := congrArg decode h
  rw [decode_encode, decode_encode] at hdecode
  exact Option.some.inj hdecode

/-- All characters of a text are digits. -/
theorem mem_digits_of_mem_encode {bs : List UInt8} {c : UInt8} (h : c ∈ encode bs) :
    c ∈ digits := by
  obtain ⟨b, -, hc⟩ := List.mem_flatMap.mp h
  have hdigit : ∀ v < 16, digit v ∈ digits := by decide
  have hlt := b.toNat_lt
  rcases List.mem_cons.mp hc with rfl | hc
  · exact hdigit _ (by omega)
  · rw [List.mem_singleton.mp hc]
    exact hdigit _ (by omega)

end Hex
