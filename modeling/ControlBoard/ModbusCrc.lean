import ControlBoard.Lib.Crc

/-!
# The checksum of Modbus RTU

`usMBCRC16` of `modbus/rtu/mbcrc.c` with its two tables. It divides by the generator of CRC-16, and
what is known of such checksums holds of it.
-/

namespace ControlBoard

open Crc

def aucCRCHi : List UInt8 :=
  [
    0x00, 0xc1, 0x81, 0x40, 0x01, 0xc0, 0x80, 0x41, 0x01, 0xc0, 0x80, 0x41, 0x00, 0xc1, 0x81, 0x40,
    0x01, 0xc0, 0x80, 0x41, 0x00, 0xc1, 0x81, 0x40, 0x00, 0xc1, 0x81, 0x40, 0x01, 0xc0, 0x80, 0x41,
    0x01, 0xc0, 0x80, 0x41, 0x00, 0xc1, 0x81, 0x40, 0x00, 0xc1, 0x81, 0x40, 0x01, 0xc0, 0x80, 0x41,
    0x00, 0xc1, 0x81, 0x40, 0x01, 0xc0, 0x80, 0x41, 0x01, 0xc0, 0x80, 0x41, 0x00, 0xc1, 0x81, 0x40,
    0x01, 0xc0, 0x80, 0x41, 0x00, 0xc1, 0x81, 0x40, 0x00, 0xc1, 0x81, 0x40, 0x01, 0xc0, 0x80, 0x41,
    0x00, 0xc1, 0x81, 0x40, 0x01, 0xc0, 0x80, 0x41, 0x01, 0xc0, 0x80, 0x41, 0x00, 0xc1, 0x81, 0x40,
    0x00, 0xc1, 0x81, 0x40, 0x01, 0xc0, 0x80, 0x41, 0x01, 0xc0, 0x80, 0x41, 0x00, 0xc1, 0x81, 0x40,
    0x01, 0xc0, 0x80, 0x41, 0x00, 0xc1, 0x81, 0x40, 0x00, 0xc1, 0x81, 0x40, 0x01, 0xc0, 0x80, 0x41,
    0x01, 0xc0, 0x80, 0x41, 0x00, 0xc1, 0x81, 0x40, 0x00, 0xc1, 0x81, 0x40, 0x01, 0xc0, 0x80, 0x41,
    0x00, 0xc1, 0x81, 0x40, 0x01, 0xc0, 0x80, 0x41, 0x01, 0xc0, 0x80, 0x41, 0x00, 0xc1, 0x81, 0x40,
    0x00, 0xc1, 0x81, 0x40, 0x01, 0xc0, 0x80, 0x41, 0x01, 0xc0, 0x80, 0x41, 0x00, 0xc1, 0x81, 0x40,
    0x01, 0xc0, 0x80, 0x41, 0x00, 0xc1, 0x81, 0x40, 0x00, 0xc1, 0x81, 0x40, 0x01, 0xc0, 0x80, 0x41,
    0x00, 0xc1, 0x81, 0x40, 0x01, 0xc0, 0x80, 0x41, 0x01, 0xc0, 0x80, 0x41, 0x00, 0xc1, 0x81, 0x40,
    0x01, 0xc0, 0x80, 0x41, 0x00, 0xc1, 0x81, 0x40, 0x00, 0xc1, 0x81, 0x40, 0x01, 0xc0, 0x80, 0x41,
    0x01, 0xc0, 0x80, 0x41, 0x00, 0xc1, 0x81, 0x40, 0x00, 0xc1, 0x81, 0x40, 0x01, 0xc0, 0x80, 0x41,
    0x00, 0xc1, 0x81, 0x40, 0x01, 0xc0, 0x80, 0x41, 0x01, 0xc0, 0x80, 0x41, 0x00, 0xc1, 0x81, 0x40
  ]

def aucCRCLo : List UInt8 :=
  [
    0x00, 0xc0, 0xc1, 0x01, 0xc3, 0x03, 0x02, 0xc2, 0xc6, 0x06, 0x07, 0xc7, 0x05, 0xc5, 0xc4, 0x04,
    0xcc, 0x0c, 0x0d, 0xcd, 0x0f, 0xcf, 0xce, 0x0e, 0x0a, 0xca, 0xcb, 0x0b, 0xc9, 0x09, 0x08, 0xc8,
    0xd8, 0x18, 0x19, 0xd9, 0x1b, 0xdb, 0xda, 0x1a, 0x1e, 0xde, 0xdf, 0x1f, 0xdd, 0x1d, 0x1c, 0xdc,
    0x14, 0xd4, 0xd5, 0x15, 0xd7, 0x17, 0x16, 0xd6, 0xd2, 0x12, 0x13, 0xd3, 0x11, 0xd1, 0xd0, 0x10,
    0xf0, 0x30, 0x31, 0xf1, 0x33, 0xf3, 0xf2, 0x32, 0x36, 0xf6, 0xf7, 0x37, 0xf5, 0x35, 0x34, 0xf4,
    0x3c, 0xfc, 0xfd, 0x3d, 0xff, 0x3f, 0x3e, 0xfe, 0xfa, 0x3a, 0x3b, 0xfb, 0x39, 0xf9, 0xf8, 0x38,
    0x28, 0xe8, 0xe9, 0x29, 0xeb, 0x2b, 0x2a, 0xea, 0xee, 0x2e, 0x2f, 0xef, 0x2d, 0xed, 0xec, 0x2c,
    0xe4, 0x24, 0x25, 0xe5, 0x27, 0xe7, 0xe6, 0x26, 0x22, 0xe2, 0xe3, 0x23, 0xe1, 0x21, 0x20, 0xe0,
    0xa0, 0x60, 0x61, 0xa1, 0x63, 0xa3, 0xa2, 0x62, 0x66, 0xa6, 0xa7, 0x67, 0xa5, 0x65, 0x64, 0xa4,
    0x6c, 0xac, 0xad, 0x6d, 0xaf, 0x6f, 0x6e, 0xae, 0xaa, 0x6a, 0x6b, 0xab, 0x69, 0xa9, 0xa8, 0x68,
    0x78, 0xb8, 0xb9, 0x79, 0xbb, 0x7b, 0x7a, 0xba, 0xbe, 0x7e, 0x7f, 0xbf, 0x7d, 0xbd, 0xbc, 0x7c,
    0xb4, 0x74, 0x75, 0xb5, 0x77, 0xb7, 0xb6, 0x76, 0x72, 0xb2, 0xb3, 0x73, 0xb1, 0x71, 0x70, 0xb0,
    0x50, 0x90, 0x91, 0x51, 0x93, 0x53, 0x52, 0x92, 0x96, 0x56, 0x57, 0x97, 0x55, 0x95, 0x94, 0x54,
    0x9c, 0x5c, 0x5d, 0x9d, 0x5f, 0x9f, 0x9e, 0x5e, 0x5a, 0x9a, 0x9b, 0x5b, 0x99, 0x59, 0x58, 0x98,
    0x88, 0x48, 0x49, 0x89, 0x4b, 0x8b, 0x8a, 0x4a, 0x4e, 0x8e, 0x8f, 0x4f, 0x8d, 0x4d, 0x4c, 0x8c,
    0x44, 0x84, 0x85, 0x45, 0x87, 0x47, 0x46, 0x86, 0x82, 0x42, 0x43, 0x83, 0x41, 0x81, 0x80, 0x40
  ]

/-- One turn of the loop of `usMBCRC16`, from `ucCRCHi` and `ucCRCLo`. -/
def crcTurn (crc : UInt8 × UInt8) (b : UInt8) : UInt8 × UInt8 :=
  let iIndex := (crc.2 ^^^ b).toNat
  (aucCRCLo.getD iIndex 0, crc.1 ^^^ aucCRCHi.getD iIndex 0)

/-- `usMBCRC16(pucFrame, usLen)` of the bytes of a frame. -/
def usMBCRC16 (frame : List UInt8) : BitVec 16 :=
  let crc := frame.foldl crcTurn (0xff, 0xff)
  crc.1.toBitVec ++ crc.2.toBitVec

/-- The generator `x^16 + x^15 + x^2 + 1`, reflected and without its highest term. -/
def crcPoly : BitVec 16 := 0xa001

/-- The tables are those of eight shifts. -/
theorem crcTables : ∀ i < 256, (shift crcPoly)^[8] (BitVec.ofNat 16 i) =
    (aucCRCLo.getD i 0).toBitVec ++ (aucCRCHi.getD i 0).toBitVec := by
  decide +kernel

/-- A byte at a time from the tables is a byte at a time by division. -/
theorem feedByte_crcPoly (hi lo b : UInt8) : feedByte crcPoly (hi.toBitVec ++ lo.toBitVec) b =
    (crcTurn (hi, lo) b).1.toBitVec ++ (crcTurn (hi, lo) b).2.toBitVec := by
  have hadd : (hi.toBitVec ++ lo.toBitVec) ^^^ b.toBitVec.setWidth 16 =
      hi.toBitVec ++ (lo ^^^ b).toBitVec := by
    apply BitVec.eq_of_getLsbD_eq
    intro i hi
    rw [BitVec.getLsbD_xor, BitVec.getLsbD_append, BitVec.getLsbD_append, BitVec.getLsbD_setWidth,
      UInt8.toBitVec_xor, BitVec.getLsbD_xor]
    by_cases hlow : i < 8
    · simp [hlow, hi]
    · simp [hlow, BitVec.getLsbD_of_ge b.toBitVec i (Nat.le_of_not_lt hlow)]
  have hdown : (hi.toBitVec ++ (lo ^^^ b).toBitVec) >>> 8 = 0#8 ++ hi.toBitVec := by
    apply BitVec.eq_of_getLsbD_eq
    intro i _
    rw [BitVec.getLsbD_ushiftRight, BitVec.getLsbD_append, BitVec.getLsbD_append]
    by_cases hlow : i < 8
    · simp [hlow]
    · simp [hlow, BitVec.getLsbD_of_ge hi.toBitVec i (Nat.le_of_not_lt hlow)]
  have htable := crcTables (lo ^^^ b).toNat (lo ^^^ b).toNat_lt
  rw [← UInt8.toNat_toBitVec, BitVec.ofNat_toNat, UInt8.toNat_toBitVec] at htable
  rw [feedByte, hadd, iterate_shift_eq, BitVec.setWidth_append_eq_right, hdown, htable,
    BitVec.xor_append, BitVec.xor_zero, crcTurn, UInt8.toBitVec_xor, BitVec.xor_comm]

/-- The tables only make the division faster. -/
theorem usMBCRC16_eq_ofBytes (frame : List UInt8) :
    usMBCRC16 frame = ofBytes crcPoly 0xffff frame := by
  have hrun : ∀ crc : UInt8 × UInt8, (frame.foldl crcTurn crc).1.toBitVec ++
      (frame.foldl crcTurn crc).2.toBitVec =
        ofBytes crcPoly (crc.1.toBitVec ++ crc.2.toBitVec) frame := by
    induction frame with
    | nil => exact fun _ => rfl
    | cons b frame ih =>
      intro crc
      rw [List.foldl_cons, ih, ← feedByte_crcPoly]
      rfl
  exact hrun (0xff, 0xff)

/-- The two bytes that make a frame valid. -/
def crcBytes (frame : List UInt8) : List UInt8 :=
  let usCRC16 := usMBCRC16 frame
  [UInt8.ofBitVec (usCRC16.setWidth 8), UInt8.ofBitVec ((usCRC16 >>> 8).setWidth 8)]

theorem crcPoly_msb : crcPoly.msb = true := by decide

theorem crcPoly_parity : parity crcPoly = true := by decide

theorem low_two (lo hi : UInt8) : low 16 (bits [lo, hi]) = hi.toBitVec ++ lo.toBitVec := by
  have hbits : bits [lo, hi] = bitsOf lo ++ bitsOf hi := by simp [bits]
  apply BitVec.eq_of_getLsbD_eq
  intro i hi16
  rw [hbits, getLsbD_low, BitVec.getLsbD_append]
  by_cases hlow : i < 8
  · rw [List.getD_append _ _ _ _ (by rwa [length_bitsOf]), getD_bitsOf]
    simp [hlow, hi16]
  · rw [List.getD_append_right _ _ _ _ (by rw [length_bitsOf]; omega), length_bitsOf, getD_bitsOf]
    simp [hlow, hi16]

theorem setWidth_shiftRight_append (hi lo : BitVec 8) : ((hi ++ lo) >>> 8).setWidth 8 = hi := by
  apply BitVec.eq_of_getLsbD_eq
  intro i hi8
  rw [BitVec.getLsbD_setWidth, BitVec.getLsbD_ushiftRight, BitVec.getLsbD_append]
  simp [hi8]

theorem append_setWidth (c : BitVec 16) : (c >>> 8).setWidth 8 ++ c.setWidth 8 = c := by
  apply BitVec.eq_of_getLsbD_eq
  intro i hi16
  rw [BitVec.getLsbD_append, BitVec.getLsbD_setWidth, BitVec.getLsbD_setWidth,
    BitVec.getLsbD_ushiftRight]
  by_cases hlow : i < 8
  · simp [hlow]
  · have hback : 8 + (i - 8) = i := by omega
    have hlt : i - 8 < 8 := by omega
    simp [hlow, hback, hlt]

/-- Two bytes put together are a checksum exactly if they are its parts. -/
theorem eq_append_iff (c : BitVec 16) (lo hi : UInt8) : c = hi.toBitVec ++ lo.toBitVec ↔
    [lo, hi] = [UInt8.ofBitVec (c.setWidth 8), UInt8.ofBitVec ((c >>> 8).setWidth 8)] := by
  constructor
  · rintro rfl
    rw [BitVec.setWidth_append_eq_right, setWidth_shiftRight_append]
  · intro h
    simp only [List.cons.injEq, and_true] at h
    rw [h.1, h.2]
    exact (append_setWidth c).symm

/-- A frame gets the checksum 0 from its own two bytes and from no others. -/
theorem usMBCRC16_append_eq_zero (frame : List UInt8) (lo hi : UInt8) :
    usMBCRC16 (frame ++ [lo, hi]) = 0 ↔ [lo, hi] = crcBytes frame := by
  have hlen : (bits [lo, hi]).length ≤ 16 := by
    rw [length_bits]
    exact Nat.le_refl _
  rw [usMBCRC16_eq_ofBytes, ofBytes_append, ofBytes_eq _ _ (by decide) [lo, hi],
    ← usMBCRC16_eq_ofBytes]
  exact (ofBits_eq_zero crcPoly_msb hlen).trans ((low_two lo hi).symm ▸ eq_append_iff _ lo hi)

theorem usMBCRC16_eq_ofBits (frame : List UInt8) :
    usMBCRC16 frame = ofBits crcPoly 0xffff (bits frame) := by
  rw [usMBCRC16_eq_ofBytes, ofBytes_eq _ _ (by decide)]

/-- The checksum of the tables is the remainder of the division, bit by bit, and a frame gets the
checksum 0 from its own two bytes and from no others. -/
theorem usMBCRC16_spec (frame : List UInt8) (lo hi : UInt8) :
    usMBCRC16 frame = ofBits crcPoly 0xffff (bits frame) ∧
      (usMBCRC16 (frame ++ [lo, hi]) = 0 ↔ [lo, hi] = crcBytes frame) :=
  ⟨usMBCRC16_eq_ofBits frame, usMBCRC16_append_eq_zero frame lo hi⟩

/-- The bits in which two frames differ. -/
def flips (sent received : List UInt8) : List Bool :=
  List.zipWith xor (bits sent) (bits received)

theorem zipWith_xor_self {as bs : List Bool} (h : as.length = bs.length) :
    List.zipWith xor as (List.zipWith xor as bs) = bs := by
  induction as generalizing bs with
  | nil =>
    cases bs with
    | nil => rfl
    | cons b bs => cases h
  | cons a as ih =>
    cases bs with
    | nil => cases h
    | cons b bs =>
      rw [List.zipWith_cons_cons, List.zipWith_cons_cons, ih (Nat.succ.inj h), ← Bool.xor_assoc,
        Bool.xor_self, Bool.false_xor]

/-- A register of 16 bits does not come round within a frame. -/
theorem crcPoly_round : ∀ k < 2047, (shift crcPoly)^[k + 1] 1#16 ≠ 1#16 := by
  have haway : staysAway crcPoly 1#16 2046 (shift crcPoly 1#16) = true := by decide +kernel
  intro k hk
  rw [Function.iterate_succ_apply]
  exact iterate_ne_of_staysAway haway k (Nat.le_of_lt_succ hk)

/-- Notable errors leave no frame valid. -/
theorem usMBCRC16_ne_zero {sent received : List UInt8} (hlen : received.length = sent.length)
    (hmax : sent.length ≤ 256) (hvalid : usMBCRC16 sent = 0)
    (herror : Notable 16 (flips sent received)) : usMBCRC16 received ≠ 0 := by
  have hbits : (bits sent).length = (bits received).length := by
    rw [length_bits, length_bits, hlen]
  have hflips : (flips sent received).length = 8 * sent.length := by
    rw [flips, List.length_zipWith, ← hbits, Nat.min_self, length_bits]
  have hxor := ofBits_xor crcPoly 0xffff 0#16 (hflips.trans (length_bits sent).symm).symm
  rw [flips, zipWith_xor_self hbits, BitVec.xor_zero, ← flips, ← usMBCRC16_eq_ofBits,
    ← usMBCRC16_eq_ofBits, hvalid] at hxor
  rw [hxor, BitVec.ofNat_eq_ofNat, BitVec.zero_xor]
  exact ofBits_ne_zero crcPoly_msb crcPoly_parity (by decide) crcPoly_round herror (by omega)

end ControlBoard
