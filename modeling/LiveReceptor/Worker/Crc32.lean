import LiveReceptor.Library.Crc
import LiveReceptor.Worker.BiliJson

namespace LiveReceptor.Worker

-- The polynomial of CRC_32, reflected.
def crcPolynomial : BitVec 32 := 0xEDB88320#32

theorem msb_crcPolynomial : crcPolynomial.msb = true := by decide

theorem toBitVec_crcBit (remainder : UInt32) :
    (crcBit remainder).toBitVec = Crc.bit crcPolynomial remainder.toBitVec := by
  have hlow : remainder.toBitVec &&& 1#32 = if remainder.toBitVec.getLsbD 0 then 1#32 else 0#32 := by
    rw [BitVec.and_one_eq_setWidth_ofBool_getLsbD]
    cases remainder.toBitVec.getLsbD 0 <;> rfl
  have hbit : (crcBit remainder).toBitVec =
      (remainder.toBitVec >>> 1) ^^^ ((remainder.toBitVec &&& 1#32) * crcPolynomial) := rfl
  rw [hbit, hlow, Crc.bit]
  cases remainder.toBitVec.getLsbD 0 <;> rfl

theorem toBitVec_repeat_crcBit (n : Nat) (remainder : UInt32) :
    (Nat.repeat crcBit n remainder).toBitVec = Crc.bits crcPolynomial n remainder.toBitVec := by
  induction n with
  | zero => rfl
  | succ n ih =>
      have hstep : Nat.repeat crcBit (n + 1) remainder = crcBit (Nat.repeat crcBit n remainder) := rfl
      rw [hstep, toBitVec_crcBit, ih, Crc.bits_succ]

-- A byte by the table is its eight bits one after the other.
theorem toBitVec_crcByte (remainder : UInt32) (byte : UInt8) :
    (crcByte remainder byte).toBitVec = Crc.absorb crcPolynomial remainder.toBitVec byte.toBitVec := by
  have hbyte : (byte.toBitVec.setWidth 32) >>> 8 = 0#32 := by
    apply BitVec.eq_of_toNat_eq
    rw [BitVec.toNat_ushiftRight, BitVec.toNat_setWidth]
    exact Nat.shiftRight_eq_zero _ _ ((Nat.mod_le _ _).trans_lt byte.toBitVec.isLt)
  have hindex : (remainder.toBitVec ^^^ byte.toBitVec.setWidth 32).setWidth 8 =
      (remainder.toUInt8 ^^^ byte).toBitVec := by
    rw [BitVec.setWidth_xor, BitVec.setWidth_setWidth_of_le _ (by decide), BitVec.setWidth_eq]
    rfl
  have htable : (crcByte remainder byte).toBitVec =
      (remainder.toBitVec >>> 8) ^^^ (crcTable (remainder.toUInt8 ^^^ byte)).toBitVec := rfl
  have hbits : Crc.absorb crcPolynomial remainder.toBitVec byte.toBitVec = (remainder.toBitVec >>> 8) ^^^
      Crc.bits crcPolynomial 8 ((remainder.toUInt8 ^^^ byte).toBitVec.setWidth 32) := by
    rw [Crc.absorb, Crc.bits_eq_table, hindex, BitVec.ushiftRight_xor_distrib, hbyte, BitVec.xor_zero]
  rw [htable, hbits, crcTable, toBitVec_repeat_crcBit]
  rfl

theorem toBitVec_foldl_crcByte (remainder : UInt32) (buf : Bytes) :
    (buf.foldl crcByte remainder).toBitVec =
      Crc.remainder crcPolynomial remainder.toBitVec (buf.map UInt8.toBitVec) := by
  induction buf generalizing remainder with
  | nil => rfl
  | cons byte rest ih =>
      rw [List.foldl_cons, ih, toBitVec_crcByte]
      rfl

-- Two texts of one length that differ within four consecutive bytes have different
-- checksums.
theorem crc32_burst {xs ys : Bytes} (hlength : xs.length = ys.length) (hshort : xs.length ≤ 4)
    (before after : Bytes) (h : crc32 (before ++ xs ++ after) = crc32 (before ++ ys ++ after)) :
    xs = ys := by
  have hfold : (before ++ xs ++ after).foldl crcByte 0xFFFFFFFF =
      (before ++ ys ++ after).foldl crcByte 0xFFFFFFFF := by
    have hxor := congrArg (· ^^^ 0xFFFFFFFF) h
    simpa only [crc32, UInt32.xor_assoc, UInt32.xor_self, UInt32.xor_zero] using hxor
  have hremainder := congrArg UInt32.toBitVec hfold
  rw [toBitVec_foldl_crcByte, toBitVec_foldl_crcByte] at hremainder
  simp only [List.map_append] at hremainder
  have hbytes := Crc.remainder_burst msb_crcPolynomial (by simpa using hlength)
    (by rw [List.length_map]; omega) _ _ hremainder
  exact List.map_injective_iff.mpr (fun a b hab => UInt8.toBitVec_inj.mp hab) hbytes

end LiveReceptor.Worker
