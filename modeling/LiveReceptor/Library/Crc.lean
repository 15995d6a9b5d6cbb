import Mathlib.Data.Nat.Bitwise

namespace LiveReceptor

-- Remainders of w bits, the lowest bit first, as a cyclic redundancy check with a
-- reflected polynomial has them.
namespace Crc

variable {w : Nat} (poly : BitVec w)

def bit (r : BitVec w) : BitVec w := (r >>> 1) ^^^ (if r.getLsbD 0 then poly else 0#w)

def bits (n : Nat) (r : BitVec w) : BitVec w := Nat.repeat (bit poly) n r

def absorb (r : BitVec w) (byte : BitVec 8) : BitVec w := bits poly 8 (r ^^^ byte.setWidth w)

def remainder (r : BitVec w) (bytes : List (BitVec 8)) : BitVec w := bytes.foldl (absorb poly) r

variable {poly} {r r' : BitVec w} {k n : Nat} {byte byte' : BitVec 8} {xs ys : List (BitVec 8)}

theorem remainder_append : remainder poly r (xs ++ ys) = remainder poly (remainder poly r xs) ys :=
  List.foldl_append

section Linear

theorem bit_xor (r r' : BitVec w) : bit poly (r ^^^ r') = bit poly r ^^^ bit poly r' := by
  have hshuffle : ∀ a b c d : BitVec w, a ^^^ b ^^^ (c ^^^ d) = a ^^^ c ^^^ (b ^^^ d) := by
    intro a b c d
    ac_rfl
  rw [bit, bit, bit, hshuffle, BitVec.ushiftRight_xor_distrib, BitVec.getLsbD_xor]
  cases r.getLsbD 0 <;> cases r'.getLsbD 0 <;> simp

theorem bits_succ (n : Nat) (r : BitVec w) : bits poly (n + 1) r = bit poly (bits poly n r) := rfl

theorem bits_xor (n : Nat) (r r' : BitVec w) :
    bits poly n (r ^^^ r') = bits poly n r ^^^ bits poly n r' := by
  induction n with
  | zero => rfl
  | succ n ih => rw [bits_succ, ih, bit_xor, bits_succ, bits_succ]

theorem absorb_xor (r r' : BitVec w) (byte byte' : BitVec 8) :
    absorb poly (r ^^^ r') (byte ^^^ byte') = absorb poly r byte ^^^ absorb poly r' byte' := by
  have hshuffle : r ^^^ r' ^^^ (byte ^^^ byte').setWidth w =
      r ^^^ byte.setWidth w ^^^ (r' ^^^ byte'.setWidth w) := by
    rw [BitVec.setWidth_xor]
    ac_rfl
  rw [absorb, hshuffle, bits_xor, absorb, absorb]

-- Texts of one length: the remainders differ by that of the difference.
theorem remainder_xor (h : xs.length = ys.length) (r r' : BitVec w) :
    remainder poly r xs ^^^ remainder poly r' ys =
      remainder poly (r ^^^ r') (xs.zipWith (· ^^^ ·) ys) := by
  induction xs generalizing ys r r' with
  | nil =>
      obtain rfl := List.eq_nil_of_length_eq_zero h.symm
      rfl
  | cons x xs ih =>
      cases ys with
      | nil => cases h
      | cons y ys =>
          rw [List.zipWith_cons_cons]
          simp only [remainder, List.foldl_cons] at ih ⊢
          rw [ih (Nat.succ.inj h), absorb_xor]

end Linear

section Table

theorem bits_of_low_zero (h : ∀ i < n, r.getLsbD i = false) : bits poly n r = r >>> n := by
  induction n with
  | zero => exact (BitVec.ushiftRight_zero r).symm
  | succ n ih =>
      have hlow : (r >>> n).getLsbD 0 = false := by
        rw [BitVec.getLsbD_ushiftRight]
        exact h n (Nat.lt_succ_self n)
      rw [bits_succ, ih fun i hi => h i (Nat.lt_succ_of_lt hi), bit, hlow, BitVec.shiftRight_add]
      exact BitVec.xor_zero

-- Several steps at once, with a table of what they make of the low bits.
theorem bits_eq_table (n : Nat) (r : BitVec w) :
    bits poly n r = (r >>> n) ^^^ bits poly n ((r.setWidth n).setWidth w) := by
  have hsplit : r = (r ^^^ (r.setWidth n).setWidth w) ^^^ (r.setWidth n).setWidth w := by
    rw [BitVec.xor_assoc, BitVec.xor_self, BitVec.xor_zero]
  have hzero : ∀ i < n, (r ^^^ (r.setWidth n).setWidth w).getLsbD i = false := by
    intro i hi
    rw [BitVec.getLsbD_xor, BitVec.getLsbD_setWidth, BitVec.getLsbD_setWidth]
    by_cases hw : i < w
    · simp [hi, hw]
    · simp [BitVec.getLsbD_of_ge r i (Nat.not_lt.mp hw)]
  have hhigh : ((r.setWidth n).setWidth w) >>> n = 0#w := by
    apply BitVec.eq_of_toNat_eq
    rw [BitVec.toNat_ushiftRight, BitVec.toNat_setWidth]
    apply Nat.shiftRight_eq_zero
    exact (Nat.mod_le _ _).trans_lt (r.setWidth n).isLt
  conv_lhs => rw [hsplit]
  rw [bits_xor, bits_of_low_zero hzero, BitVec.ushiftRight_xor_distrib, hhigh, BitVec.xor_zero]

end Table

section Leading

-- A bit that falls out comes back in front.
theorem le_bit_of_odd (hpoly : poly.msb = true) (hodd : r.getLsbD 0 = true) :
    2 ^ (w - 1) ≤ (bit poly r).toNat := by
  have hmsb : (bit poly r).msb = true := by
    rw [bit, if_pos hodd, BitVec.msb_xor, hpoly, BitVec.msb_ushiftRight]
    rfl
  rwa [BitVec.msb_eq_decide, decide_eq_true_iff] at hmsb

theorem toNat_bit_of_even (heven : r.getLsbD 0 = false) : (bit poly r).toNat = r.toNat / 2 := by
  have hshift : bit poly r = r >>> 1 := by
    rw [bit, heven]
    exact BitVec.xor_zero
  rw [hshift, BitVec.toNat_ushiftRight, Nat.shiftRight_eq_div_pow, pow_one]

theorem even_of_low (h : r.getLsbD 0 = false) : r.toNat % 2 = 0 := by
  rw [BitVec.getLsbD, Nat.testBit_zero, decide_eq_false_iff_not] at h
  omega

-- So a step moves the leading bit down by one place at most.
theorem le_bit (hpoly : poly.msb = true) (h : 2 ^ (k + 1) ≤ r.toNat) : 2 ^ k ≤ (bit poly r).toNat := by
  cases hlow : r.getLsbD 0 with
  | false =>
      rw [toNat_bit_of_even hlow]
      omega
  | true =>
      have hwidth : k + 1 < w := (Nat.pow_lt_pow_iff_right Nat.one_lt_two).mp (h.trans_lt r.isLt)
      exact (Nat.pow_le_pow_right Nat.two_pos (by omega)).trans (le_bit_of_odd hpoly hlow)

theorem le_bits (hpoly : poly.msb = true) (h : 2 ^ (k + n) ≤ r.toNat) : 2 ^ k ≤ (bits poly n r).toNat := by
  induction n generalizing k with
  | zero => exact h
  | succ n ih =>
      have hmore : 2 ^ (k + 1) ≤ (bits poly n r).toNat := ih (by rwa [Nat.add_assoc, Nat.add_comm 1 n])
      exact le_bit hpoly hmore

theorem bits_succ' (n : Nat) (r : BitVec w) : bits poly (n + 1) r = bits poly n (bit poly r) := by
  induction n with
  | zero => rfl
  | succ n ih => rw [bits_succ, ih, ← bits_succ]

-- Of the lowest n bits, the first one that is set has come to the front within n steps.
theorem le_bits_of_lt (hpoly : poly.msb = true) (hr : r ≠ 0#w) (hn : n ≤ w) (h : r.toNat < 2 ^ n) :
    2 ^ (w - n) ≤ (bits poly n r).toNat := by
  have hpos : r.toNat ≠ 0 := fun hzero => hr (BitVec.eq_of_toNat_eq hzero)
  induction n generalizing r with
  | zero => omega
  | succ n ih =>
      rw [bits_succ']
      cases hlow : r.getLsbD 0 with
      | true =>
          have hfront := le_bit_of_odd hpoly hlow
          apply le_bits hpoly
          rwa [Nat.sub_add_eq, Nat.sub_right_comm, Nat.sub_add_cancel (by omega)]
      | false =>
          have heven := even_of_low hlow
          have hhalf := @toNat_bit_of_even _ poly _ hlow
          have hpos' : (bit poly r).toNat ≠ 0 := by omega
          have hrest := ih (fun hzero => hpos' (by rw [hzero]; rfl)) (by omega)
            (by rw [hhalf]; omega) hpos'
          exact (Nat.pow_le_pow_right Nat.two_pos (by omega)).trans hrest

theorem bit_ne_zero (hpoly : poly.msb = true) (hr : r ≠ 0#w) : bit poly r ≠ 0#w := by
  intro hzero
  have hnat : (bit poly r).toNat = 0 := by
    rw [hzero]
    rfl
  cases hlow : r.getLsbD 0 with
  | true =>
      have hfront := le_bit_of_odd hpoly hlow
      have hpos := Nat.two_pow_pos (w - 1)
      omega
  | false =>
      have heven := even_of_low hlow
      rw [toNat_bit_of_even hlow] at hnat
      exact hr (BitVec.eq_of_toNat_eq (by rw [BitVec.toNat_zero]; omega))

theorem bits_ne_zero (hpoly : poly.msb = true) (hr : r ≠ 0#w) : bits poly n r ≠ 0#w := by
  induction n with
  | zero => exact hr
  | succ n ih => exact bit_ne_zero hpoly ih

theorem bits_zero : bits poly n 0#w = 0#w := by
  have h : bits poly n (0#w ^^^ 0#w) = bits poly n 0#w ^^^ bits poly n 0#w := bits_xor n 0#w 0#w
  rwa [BitVec.xor_self, BitVec.xor_self] at h

-- The bytes do not reach the leading bit of a remainder that is large enough.
theorem le_absorb (hpoly : poly.msb = true) (h : 2 ^ (k + 8) ≤ r.toNat) :
    2 ^ k ≤ (absorb poly r byte).toNat := by
  apply le_bits hpoly
  have hbyte : (byte.setWidth w).toNat < 2 ^ (k + 8) := by
    rw [BitVec.toNat_setWidth]
    have hlt := byte.isLt
    have hpow : 2 ^ 8 ≤ 2 ^ (k + 8) := Nat.pow_le_pow_right Nat.two_pos (by omega)
    exact (Nat.mod_le _ _).trans_lt (hlt.trans_le hpow)
  have hshift : (r ^^^ byte.setWidth w).toNat >>> (k + 8) = r.toNat >>> (k + 8) := by
    rw [BitVec.toNat_xor, Nat.shiftRight_xor_distrib, Nat.shiftRight_eq_zero _ _ hbyte, Nat.xor_zero]
  rw [Nat.shiftRight_eq_div_pow, Nat.shiftRight_eq_div_pow] at hshift
  have hpos : 0 < r.toNat / 2 ^ (k + 8) := Nat.div_pos h (Nat.two_pow_pos _)
  rw [← hshift] at hpos
  exact (Nat.div_pos_iff.mp hpos).2

theorem le_remainder (hpoly : poly.msb = true) (h : 2 ^ (k + 8 * xs.length) ≤ r.toNat) :
    2 ^ k ≤ (remainder poly r xs).toNat := by
  induction xs generalizing r with
  | nil => exact h
  | cons x xs ih =>
      apply ih
      apply le_absorb hpoly
      rwa [List.length_cons, Nat.mul_succ, ← Nat.add_assoc] at h

end Leading

section Burst

theorem absorb_injective (hpoly : poly.msb = true) (h : absorb poly r byte = absorb poly r' byte) : r = r' := by
  by_contra hne
  have hxor : r ^^^ r' ≠ 0#w := fun hzero => hne (BitVec.xor_eq_zero_iff.mp hzero)
  apply bits_ne_zero (n := 8) hpoly hxor
  have hdiff : absorb poly (r ^^^ r') (byte ^^^ byte) = absorb poly r byte ^^^ absorb poly r' byte :=
    absorb_xor r r' byte byte
  rw [h, BitVec.xor_self, BitVec.xor_self, absorb, BitVec.setWidth_zero, BitVec.xor_zero] at hdiff
  exact hdiff

theorem remainder_injective (hpoly : poly.msb = true) (h : remainder poly r xs = remainder poly r' xs) :
    r = r' := by
  induction xs generalizing r r' with
  | nil => exact h
  | cons x xs ih => exact absorb_injective hpoly (ih h)

-- Bytes that are not all zero leave a remainder, unless there are more bits of them
-- than the remainder has.
theorem eq_zero_of_remainder (hpoly : poly.msb = true) (hshort : 8 * xs.length ≤ w)
    (h : remainder poly 0#w xs = 0#w) : ∀ x ∈ xs, x = 0#8 := by
  induction xs with
  | nil => exact fun x hx => absurd hx List.not_mem_nil
  | cons x xs ih =>
      rw [List.length_cons, Nat.mul_succ] at hshort
      have hfirst : x = 0#8 := by
        by_contra hx
        have hword : x.setWidth w ≠ 0#w := fun hzero => hx <| by
          have hback := congrArg (BitVec.setWidth 8) hzero
          rwa [BitVec.setWidth_setWidth_of_le _ (by omega), BitVec.setWidth_eq, BitVec.setWidth_zero] at hback
        have hlt : (x.setWidth w).toNat < 2 ^ 8 := by
          rw [BitVec.toNat_setWidth]
          exact (Nat.mod_le _ _).trans_lt x.isLt
        have hfront := le_bits_of_lt hpoly hword (by omega) hlt
        have hlast := @le_remainder _ _ (absorb poly 0#w x) (w - 8 - 8 * xs.length) xs hpoly (by
          rw [Nat.sub_add_cancel (by omega), absorb, BitVec.zero_xor]
          exact hfront)
        have hpos := Nat.two_pow_pos (w - 8 - 8 * xs.length)
        have hzero : (remainder poly (absorb poly 0#w x) xs).toNat = 0 := congrArg BitVec.toNat h
        omega
      subst hfirst
      have habsorb : absorb poly 0#w 0#8 = 0#w := by
        rw [absorb, BitVec.setWidth_zero, BitVec.xor_self]
        exact bits_zero
      have hrest : remainder poly 0#w xs = 0#w := by
        have hcons : remainder poly 0#w (0#8 :: xs) = remainder poly (absorb poly 0#w 0#8) xs := rfl
        rwa [hcons, habsorb] at h
      exact List.forall_mem_cons.mpr ⟨rfl, ih (by omega) hrest⟩

-- Texts of one length that differ only within as many consecutive bits as the
-- remainder has leave different remainders.
theorem remainder_burst (hpoly : poly.msb = true) (hlength : xs.length = ys.length)
    (hshort : 8 * xs.length ≤ w) (before after : List (BitVec 8))
    (h : remainder poly r (before ++ xs ++ after) = remainder poly r (before ++ ys ++ after)) :
    xs = ys := by
  rw [remainder_append, remainder_append, remainder_append, remainder_append] at h
  have hmiddle := remainder_injective hpoly h
  have hdiff : remainder poly (remainder poly r before) xs ^^^ remainder poly (remainder poly r before) ys =
      remainder poly (remainder poly r before ^^^ remainder poly r before) (xs.zipWith (· ^^^ ·) ys) :=
    remainder_xor hlength _ _
  rw [hmiddle, BitVec.xor_self, BitVec.xor_self] at hdiff
  have hlength' : (xs.zipWith (· ^^^ ·) ys).length = xs.length := by
    rw [List.length_zipWith, ← hlength, Nat.min_self]
  have hzero := eq_zero_of_remainder hpoly (by rwa [hlength']) hdiff.symm
  apply List.ext_getElem hlength
  intro i hx hy
  have hi : i < (xs.zipWith (· ^^^ ·) ys).length := by rwa [hlength']
  have hbyte := hzero _ (List.getElem_mem hi)
  rw [List.getElem_zipWith] at hbyte
  exact BitVec.xor_eq_zero_iff.mp hbyte

end Burst

end Crc

end LiveReceptor
