-- Whole numbers under bit operations and masks. A negative number has its sign for all the bits above
-- its own, so a mask takes the remainder of a floor division, and what is done to the bits of whole
-- numbers and cut to a word afterwards is done to the words themselves.
import BusCycle.Word
import Mathlib.Data.Int.Bitwise

namespace BusCycle

/-- A number with all but its lowest bits cleared. -/
def mask (bits : Nat) (a : Int) : Int := Int.land a ((2 ^ bits - 1 : Nat) : Int)

/-! ## Remainders -/

/-- The bits that a mask leaves of a number below zero. -/
theorem ldiff_mask (bits n : Nat) : Nat.ldiff (2 ^ bits - 1) n = 2 ^ bits - (n % 2 ^ bits + 1) := by
  have small : n % 2 ^ bits < 2 ^ bits := Nat.mod_lt _ (Nat.two_pow_pos bits)
  apply Nat.eq_of_testBit_eq
  intro i
  rw [Nat.testBit_ldiff, Nat.testBit_two_pow_sub_succ small, Nat.testBit_two_pow_sub_one,
    Nat.testBit_mod_two_pow]
  by_cases h : i < bits <;> simp [h]

/-- A mask takes the remainder that is never negative. -/
theorem mask_eq_emod (bits : Nat) (a : Int) : mask bits a = a % (2 ^ bits : Nat) := by
  cases a with
  | ofNat n =>
    have cut : n &&& (2 ^ bits - 1) = n % 2 ^ bits := Nat.and_two_pow_sub_one_eq_mod n bits
    exact congrArg Int.ofNat cut
  | negSucc n =>
    have small : n % 2 ^ bits < 2 ^ bits := Nat.mod_lt _ (Nat.two_pow_pos bits)
    show ((Nat.ldiff (2 ^ bits - 1) n : Nat) : Int) = _
    rw [ldiff_mask, Int.negSucc_emod _ (by exact_mod_cast Nat.two_pow_pos bits)]
    push_cast [Nat.cast_sub (show n % 2 ^ bits + 1 ≤ 2 ^ bits from small)]
    omega

/-- A word is what a mask leaves of a number. -/
theorem toNat_ofInt_eq_mask (bits : Nat) (a : Int) :
    ((BitVec.ofInt bits a).toNat : Int) = mask bits a := by
  have pos : (0 : Int) < (2 ^ bits : Nat) := by exact_mod_cast Nat.two_pow_pos bits
  rw [mask_eq_emod, BitVec.toNat_ofInt, Int.toNat_of_nonneg (Int.emod_nonneg _ (Int.ne_of_gt pos))]

/-! ## Bits -/

/-- A bit of a word is that bit of the number it was cut from. -/
theorem getLsbD_ofInt (bits : Nat) (a : Int) (i : Nat) :
    (BitVec.ofInt bits a).getLsbD i = (decide (i < bits) && a.testBit i) := by
  cases a with
  | ofNat n =>
    rw [Int.ofNat_eq_natCast, BitVec.ofInt_natCast, BitVec.getLsbD_ofNat]
    rfl
  | negSucc n =>
    rw [BitVec.ofInt_negSucc_eq_not_ofNat, BitVec.getLsbD_not, BitVec.getLsbD_ofNat]
    by_cases h : i < bits <;> simp [h, Int.testBit]

theorem ofInt_land (bits : Nat) (a b : Int) :
    BitVec.ofInt bits (Int.land a b) = BitVec.ofInt bits a &&& BitVec.ofInt bits b := by
  apply BitVec.eq_of_getLsbD_eq
  intro i hi
  rw [BitVec.getLsbD_and, getLsbD_ofInt, getLsbD_ofInt, getLsbD_ofInt, Int.testBit_land]
  simp [hi]

theorem ofInt_lor (bits : Nat) (a b : Int) :
    BitVec.ofInt bits (Int.lor a b) = BitVec.ofInt bits a ||| BitVec.ofInt bits b := by
  apply BitVec.eq_of_getLsbD_eq
  intro i hi
  rw [BitVec.getLsbD_or, getLsbD_ofInt, getLsbD_ofInt, getLsbD_ofInt, Int.testBit_lor]
  simp [hi]

theorem ofInt_xor (bits : Nat) (a b : Int) :
    BitVec.ofInt bits (Int.xor a b) = BitVec.ofInt bits a ^^^ BitVec.ofInt bits b := by
  apply BitVec.eq_of_getLsbD_eq
  intro i hi
  rw [BitVec.getLsbD_xor, getLsbD_ofInt, getLsbD_ofInt, getLsbD_ofInt, Int.testBit_lxor]
  simp [hi]

theorem ofInt_lnot (bits : Nat) (a : Int) :
    BitVec.ofInt bits (Int.lnot a) = ~~~ BitVec.ofInt bits a := by
  apply BitVec.eq_of_getLsbD_eq
  intro i hi
  rw [BitVec.getLsbD_not, getLsbD_ofInt, getLsbD_ofInt, Int.testBit_lnot]
  simp [hi]

theorem ofInt_sub (bits : Nat) (a b : Int) :
    BitVec.ofInt bits (a - b) = BitVec.ofInt bits a - BitVec.ofInt bits b := by
  rw [Int.sub_eq_add_neg, BitVec.ofInt_add, BitVec.ofInt_neg, ← BitVec.sub_eq_add_neg]

/-- A mask before the cut changes nothing. -/
theorem ofInt_mask (bits : Nat) (a : Int) : BitVec.ofInt bits (mask bits a) = BitVec.ofInt bits a := by
  rw [← toNat_ofInt_eq_mask, BitVec.ofInt_natCast, BitVec.ofNat_toNat, BitVec.setWidth_eq]

/-! ## Bytes -/

/-- The low byte of a word that a number was cut to. -/
theorem toNat_lowByte_ofInt (v : Int) : ((lowByte (BitVec.ofInt 16 v)).toNat : Int) = mask 8 v := by
  rw [toNat_lowByte, mask_eq_emod, Int.natCast_emod, toNat_ofInt_eq_mask, mask_eq_emod]
  omega

/-- The high byte of a word that a number was cut to. -/
theorem toNat_highByte_ofInt (v : Int) :
    ((highByte (BitVec.ofInt 16 v)).toNat : Int) = mask 8 (v >>> (8 : Nat)) := by
  rw [toNat_highByte, mask_eq_emod, Int.natCast_ediv, toNat_ofInt_eq_mask, mask_eq_emod,
    Int.shiftRight_eq_div_pow]
  omega

/-- A high byte above a low one makes their word. -/
theorem shiftLeft_lor_bytes (low high : Byte) :
    Int.lor ((high.toNat : Int) <<< (8 : Nat)) low.toNat = ((wordOf low high).toNat : Int) := by
  show ((high.toNat <<< 8 ||| low.toNat : Nat) : Int) = _
  rw [← Nat.shiftLeft_add_eq_or_of_lt low.isLt, Nat.shiftLeft_eq, toNat_wordOf]
  omega

theorem lor_shiftLeft_bytes (low high : Byte) :
    Int.lor low.toNat ((high.toNat : Int) <<< (8 : Nat)) = ((wordOf low high).toNat : Int) := by
  rw [← shiftLeft_lor_bytes]
  exact congrArg Int.ofNat (Nat.or_comm _ _)

end BusCycle
