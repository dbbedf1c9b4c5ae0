-- Words of 16 bits and the bytes they are made of, low byte first.
import BusCycle.Text.Layout

namespace BusCycle

abbrev Byte := BitVec 8

/-- A word of 16 bits. Whole numbers become words by dropping what lies above bit 15. -/
abbrev Word := BitVec 16

/-! ## The two bytes of a word -/

def lowByte (w : Word) : Byte := w.setWidth 8

def highByte (w : Word) : Byte := (w >>> 8).setWidth 8

/-- The word of a low and a high byte. -/
def wordOf (low high : Byte) : Word := BitVec.ofNat 16 (low.toNat + 256 * high.toNat)

theorem toNat_lowByte (w : Word) : (lowByte w).toNat = w.toNat % 256 := by
  simp [lowByte]

theorem toNat_highByte (w : Word) : (highByte w).toNat = w.toNat / 256 := by
  have := w.isLt
  simp only [highByte, BitVec.toNat_setWidth, BitVec.toNat_ushiftRight, Nat.shiftRight_eq_div_pow]
  omega

theorem toNat_wordOf (l h : Byte) : (wordOf l h).toNat = l.toNat + 256 * h.toNat := by
  have := l.isLt
  have := h.isLt
  simp only [wordOf, BitVec.toNat_ofNat]
  omega

@[simp] theorem wordOf_lowByte_highByte (w : Word) : wordOf (lowByte w) (highByte w) = w := by
  apply BitVec.eq_of_toNat_eq
  rw [toNat_wordOf, toNat_lowByte, toNat_highByte]
  omega

@[simp] theorem lowByte_wordOf (l h : Byte) : lowByte (wordOf l h) = l := by
  have := l.isLt
  apply BitVec.eq_of_toNat_eq
  rw [toNat_lowByte, toNat_wordOf]
  omega

@[simp] theorem highByte_wordOf (l h : Byte) : highByte (wordOf l h) = h := by
  have := l.isLt
  apply BitVec.eq_of_toNat_eq
  rw [toNat_highByte, toNat_wordOf]
  omega

/-! ## Text -/

def hexWord (w : Word) : String := Text.hex 4 w.toNat

def hexByte (b : Byte) : String := Text.hex 2 b.toNat

end BusCycle
