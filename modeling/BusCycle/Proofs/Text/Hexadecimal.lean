-- Written numbers read back. The digits of a number give the number again, hexadecimal or decimal, and a
-- number that fits its hexadecimal field fills it exactly, with digits and capitals only. So no two cells
-- of the memory have one key.
import BusCycle.Address
import BusCycle.Instruction.Numeral
import Mathlib.Data.List.Basic

namespace BusCycle

open Numeral

/-! ## Digits -/

namespace Numeral

@[simp] theorem valueOf_append_singleton (base : Nat) (digits : List Char) (c : Char) :
    valueOf base (digits ++ [c]) = base * valueOf base digits + digitValue c := by
  simp [valueOf]

/-- Zeros in front add nothing. -/
theorem valueOf_replicate_zero_append (base k : Nat) (digits : List Char) :
    valueOf base (List.replicate k '0' ++ digits) = valueOf base digits := by
  induction k with
  | zero => rfl
  | succ k ih =>
    rw [List.replicate_succ, List.cons_append, ← ih]
    simp [valueOf, digitValue, isDecimal]

end Numeral

namespace Text

/-- The digit of a number below sixteen is a hexadecimal digit of that value. -/
theorem toUpper_digitChar : ∀ n < 16,
    isHex (Nat.digitChar n).toUpper = true ∧ digitValue (Nat.digitChar n).toUpper = n := by
  decide

theorem hexDigits_of_lt {n : Nat} (h : n < 16) : hexDigits n = [(Nat.digitChar n).toUpper] := by
  rw [hexDigits, Nat.toDigits_of_lt_base h, List.map_singleton]

theorem hexDigits_of_le {n : Nat} (h : 16 ≤ n) :
    hexDigits n = hexDigits (n / 16) ++ [(Nat.digitChar (n % 16)).toUpper] := by
  rw [hexDigits, Nat.toDigits_of_base_le (by decide) h, List.map_append, List.map_singleton, hexDigits]

/-- The digits of a number are read as that number. -/
theorem valueOf_hexDigits (n : Nat) : valueOf 16 (hexDigits n) = n := by
  induction n using Nat.strongRecOn with
  | ind n ih =>
    rcases Nat.lt_or_ge n 16 with h | h
    · rw [hexDigits_of_lt h]
      simpa [valueOf] using (toUpper_digitChar n h).2
    · have last := (toUpper_digitChar (n % 16) (Nat.mod_lt n (by decide))).2
      rw [hexDigits_of_le h, valueOf_append_singleton, ih (n / 16) (by omega), last]
      omega

theorem isHex_of_mem_hexDigits {n : Nat} {c : Char} (h : c ∈ hexDigits n) : isHex c = true := by
  induction n using Nat.strongRecOn with
  | ind n ih =>
    rcases Nat.lt_or_ge n 16 with small | large
    · rw [hexDigits_of_lt small, List.mem_singleton] at h
      rw [h]
      exact (toUpper_digitChar n small).1
    · rw [hexDigits_of_le large, List.mem_append, List.mem_singleton] at h
      rcases h with h | rfl
      · exact ih (n / 16) (by omega) h
      · exact (toUpper_digitChar (n % 16) (Nat.mod_lt n (by decide))).1

theorem isDecimal_of_mem_decimalDigits {n : Nat} {c : Char} (h : c ∈ decimalDigits n) :
    isDecimal c = true := by
  have digit := Nat.isDigit_of_mem_toDigits (by decide) (by decide) h
  simpa [isDecimal, Char.isDigit, Char.le_def, UInt32.le_iff_toNat_le] using digit

/-- Decimal digits too are read as their number. -/
theorem valueOf_decimalDigits (n : Nat) : valueOf 10 (decimalDigits n) = n := by
  have step (v : Nat) (c : Char) (digit : c ∈ decimalDigits n) :
      10 * v + digitValue c = 10 * v + (c.toNat - '0'.toNat) := by
    rw [digitValue, if_pos (isDecimal_of_mem_decimalDigits digit)]
    rfl
  exact (List.foldl_ext _ _ 0 step).trans (Nat.ofDigitChars_toDigits (by decide) (by decide))

theorem length_hexDigits_le {width n : Nat} (pos : 0 < width) (h : n < Nat.pow 16 width) :
    (hexDigits n).length ≤ width := by
  rw [hexDigits, List.length_map]
  exact (Nat.length_toDigits_le_iff (by decide) pos).mpr h

/-! ## Fields -/

/-- A field shows its number, whether the number fits it or not. -/
theorem valueOf_field {digits : Nat → List Char} {base : Nat}
    (reads : ∀ n, valueOf base (digits n) = n) (width : Nat) {v : Int} (h : 0 ≤ v) :
    (valueOf base (field digits width v).toList : Int) = v := by
  rw [field, if_neg (by omega), String.toList_ofList, fillZeros, valueOf_replicate_zero_append, reads]
  omega

/-- What a field of a number shows that fits it. -/
structure IsHexField (width : Nat) (text : String) (n : Nat) : Prop where
  length : text.toList.length = width
  digits : ∀ c ∈ text.toList, isHex c = true
  value : valueOf 16 text.toList = n

theorem isHexField_hex {width n : Nat} (pos : 0 < width) (h : n < Nat.pow 16 width) :
    IsHexField width (hex width n) n := by
  have shown : (hex width n).toList = fillZeros width (hexDigits n) := by
    rw [hex, field, if_neg (by omega), Int.natAbs_natCast, String.toList_ofList]
  have fits := length_hexDigits_le pos h
  refine ⟨?_, ?_, ?_⟩ <;> rw [shown, fillZeros]
  · simp only [List.length_append, List.length_replicate]
    omega
  · intro c hc
    rcases List.mem_append.mp hc with zero | digit
    · rw [(List.mem_replicate.mp zero).2]
      decide
    · exact isHex_of_mem_hexDigits digit
  · rw [valueOf_replicate_zero_append, valueOf_hexDigits]

end Text

/-! ## Keys -/

namespace Address

/-- The number that a key is read as. -/
def parseKey (key : String) : Nat := valueOf 16 key.toList

/-- A key has five hexadecimal digits, and they give the address. -/
theorem isHexField_key (a : Address) : Text.IsHexField 5 a.key a.toNat :=
  Text.isHexField_hex (by decide) a.isLt

@[simp] theorem parseKey_key (a : Address) : parseKey a.key = a.toNat := a.isHexField_key.value

theorem key_injective : Function.Injective key := by
  intro a b h
  apply BitVec.eq_of_toNat_eq
  rw [← parseKey_key, h, parseKey_key]

@[simp] theorem key_inj {a b : Address} : a.key = b.key ↔ a = b := key_injective.eq_iff

theorem toNat_ofInt (a : Int) : ((ofInt a).toNat : Int) = a % 0x100000 := by
  rw [ofInt, BitVec.toNat_ofInt]
  omega

theorem ofInt_toNat (a : Address) : ofInt a.toNat = a := by
  rw [ofInt, BitVec.ofInt_natCast, BitVec.ofNat_toNat, BitVec.setWidth_eq]

/-- Two numbers address one cell if they agree in their lowest twenty bits. -/
theorem ofInt_eq_ofInt_iff {a b : Int} : ofInt a = ofInt b ↔ a % 0x100000 = b % 0x100000 := by
  rw [← toNat_ofInt, ← toNat_ofInt, Int.natCast_inj, BitVec.toNat_inj]

end Address

end BusCycle
