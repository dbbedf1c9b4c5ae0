-- Whole numbers that are too great for a real number of 64 bits. The greatest finite one has 53 bits
-- that are all set; a whole number is too great from the middle between it and the next power of two
-- on, because the middle is rounded to the even neighbour.
import BusCycle.Number.Binary64
import Mathlib.Algebra.Group.Nat.Defs

namespace BusCycle.Binary64

/-! ## The exponent of a whole number -/

/-- The mantissa of a whole number gets its full precision. -/
theorem exponentOf_one {m : Nat} (pos : 0 < m) : exponentOf m 1 = (m.log2 : Int) - 52 := by
  have least : 2 ^ m.log2 ≤ m := Nat.log2_self_le (by omega)
  have full : (scaled m 1 ((m.log2 : Int) - 53)).1 / (scaled m 1 ((m.log2 : Int) - 53)).2 ≥
      Nat.pow 2 precision := by
    have den : 0 < 2 ^ ((m.log2 : Int) - 53).toNat := Nat.two_pow_pos _
    simp only [scaled, precision, Nat.one_mul, Nat.pow_eq, ge_iff_le]
    rw [Nat.le_div_iff_mul_le den]
    rcases Nat.lt_or_ge m.log2 53 with small | large
    · have up : (-((m.log2 : Int) - 53)).toNat = 53 - m.log2 := by omega
      have down : ((m.log2 : Int) - 53).toNat = 0 := by omega
      have total : 2 ^ 53 = 2 ^ m.log2 * 2 ^ (53 - m.log2) := by
        rw [← Nat.pow_add]
        congr 1
        omega
      rw [up, down, total, Nat.pow_zero, Nat.mul_one]
      exact Nat.mul_le_mul_right _ least
    · have up : (-((m.log2 : Int) - 53)).toNat = 0 := by omega
      have down : ((m.log2 : Int) - 53).toNat = m.log2 - 53 := by omega
      have total : 2 ^ 53 * 2 ^ (m.log2 - 53) = 2 ^ m.log2 := by
        rw [← Nat.pow_add]
        congr 1
        omega
      rw [up, down, total, Nat.pow_zero, Nat.mul_one]
      exact least
  have low : ((m.log2 : Int) - (Nat.log2 1 : Nat) - precision) = (m.log2 : Int) - 53 := by
    rw [show Nat.log2 1 = 0 by decide, precision]
    omega
  unfold exponentOf
  rw [low]
  dsimp only
  rw [if_pos full, leastExponent]
  omega

/-! ## Overflow -/

/-- The least whole number that rounds to no finite one: `2 ^ 1024` less half a step, which is
`2 ^ 970`. -/
def leastOverflow : Nat := (2 ^ 54 - 1) * 2 ^ 970

theorem ofQuotient_ne_nan (negative : Bool) (num den : Nat) : ofQuotient negative num den ≠ nan := by
  unfold ofQuotient
  dsimp only
  split <;> split <;> exact Binary64.noConfusion

/-- A quotient is too great if its exponent is, or if rounding carries into one that is. -/
theorem ofQuotient_eq_infinite_iff (negative : Bool) (num den : Nat) :
    (∃ b, ofQuotient negative num den = infinite b) ↔
      971 < exponentOf num den ∨
        (exponentOf num den = 971 ∧
          roundedQuotient (scaled num den 971).1 (scaled num den 971).2 = 2 ^ 53) := by
  unfold ofQuotient precision greatestExponent
  dsimp only
  generalize exponentOf num den = e
  by_cases carry :
      (roundedQuotient (scaled num den e).1 (scaled num den e).2 == Nat.pow 2 53) = true
  · rw [if_pos carry]
    dsimp only
    by_cases great : e + 1 > 971
    · rw [if_pos great]
      refine iff_of_true ⟨negative, rfl⟩ ?_
      rcases (by omega : 971 < e ∨ e = 971) with above | rfl
      · exact Or.inl above
      · exact Or.inr ⟨rfl, beq_iff_eq.mp carry⟩
    · rw [if_neg great]
      exact iff_of_false nofun (by omega)
  · rw [if_neg carry]
    dsimp only
    by_cases great : e > 971
    · rw [if_pos great]
      exact iff_of_true ⟨negative, rfl⟩ (Or.inl great)
    · rw [if_neg great]
      refine iff_of_false nofun ?_
      rintro (above | ⟨rfl, top⟩)
      · exact great above
      · exact carry (beq_iff_eq.mpr top)

/-- Below a power of two that takes one bit more, only the upper half of the last step rounds up to
it. The middle does too, because the number below is odd. -/
theorem roundedQuotient_eq_top_iff {m : Nat} (half : Nat) (below : m < 2 ^ 53 * (2 * half)) :
    roundedQuotient m (2 * half) = 2 ^ 53 ↔ 2 ^ 53 * (2 * half) - half ≤ m := by
  have whole := Nat.div_add_mod m (2 * half)
  have rest : m % (2 * half) < 2 * half := Nat.mod_lt _ (by omega)
  have quotient : m / (2 * half) < 2 ^ 53 := Nat.div_lt_of_lt_mul (by rwa [Nat.mul_comm])
  unfold roundedQuotient
  dsimp only
  generalize m / (2 * half) = q at whole quotient ⊢
  generalize m % (2 * half) = r at whole rest ⊢
  by_cases last : q = 2 ^ 53 - 1
  · subst last
    split
    · rename_i up
      simp at up
      omega
    · rename_i down
      simp at down
      omega
  · have far : 2 * half * q ≤ 2 * half * (2 ^ 53 - 2) := Nat.mul_le_mul_left _ (by omega)
    constructor
    · split <;> omega
    · omega

theorem scaled_one_succ (m k : Nat) : scaled m 1 (k + 1 : Nat) = (m, 2 * 2 ^ k) := by
  have above : (-((k + 1 : Nat) : Int)).toNat = 0 := by omega
  rw [scaled, above, Int.toNat_natCast]
  exact Prod.ext (Nat.mul_one m) ((Nat.one_mul _).trans Nat.pow_succ')

theorem ofQuotient_one_eq_infinite_iff (negative : Bool) {m : Nat} (pos : 0 < m) :
    (∃ b, ofQuotient negative m 1 = infinite b) ↔ leastOverflow ≤ m := by
  have parts : scaled m 1 971 = (m, 2 * 2 ^ 970) := scaled_one_succ m 970
  have exponent (k : Nat) : ((k + 918 : Nat) : Int) ≤ exponentOf m 1 ↔ 2 ^ k * 2 ^ 970 ≤ m := by
    have size := Nat.le_log2 (k := k + 970) (Nat.pos_iff_ne_zero.mp pos)
    rw [exponentOf_one pos, ← Nat.pow_add 2 k 970, ← size]
    omega
  have great := exponent 54
  have greatest := exponent 53
  have top := roundedQuotient_eq_top_iff (m := m) (2 ^ 970)
  have positive (k : Nat) : 0 < 2 ^ k := Nat.two_pow_pos k
  have nonzero := positive 970
  rw [ofQuotient_eq_infinite_iff, parts, leastOverflow]
  generalize (2 : Nat) ^ 970 = half at *
  by_cases below : m < 2 ^ 53 * (2 * half)
  · rw [top below]
    omega
  · omega

/-- A whole number is too great for a real number just from there on, on both sides of zero. -/
theorem ofInt?_eq_none_iff (n : Int) : ofInt? n = none ↔ leastOverflow ≤ n.natAbs := by
  have nonzero : 0 < leastOverflow := by
    have step (k : Nat) : 0 < 2 ^ k := Nat.two_pow_pos k
    have half := step 970
    unfold leastOverflow
    omega
  unfold ofInt?
  by_cases zero : n = 0
  · have absolute : n.natAbs = 0 := by omega
    rw [if_pos (by simpa using zero)]
    exact iff_of_false (by simp) (by omega)
  · rw [if_neg (by simpa using zero), ← ofQuotient_one_eq_infinite_iff (n < 0) (by omega)]
    cases ofQuotient (n < 0) n.natAbs 1 <;> simp

theorem ofInt?_ne_nan (n : Int) : ofInt? n ≠ some nan := by
  unfold ofInt?
  split
  · simp [zero]
  · split
    · simp
    · simpa using ofQuotient_ne_nan _ _ _

end BusCycle.Binary64
