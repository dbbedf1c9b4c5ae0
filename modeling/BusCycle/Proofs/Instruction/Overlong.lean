-- Lines that break the reader off: a mnemonic and a decimal literal of too many digits. Nothing is wrong
-- with such a line but the number of its digits, and cleaning leaves it as it is.
import BusCycle.Proofs.Instruction.Cleanup

namespace BusCycle

open Text

/-! ## The literal -/

namespace Numeral

variable {digits : List Char}

theorem isOverlong_replicate {c : Char} (decimal : isDecimal c = true) {count : Nat}
    (beyond : digitLimit < count) : isOverlong (.replicate count c) = true := by
  have filled : count ≠ 0 := Nat.ne_zero_of_lt beyond
  simp [isOverlong, allDigits, decimal, filled, beyond]

theorem all_of_isOverlong (h : isOverlong digits = true) : allDigits isDecimal digits = true :=
  (Bool.and_eq_true_iff.mp h).1

theorem isUnsigned_of_isOverlong (h : isOverlong digits = true) :
    IsUnsigned digits (valueOf 10 digits) := .decimal (all_of_isOverlong h)

theorem isTooLong_of_isOverlong (h : isOverlong digits = true) :
    IsTooLong digits (.tooManyDigits digits.length) := by
  have same : unsigned digits = digits := (isUnsigned_of_isOverlong h).unsigned_eq
  rw [IsTooLong, not_isShort_iff, same]
  exact ⟨h, rfl⟩

theorem endsUnblank_of_isOverlong (h : isOverlong digits = true) : EndsUnblank digits :=
  endsUnblank_of_all (isUnsigned_of_isOverlong h).isBlank

theorem trim_of_isOverlong (h : isOverlong digits = true) : trim digits = digits :=
  trim_of_all (isUnsigned_of_isOverlong h).isBlank

end Numeral

open Numeral

variable {mnemonic digits : List Char}

theorem Operand.read_of_isOverlong (h : isOverlong digits = true) :
    read digits = .error (.conversion (.tooManyDigits digits.length)) := by
  have unnamed : isRegisterName (String.ofList digits) = false :=
    Bool.eq_false_iff.mpr fun known =>
      (isTooLong_of_isOverlong h).1 (isShort_of_isRegisterName known)
  have ends := (endsUnblank_of_isOverlong h).getLast?_ne
  have number : readNumber digits = .error (.conversion (.tooManyDigits digits.length)) := by
    unfold readNumber
    rw [(read_eq_conversion_iff ends).mpr (isTooLong_of_isOverlong h)]
    rfl
  have unsigned := isUnsigned_of_isOverlong h
  unfold read
  split
  · exact absurd rfl unsigned.ne_nil
  · exact absurd rfl (unsigned.head_ne rfl).2
  · rw [unnamed, number]
    rfl

theorem Operands.read_of_isOverlong (h : isOverlong digits = true) :
    read digits = .error (.conversion (.tooManyDigits digits.length)) := by
  have unsigned := isUnsigned_of_isOverlong h
  have filled : (trim digits).isEmpty = false := by
    rw [trim_of_isOverlong h]
    exact List.isEmpty_eq_false_iff.mpr unsigned.ne_nil
  have whole : ',' ∉ digits := fun inside => absurd (unsigned.isFirm ',' inside) (by decide)
  unfold read
  rw [filled, splitOn_comma_one whole, List.map_singleton, trim_of_isOverlong h]
  dsimp only
  rw [Operand.read_of_isOverlong h]
  rfl

/-! ## The line -/

namespace Instruction

/-- A mnemonic and digits, with a space between them. -/
def withDigits (mnemonic digits : List Char) : List Char := mnemonic ++ ([' '] ++ digits)

theorem isFirm_of_mem_withDigits (name : IsMnemonic mnemonic) (h : isOverlong digits = true)
    {c : Char} (hc : c ∈ withDigits mnemonic digits) : IsFirm c ∨ c = ' ' := by
  rcases List.mem_append.mp hc with letter | later
  · exact Or.inl (name.isFirm c letter)
  · rcases List.mem_cons.mp later with space | digit
    · exact Or.inr space
    · exact Or.inl ((isUnsigned_of_isOverlong h).isFirm c digit)

theorem trim_withDigits (name : IsMnemonic mnemonic) (h : isOverlong digits = true) :
    trim (withDigits mnemonic digits) = withDigits mnemonic digits := by
  have ends : EndsUnblank (mnemonic ++ ([' '] ++ digits)) :=
    endsUnblank_apart mnemonic (endsUnblank_of_isOverlong h) (isUnsigned_of_isOverlong h).ne_nil
  rw [withDigits, trim, name.trimStart_append, ends.trimEnd]

theorem upper_withDigits (name : IsMnemonic mnemonic) (h : isOverlong digits = true) :
    upper (withDigits mnemonic digits) = withDigits mnemonic digits := by
  refine upper_of_inCapitals fun c hc => ?_
  rcases isFirm_of_mem_withDigits name h hc with firm | rfl
  · exact firm.capital
  · exact capital_of_lt (by decide)

theorem parse_withDigits (name : IsMnemonic mnemonic) (h : isOverlong digits = true) (n : Int) :
    parse (String.ofList (withDigits mnemonic digits)) n =
      .error (.conversion (.tooManyDigits digits.length)) := by
  have unbroken : '\n' ∉ digits := fun inside =>
    absurd ((isUnsigned_of_isOverlong h).isFirm '\n' inside) (by decide)
  have parts : split? (withDigits mnemonic digits) = some (mnemonic, trimStart digits) :=
    split?_apart name (List.cons_ne_nil _ _) isBlank_of_mem_space unbroken
  have starts : trimStart digits = digits := by
    rw [← trim_of_isOverlong h, trimStart_trim]
  unfold parse
  rw [String.toList_ofList, trim_withDigits name h, upper_withDigits name h]
  dsimp only
  rw [parts, starts]
  dsimp only
  rw [Operands.read_of_isOverlong h]
  rfl

theorem collapse_withDigits (name : IsMnemonic mnemonic) (h : isOverlong digits = true) :
    collapse (withDigits mnemonic digits) = withDigits mnemonic digits := by
  have visible : ∀ c ∈ mnemonic, isBlank c = false := fun c hc => (name.isFirm c hc).isBlank
  have starts : trimStart digits = digits := by
    rw [← trim_of_isOverlong h, trimStart_trim]
  rw [withDigits, collapse_append_of_all visible, List.singleton_append,
    collapse_blank (by decide), collapse_of_all (isUnsigned_of_isOverlong h).isBlank, starts]

/-- Such a line is a program. -/
theorem clean_withDigits (name : IsMnemonic mnemonic) (h : isOverlong digits = true) :
    Program.clean (String.ofList (withDigits mnemonic digits)) =
      [String.ofList (withDigits mnemonic digits)] := by
  have bare : ';' ∉ withDigits mnemonic digits := by
    intro inside
    rcases List.mem_append.mp inside with letter | later
    · exact absurd (name.all ';' letter) (by decide)
    · rcases List.mem_cons.mp later with space | digit
      · exact absurd space (by decide)
      · exact absurd (isHex_of_mem (allDigits_isHex (all_of_isOverlong h)) digit) (by decide)
  have unbroken : Unbroken (withDigits mnemonic digits) := by
    intro c hc
    rcases isFirm_of_mem_withDigits name h hc with firm | rfl
    · exact isLineBreak_of_not_isBlank firm.isBlank
    · decide
  have unsigned := isUnsigned_of_isOverlong h
  obtain ⟨c, hc⟩ := List.exists_mem_of_ne_nil digits unsigned.ne_nil
  have inside : c ∈ withDigits mnemonic digits :=
    List.mem_append_right _ (List.mem_append_right _ hc)
  have filled : ∃ c ∈ upTo ';' (withDigits mnemonic digits), isBlank c = false := by
    rw [Program.upTo_of_not_mem bare]
    exact ⟨c, inside, unsigned.isBlank c hc⟩
  rw [← String.toList_ofList (l := withDigits mnemonic digits)] at unbroken filled
  rw [Program.clean_eq unbroken filled, String.toList_ofList, Program.upTo_of_not_mem bare,
    trim_withDigits name h, upper_withDigits name h, collapse_withDigits name h]

end Instruction

/-! ## A program of such a line -/

/-- A jump to a place that is told with 4301 digits. -/
def longJump : String := String.ofList (Instruction.withDigits ['J', 'M', 'P'] (.replicate 4301 '1'))

theorem isMnemonic_jump : Instruction.IsMnemonic ['J', 'M', 'P'] :=
  ⟨'J', ['M', 'P'], rfl, by decide, List.all_eq_true.mp (by decide)⟩

theorem digitLimit_lt : digitLimit < 4301 := Nat.lt_succ_self 4300

theorem isOverlong_digits : isOverlong (.replicate 4301 '1') = true :=
  isOverlong_replicate (by decide) digitLimit_lt

theorem parse_longJump (n : Int) :
    Instruction.parse longJump n = .error (.conversion (.tooManyDigits 4301)) := by
  rw [longJump, Instruction.parse_withDigits isMnemonic_jump isOverlong_digits,
    List.length_replicate]

theorem clean_longJump : Program.clean longJump = [longJump] :=
  Instruction.clean_withDigits isMnemonic_jump isOverlong_digits

end BusCycle
