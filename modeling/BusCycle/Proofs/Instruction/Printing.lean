-- Printing an instruction and reading the line that is printed. Nothing that an operand shows is read as
-- something else: no address in brackets is the name of a register, a literal is shown as it was
-- written, and what stands between the parts is cut away again.
import BusCycle.Proofs.Instruction.Acceptance
import BusCycle.Proofs.Instruction.Numerals
import BusCycle.Proofs.Text.Capitals
import BusCycle.Proofs.Text.Hexadecimal

namespace BusCycle

open Text

/-! ## Characters that stay -/

namespace Text

/-- A character that is no blank and no comma and is its own capital. All that is shown of an operand is
of this kind, apart from the blanks that a literal may have behind its sign. -/
def IsFirm (c : Char) : Prop := 33 ≤ c.toNat ∧ c.toNat < 97 ∧ c.toNat ≠ 44

instance (c : Char) : Decidable (IsFirm c) := inferInstanceAs (Decidable (_ ∧ _))

namespace IsFirm

variable {c : Char}

theorem isBlank (h : IsFirm c) : Text.isBlank c = false := by
  obtain ⟨low, high, -⟩ := h
  rw [Bool.eq_false_iff, ne_eq, isBlank_iff]
  simp only [IsBlankCode, blankRuns, List.mem_cons, List.not_mem_nil, or_false, exists_eq_or_imp,
    exists_eq_left]
  omega

theorem capital (h : IsFirm c) : Text.capital c = [c] := capital_of_lt h.2.1

theorem of_isHex (h : Numeral.isHex c = true) : IsFirm c := by
  have code : (48 ≤ c.toNat ∧ c.toNat ≤ 57) ∨ (65 ≤ c.toNat ∧ c.toNat ≤ 70) := by
    simpa [Numeral.isHex, Numeral.isDecimal, Char.le_def, UInt32.le_iff_toNat_le] using h
  unfold IsFirm
  omega

theorem of_isMnemonicChar (h : Instruction.isMnemonicChar c = true) : IsFirm c := by
  have code : (65 ≤ c.toNat ∧ c.toNat ≤ 90) ∨ (48 ≤ c.toNat ∧ c.toNat ≤ 57) := by
    simpa [Instruction.isMnemonicChar, Instruction.isCapital, Numeral.isDecimal, Char.le_def,
      UInt32.le_iff_toNat_le] using h
  unfold IsFirm
  omega

end IsFirm

end Text

namespace Numeral

theorem IsUnsigned.isFirm {s : List Char} {n : Nat} (h : IsUnsigned s n) : ∀ c ∈ s, IsFirm c := by
  intro c hc
  rcases h.mem hc with hex | rfl | rfl
  · exact .of_isHex hex
  · decide
  · decide

theorem IsUnsigned.unsigned_eq {s : List Char} {n : Nat} (h : IsUnsigned s n) : unsigned s = s :=
  unsigned.eq_2 s fun _ same => (h.head_ne same).1 rfl

namespace IsLiteral

variable {text : List Char} {v : Int}

/-- Only the blanks behind a minus sign are not firm. -/
theorem chars (h : IsLiteral text v) : ∀ c ∈ text, IsFirm c ∨ isBlank c = true := by
  intro c hc
  cases h with
  | positive number => exact Or.inl (number.isFirm c hc)
  | negative blank number =>
    rcases List.mem_cons.mp hc with rfl | hc
    · exact Or.inl (by decide)
    · rcases List.mem_append.mp hc with between | digit
      · exact Or.inr (blank c between)
      · exact Or.inl (number.isFirm c digit)

theorem ends (h : IsLiteral text v) : EndsUnblank text := by
  cases h with
  | positive number => exact endsUnblank_of_all number.isBlank
  | negative blank number =>
    rw [← List.cons_append]
    exact (endsUnblank_of_all number.isBlank).append number.ne_nil

theorem first (h : IsLiteral text v) : trimStart text = text := by
  cases h with
  | positive number => rw [← trim_of_all number.isBlank, trimStart_trim]
  | negative blank number => exact trimStart_cons (by decide) _

theorem literal_eq (h : IsLiteral text v) : Operand.literal text = text :=
  Operand.literal.eq_2 _ fun _ opened => absurd opened h.ne_bracket

end IsLiteral

end Numeral

/-! ## Operands -/

namespace Operand

/-- What the operand shows is read as the operand, whatever is written around it. -/
structure IsPrintable (op : Operand) : Prop where
  reads : read op.display.toList = .ok op
  first : trimStart op.display.toList = op.display.toList
  ends : EndsUnblank op.display.toList
  chars : ∀ c ∈ op.display.toList, IsFirm c ∨ isBlank c = true
  unbroken : '\n' ∉ op.display.toList

namespace IsPrintable

variable {op : Operand}

theorem trim_display (h : op.IsPrintable) : trim op.display.toList = op.display.toList := by
  rw [trim, h.first, h.ends.trimEnd]

theorem display_ne_nil (h : op.IsPrintable) : op.display.toList ≠ [] := by
  intro nothing
  have reads := h.reads
  rw [nothing] at reads
  exact Operands.not_read_nil reads

theorem whole (h : op.IsPrintable) : ',' ∉ op.display.toList := by
  intro comma
  have kind := h.chars ',' comma
  revert kind
  decide

theorem inCapitals (h : op.IsPrintable) : InCapitals op.display.toList := by
  intro c hc
  rcases h.chars c hc with firm | blank
  · exact firm.capital
  · rcases capital_cases c with ⟨-, same⟩ | ⟨other, -⟩
    · exact same
    · rw [other] at blank
      cases blank

/-- An operand that shows no blanks is printable as soon as it is read again. -/
theorem of_isFirm (reads : read op.display.toList = .ok op)
    (firm : ∀ c ∈ op.display.toList, IsFirm c) : op.IsPrintable := by
  have visible : ∀ c ∈ op.display.toList, isBlank c = false := fun c hc => (firm c hc).isBlank
  refine { reads := reads, first := ?first, ends := ?ends, chars := ?chars, unbroken := ?unbroken }
  case first =>
    rw [← trim_of_all visible, trimStart_trim]
  case ends => exact endsUnblank_of_all visible
  case chars =>
    intro c hc
    exact Or.inl (firm c hc)
  case unbroken =>
    intro broken
    have kind := firm _ broken
    revert kind
    decide

end IsPrintable

/-! ### Registers -/

/-- The shape of the name of a register: two characters that stay, and no bracket in front. -/
structure IsNameShaped (name : String) : Prop where
  length : name.toList.length = 2
  firm : ∀ c ∈ name.toList, IsFirm c
  outside : ∀ rest, name.toList ≠ '[' :: rest

theorem isNameShaped_of_isRegisterName {name : String} (known : isRegisterName name = true) :
    IsNameShaped name := by
  have names : ∀ name ∈ wordRegisterNames ++ byteRegisterNames, name.toList.length = 2 ∧
      (name.toList.all fun c => decide (IsFirm c)) = true ∧ name.toList.head? ≠ some '[' := by
    decide
  have mem : name ∈ wordRegisterNames ++ byteRegisterNames := by
    simpa [isRegisterName] using known
  obtain ⟨length, firm, head⟩ := names name mem
  refine ⟨length, by simpa using firm, ?_⟩
  intro rest opened
  rw [opened] at head
  exact head rfl

namespace IsNameShaped

variable {name : String}

theorem ne_nil (h : IsNameShaped name) : name.toList ≠ [] := by
  intro nothing
  have two := h.length
  rw [nothing] at two
  cases two

theorem isBlank (h : IsNameShaped name) : ∀ c ∈ name.toList, Text.isBlank c = false := by
  intro c hc
  exact (h.firm c hc).isBlank

end IsNameShaped

theorem isPrintable_register {name : String} (known : isRegisterName name = true) :
    (register name).IsPrintable := by
  have shape := isNameShaped_of_isRegisterName known
  have known' : isRegisterName (String.ofList name.toList) = true := by rwa [String.ofList_toList]
  apply IsPrintable.of_isFirm
  · show read name.toList = .ok (register name)
    rw [read.eq_3 _ shape.ne_nil shape.outside, if_pos known', String.ofList_toList]
  · exact shape.firm

/-! ### Places in memory -/

theorem read_brackets (inner : List Char) :
    read ('[' :: (inner ++ [']'])) = readPlace (trim inner) := by
  rw [read, if_pos List.getLast?_concat, List.dropLast_concat]

/-- Brackets around a text without blanks. -/
theorem isFirm_brackets {inner : List Char} (firm : ∀ c ∈ inner, IsFirm c) :
    ∀ c ∈ '[' :: (inner ++ [']']), IsFirm c := by
  intro c hc
  rcases List.mem_cons.mp hc with rfl | hc
  · decide
  · rcases List.mem_append.mp hc with inside | close
    · exact firm c inside
    · rw [List.mem_singleton.mp close]
      decide

theorem isPrintable_indirect {base : String} (known : isRegisterName base = true) :
    (indirect base).IsPrintable := by
  have shape := isNameShaped_of_isRegisterName known
  have shown : (indirect base).display.toList = '[' :: (base.toList ++ [']']) := by
    simp [display]
  apply IsPrintable.of_isFirm
  · rw [shown, read_brackets, trim_of_all shape.isBlank, readPlace,
      String.ofList_toList, if_neg (by simpa using shape.ne_nil), if_pos known]
  · rw [shown]
    exact isFirm_brackets shape.firm

/-- The text inside the brackets of an address: four digits and an `H`. -/
theorem exists_digits_direct {d : Int} (low : 0 ≤ d) (high : d < 65536) :
    ∃ digits : List Char, (direct d).display.toList = '[' :: ((digits ++ ['H']) ++ [']']) ∧
      digits.length = 4 ∧ Numeral.allDigits Numeral.isHex digits = true ∧
      Numeral.valueOf 16 digits = d.toNat := by
  obtain ⟨n, rfl⟩ := Int.eq_ofNat_of_zero_le low
  have small : n < Nat.pow 16 4 := by exact_mod_cast high
  have field : IsHexField 4 (hex 4 n) n := isHexField_hex (by decide) small
  refine ⟨(hex 4 n).toList, by simp [display], field.length, ?_, field.value⟩
  unfold Numeral.allDigits
  rw [Bool.and_eq_true, List.all_eq_true]
  refine ⟨?_, field.digits⟩
  have four := field.length
  cases digits : (hex 4 n).toList with
  | nil =>
    rw [digits] at four
    cases four
  | cons c r => rfl

theorem isPrintable_direct {d : Int} (low : 0 ≤ d) (high : d < 65536) :
    (direct d).IsPrintable := by
  obtain ⟨digits, shown, four, all, value⟩ := exists_digits_direct low high
  have number : Numeral.IsUnsigned (digits ++ ['H']) d.toNat := value ▸ .suffixed all
  have trimmed : trim (digits ++ ['H']) = digits ++ ['H'] := trim_of_all number.isBlank
  -- Five characters are too many for the name of a register, even where they end as in `AH`.
  have other : ¬isRegisterName (String.ofList (digits ++ ['H'])) = true := by
    intro known
    have two := (isNameShaped_of_isRegisterName known).length
    rw [String.toList_ofList, List.length_append, four] at two
    cases two
  have short : Numeral.IsShort (digits ++ ['H']) := by
    apply Numeral.isShort_of_not_allDigits
    rw [number.unsigned_eq, Numeral.allDigits, List.all_append]
    simp [Numeral.isDecimal]
  have ends : EndsUnblank (digits ++ ['H']) := endsUnblank_of_all number.isBlank
  have literal : Numeral.IsLiteral (digits ++ ['H']) d := by
    rw [← Int.toNat_of_nonneg low]
    exact .positive number
  apply IsPrintable.of_isFirm
  · rw [shown, read_brackets, trimmed, (readPlace_eq_ok_iff ends).mpr ⟨?_, short⟩]
    rw [if_neg other]
    exact ⟨d, literal, by omega, by rw [Int.emod_eq_of_lt low high]⟩
  · rw [shown]
    exact isFirm_brackets number.isFirm

/-! ### Literals -/

/-- A literal is shown as it is written. -/
theorem isPrintable_immediate {text : String} {v : Int}
    (literal : Numeral.IsLiteral text.toList v) (fits : -0x8000 ≤ v ∧ v ≤ 0xFFFF)
    (other : isRegisterName text = false) (short : Numeral.IsShort text.toList)
    (unbroken : '\n' ∉ text.toList) : (immediate (v % 65536) text).IsPrintable := by
  have chars : ∀ c ∈ text.toList, IsFirm c ∨ isBlank c = true := literal.chars
  have ends : EndsUnblank text.toList := literal.ends
  have first : trimStart text.toList = text.toList := literal.first
  have written : IsWritten text.toList (immediate (v % 65536) (String.ofList text.toList)) :=
    .immediate (by rwa [String.ofList_toList]) literal fits
  rw [String.ofList_toList] at written
  refine { reads := ?_, first := first, ends := ends, chars := chars, unbroken := unbroken }
  exact (read_eq_ok_iff ends).mpr ⟨written, by rwa [literal.literal_eq]⟩

/-! ### Operands of lines, and operands that are made -/

/-- What is read of a line without line feeds is printable. -/
theorem isPrintable_of_read {text : List Char} (ends : EndsUnblank text)
    (unbroken : '\n' ∉ text) {op : Operand} (h : read text = .ok op) :
    op.IsPrintable := by
  obtain ⟨written, short⟩ := (read_eq_ok_iff ends).mp h
  cases written with
  | register known => exact isPrintable_register known
  | immediate other literal fits =>
    rw [literal.literal_eq] at short
    apply isPrintable_immediate _ fits other
    · rwa [String.toList_ofList]
    · rwa [String.toList_ofList]
    · rwa [String.toList_ofList]
  | indirect known => exact isPrintable_indirect known
  | direct other literal fits => exact isPrintable_direct (by omega) (by omega)

/-- An operand that can be put together without reading it: a known register, a literal with what it
denotes for its value, or a place in memory with a known register or an address of a word. The literal
has no blanks. A decimal literal of more than 4300 digits is left out, because the reader makes no
number of it. -/
inductive IsMade : Operand → Prop
  | register {name : String} (known : isRegisterName name = true) : IsMade (.register name)
  | immediate {text : String} {v : Int} (denotes : Numeral.Denotes text.toList v)
      (fits : Numeral.InRange v) (short : Numeral.IsShort text.toList)
      (unspaced : ∀ c ∈ text.toList, isBlank c = false) (other : isRegisterName text = false) :
      IsMade (.immediate (v % 65536) text)
  | indirect {base : String} (known : isRegisterName base = true) : IsMade (.indirect base)
  | direct {d : Int} (low : 0 ≤ d) (high : d < 65536) : IsMade (.direct d)

theorem isPrintable_of_isMade {op : Operand} (h : op.IsMade) : op.IsPrintable := by
  cases h with
  | register known => exact isPrintable_register known
  | immediate denotes fits short unspaced other =>
    have literal := (Numeral.denotes_iff_isLiteral (endsUnblank_of_all unspaced)).mp denotes
    apply isPrintable_immediate literal fits other short
    intro broken
    have blank := unspaced _ broken
    revert blank
    decide
  | indirect known => exact isPrintable_indirect known
  | direct low high => exact isPrintable_direct low high

end Operand

namespace Operands

/-- What is read of the text behind a mnemonic is printable. -/
theorem isPrintable_of_isRead {rest : List Char} (unbroken : '\n' ∉ rest) {ops : Operands}
    (h : IsRead rest ops) : ∀ op ∈ ops.toList, op.IsPrintable := by
  have field {s : List Char} {op : Operand} (sub : s ⊆ rest)
      (read : Operand.read (trim s) = .ok op) : op.IsPrintable :=
    Operand.isPrintable_of_read (endsUnblank_trim s)
      (fun broken => unbroken (sub (trim_subset s broken))) read
  cases h with
  | none blank => simp [toList]
  | one whole only =>
    intro op hop
    rw [List.mem_singleton.mp hop]
    exact field (List.Subset.refl _) only
  | two wholeLeft wholeRight first second =>
    intro op hop
    rcases List.mem_pair.mp hop with rfl | rfl
    · exact field (List.subset_append_left _ _) first
    · refine field (fun c hc => ?_) second
      exact List.mem_append_right _ (List.mem_cons_of_mem _ hc)

/-! ## Lines -/

/-- The operands as a line shows them. -/
def shown (ops : Operands) : List Char :=
  [',', ' '].intercalate (ops.toList.map fun op => op.display.toList)

@[simp] theorem shown_none : shown none = [] := rfl

@[simp] theorem shown_one (a : Operand) : (one a).shown = a.display.toList := by
  simp [shown, toList, List.intercalate]

@[simp] theorem shown_two (a b : Operand) :
    (two a b).shown = a.display.toList ++ ',' :: ' ' :: b.display.toList := by
  simp [shown, toList, List.intercalate]

/-- Operands that are shown one by one are read field by field. -/
theorem isRead_shown {ops : Operands} (each : ∀ op ∈ ops.toList, op.IsPrintable) :
    IsRead ops.shown ops := by
  cases ops with
  | none => exact .none (by simp)
  | one a =>
    have first : a.IsPrintable := each a (by simp [toList])
    rw [shown_one]
    exact .one first.whole (by rw [first.trim_display, first.reads])
  | two a b =>
    have first : a.IsPrintable := each a (by simp [toList])
    have second : b.IsPrintable := each b (by simp [toList])
    have behind : trim (' ' :: b.display.toList) = b.display.toList := by
      rw [← List.singleton_append, trim_append_of_blank isBlank_of_mem_space, second.trim_display]
    rw [shown_two]
    refine .two first.whole ?_ (by rw [first.trim_display, first.reads]) (by rw [behind, second.reads])
    simpa using second.whole

/-- What is shown of printable operands ends in no blank, is in capitals, and has no line feed. -/
structure IsShown (s : List Char) : Prop where
  ends : EndsUnblank s
  capitals : InCapitals s
  unbroken : '\n' ∉ s

theorem isShown_shown {ops : Operands} (each : ∀ op ∈ ops.toList, op.IsPrintable) :
    IsShown ops.shown := by
  cases ops with
  | none => exact ⟨by simp [EndsUnblank], by simp [InCapitals], by simp⟩
  | one a =>
    have first : a.IsPrintable := each a (by simp [toList])
    rw [shown_one]
    exact ⟨first.ends, first.inCapitals, first.unbroken⟩
  | two a b =>
    have first : a.IsPrintable := each a (by simp [toList])
    have second : b.IsPrintable := each b (by simp [toList])
    have mark : InCapitals [',', ' '] := by
      intro c hc
      apply capital_of_lt
      rcases List.mem_pair.mp hc with rfl | rfl <;> decide
    rw [shown_two]
    refine ⟨?_, first.inCapitals.append (mark.append second.inCapitals), ?_⟩
    · rw [List.append_cons, List.append_cons]
      exact second.ends.append second.display_ne_nil
    · simp [first.unbroken, second.unbroken]

end Operands

namespace Instruction

/-- The instruction without the text that it was read from. -/
def withoutText (i : Instruction) : Instruction := { i with text := "" }

theorem toList_display_withoutText (i : Instruction) :
    i.withoutText.display.toList = trim (i.mnemonic.toList ++ ' ' :: i.operands.shown) := by
  have joined : (String.intercalate ", " (i.operands.toList.map Operand.display)).toList =
      i.operands.shown := by
    rw [String.toList_intercalate, List.map_map]
    rfl
  have parts : i.withoutText.display = i.withoutText.parts := by
    unfold display
    exact if_pos rfl
  rw [parts, Instruction.parts]
  simp [withoutText, joined]

/-- The line that the instruction shows without its text is read as an instruction with the same
mnemonic and the same operands, and that shows the same line again. -/
def ReadsBack (i : Instruction) : Prop :=
  ∀ n : Int, ∃ j, parse i.withoutText.display n = .ok j ∧ j.mnemonic = i.mnemonic ∧
    j.operands = i.operands ∧ j.withoutText.display = i.withoutText.display

theorem IsMnemonic.all {s : List Char} (name : IsMnemonic s) : ∀ c ∈ s, isMnemonicChar c = true := by
  obtain ⟨c, rest, rfl, capital, others⟩ := name
  intro d hd
  rcases List.mem_cons.mp hd with rfl | hd
  · unfold isMnemonicChar
    rw [capital, Bool.true_or]
  · exact others d hd

theorem IsMnemonic.isFirm {s : List Char} (name : IsMnemonic s) : ∀ c ∈ s, IsFirm c :=
  fun c hc => .of_isMnemonicChar (name.all c hc)

theorem IsMnemonic.trimStart_append {s : List Char} (name : IsMnemonic s) (t : List Char) :
    trimStart (s ++ t) = s ++ t := by
  have firm := name.isFirm
  obtain ⟨c, rest, rfl, -, -⟩ := name
  exact trimStart_cons (firm c List.mem_cons_self).isBlank _

theorem IsMnemonic.ends {s : List Char} (name : IsMnemonic s) : EndsUnblank s :=
  endsUnblank_of_all fun c hc => (name.isFirm c hc).isBlank

theorem IsMnemonic.inCapitals {s : List Char} (name : IsMnemonic s) : InCapitals s := by
  intro c hc
  exact (name.isFirm c hc).capital

theorem endsUnblank_apart (s : List Char) {t : List Char} (ends : EndsUnblank t) (filled : t ≠ []) :
    EndsUnblank (s ++ ([' '] ++ t)) := by
  rw [← List.append_assoc]
  exact ends.append filled

/-- The line is the mnemonic alone if no operands are shown. -/
theorem toList_display_bare {i : Instruction} (name : IsMnemonic i.mnemonic.toList)
    (bare : i.operands.shown = []) : i.withoutText.display.toList = i.mnemonic.toList := by
  have start := name.trimStart_append [' ']
  rw [toList_display_withoutText, bare, trim, start, trimEnd_append_of_blank isBlank_of_mem_space,
    name.ends.trimEnd]

theorem toList_display_apart {i : Instruction} (name : IsMnemonic i.mnemonic.toList)
    (ends : EndsUnblank i.operands.shown) (filled : i.operands.shown ≠ []) :
    i.withoutText.display.toList = i.mnemonic.toList ++ ([' '] ++ i.operands.shown) := by
  have last := endsUnblank_apart i.mnemonic.toList ends filled
  have start := name.trimStart_append ([' '] ++ i.operands.shown)
  have whole := (congrArg trimEnd start).trans last.trimEnd
  rw [toList_display_withoutText]
  exact whole

/-- The line that is shown is in capitals and has no blanks at its ends, so it is read as it is, and it
splits into the mnemonic and the operands. -/
theorem split?_display {i : Instruction} (name : IsMnemonic i.mnemonic.toList)
    (shown : Operands.IsShown i.operands.shown) :
    split? (upper (trim i.withoutText.display.toList)) =
      some (i.mnemonic.toList, trimStart i.operands.shown) := by
  have space : InCapitals [' '] := by
    intro c hc
    rw [List.mem_singleton.mp hc]
    decide
  by_cases bare : i.operands.shown = []
  · have start := name.trimStart_append []
    rw [List.append_nil] at start
    rw [toList_display_bare name bare, trim, start, name.ends.trimEnd,
      upper_of_inCapitals name.inCapitals, split?_bare name, bare]
    rfl
  · have last := endsUnblank_apart i.mnemonic.toList shown.ends bare
    have capitals := name.inCapitals.append (space.append shown.capitals)
    rw [toList_display_apart name shown.ends bare, trim, name.trimStart_append, last.trimEnd,
      upper_of_inCapitals capitals]
    exact split?_apart name (List.cons_ne_nil _ _) isBlank_of_mem_space shown.unbroken

theorem readsBack_of_isPrintable {i : Instruction} (name : IsMnemonic i.mnemonic.toList)
    (each : ∀ op ∈ i.operands.toList, op.IsPrintable) : ReadsBack i := by
  intro n
  have parts := split?_display name (Operands.isShown_shown each)
  have operands := (Operands.isRead_shown each).trimStart
  refine ⟨_, parse_eq_ok_iff.mpr ⟨_, _, _, parts, operands, rfl⟩, ?_, rfl, ?_⟩
  · exact String.ofList_toList
  · apply String.toList_injective
    rw [toList_display_withoutText, toList_display_withoutText, String.ofList_toList]

/-- Printing and reading are inverse. An instruction that was read from a line shows, without its text, a
line that is read as the same mnemonic and the same operands, and so does every instruction that is
put together of a mnemonic and of operands of the known kinds. Decimal literals of more than 4300
digits are left out of what is put together: the reader makes no number of them, so a line that shows
one is not read. -/
theorem printing_and_reading_are_inverse :
    (∀ (line : String) (n : Int) (i : Instruction), parse line n = .ok i →
      ReadsBack i) ∧
    (∀ i : Instruction, IsMnemonic i.mnemonic.toList → (∀ op ∈ i.operands.toList, op.IsMade) →
      ReadsBack i) := by
  constructor
  · intro line n i h
    obtain ⟨mnemonic, rest, ops, parts, operands, rfl⟩ := parse_eq_ok_iff.mp h
    obtain ⟨name, ending⟩ := parts_of_split? parts
    have unbroken : '\n' ∉ rest := by
      rcases ending with ⟨-, rfl⟩ | ⟨blanks, -, -, unbroken, -⟩
      · simp
      · exact unbroken
    apply readsBack_of_isPrintable
    · rwa [String.toList_ofList]
    · exact Operands.isPrintable_of_isRead unbroken operands
  · intro i name made
    apply readsBack_of_isPrintable name
    intro op hop
    exact Operand.isPrintable_of_isMade (made op hop)

/-- A move with a blank behind the sign of its literal and an address that starts like a register. -/
def addressedMove : Instruction :=
  ⟨"MOV", .two (.direct 0xAC) (.immediate 0xFFF0 "- 10H"), "MOV [0ACH] ,- 10H", 3⟩

/-- A jump that is put together with a literal that has a sign. -/
def signedJump : Instruction := ⟨"JMP", .one (.immediate 0xFFF6 "-0AH"), "", 0⟩

theorem addressedMove_readsBack :
    parse " mov [0ach] ,- 10h" 3 = .ok addressedMove ∧
      addressedMove.withoutText.display = "MOV [00ACH], - 10H" ∧ addressedMove.ReadsBack ∧
      IsMnemonic signedJump.mnemonic.toList ∧ (∀ op ∈ signedJump.operands.toList, op.IsMade) ∧
      signedJump.ReadsBack := by
  have read : parse " mov [0ach] ,- 10h" 3 = .ok addressedMove := by decide +kernel
  have name : IsMnemonic signedJump.mnemonic.toList :=
    ⟨'J', "MP".toList, rfl, by decide, List.all_eq_true.mp (by decide)⟩
  have ten : Numeral.Writing.suffixed.Writes "0AH".toList 10 :=
    ⟨[0, 10], by decide, by decide, by decide, by decide⟩
  have denotes : Numeral.Denotes ('-' :: ([] ++ "0AH".toList ++ [])) (-10) :=
    .negative ten (by simp) (by simp)
  have unspaced : ∀ c ∈ "-0AH".toList, isBlank c = false := by
    simp [isBlank]
  have literal : Operand.IsMade (.immediate (-10 % 65536) "-0AH") :=
    .immediate denotes (by decide) (by decide) unspaced (by decide)
  have made : ∀ op ∈ signedJump.operands.toList, op.IsMade := by
    intro op hop
    rw [List.mem_singleton.mp hop]
    exact literal
  refine ⟨read, by decide +kernel, ?_, name, made, ?_⟩
  · exact printing_and_reading_are_inverse.1 _ _ _ read
  · exact printing_and_reading_are_inverse.2 _ name made

end Instruction

end BusCycle
