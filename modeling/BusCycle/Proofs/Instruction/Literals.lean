-- Literals that are too long to be made numbers. Only decimal digits can be too many, and that is all
-- that ever breaks the reading of a line off: a line without such a literal is an instruction, or it
-- has a fault that can be told.
import BusCycle.Instruction.Parser

namespace BusCycle

/-! ## Ends of trimmed texts -/

namespace Text

/-- The last character of a trimmed text is none that is trimmed away. -/
theorem isBlank_of_getLast?_trim {s : List Char} {c : Char} (h : (trim s).getLast? = some c) :
    isBlank c = false := by
  rw [trim, trimEnd, List.getLast?_reverse] at h
  have first := List.head?_dropWhile_not isBlank (trimStart s).reverse
  rw [h] at first
  simpa using first

theorem getLast?_trim_ne (s : List Char) : (trim s).getLast? ≠ some '\n' := fun h => by
  have : isBlank '\n' = false := isBlank_of_getLast?_trim h
  revert this
  decide

theorem trim_of_all {s : List Char} (h : ∀ c ∈ s, isBlank c = false) : trim s = s := by
  have kept {t : List Char} (ht : ∀ c ∈ t, isBlank c = false) : t.dropWhile isBlank = t := by
    cases t with
    | nil => rfl
    | cons c r => exact List.dropWhile_cons_of_neg (by rw [ht c List.mem_cons_self]; decide)
  rw [trim, trimStart, kept h, trimEnd, kept (by simpa using h), List.reverse_reverse]

end Text

/-! ## Literals -/

namespace Numeral

/-- A literal without its sign. -/
def unsigned : List Char → List Char
  | '-' :: rest => Text.trim rest
  | text => text

/-- A literal that is not decimal, or has no more digits than are made one number. -/
def IsShort (text : List Char) : Prop :=
  allDigits isDecimal (unsigned text) = true → (unsigned text).length ≤ Text.digitLimit

instance (text : List Char) : Decidable (IsShort text) := by
  unfold IsShort
  infer_instance

variable {text : List Char}

theorem not_isShort_iff : ¬IsShort text ↔ isOverlong (unsigned text) = true := by
  unfold IsShort isOverlong
  rw [Bool.and_eq_true, decide_eq_true_iff, Classical.not_imp, Nat.not_le]

theorem isShort_iff : IsShort text ↔ isOverlong (unsigned text) = false := by
  rw [← Bool.not_eq_true, ← not_isShort_iff, Classical.not_not]

theorem isShort_of_not_allDigits (h : allDigits isDecimal (unsigned text) = false) :
    IsShort text := by
  intro all
  rw [h] at all
  cases all

/-- A literal that is too long, and the failure to convert it, which says how many digits it has. -/
def IsTooLong (text : List Char) (c : ConversionFault) : Prop :=
  ¬IsShort text ∧ c = .tooManyDigits (unsigned text).length

theorem digitLimit_lt_of_not_isShort (h : ¬IsShort text) :
    Text.digitLimit < (unsigned text).length := by
  unfold IsShort at h
  omega

/-! ### Reading a literal -/

theorem read_negative (rest : List Char) :
    read ('-' :: rest) = readUnsigned ('-' :: rest) (Text.trim rest) fun n => -(n : Int) := rfl

/-- A literal without a sign that does not end in a line feed is no literal that breaks apart. -/
theorem read_positive (positive : ∀ rest, text ≠ '-' :: rest) (ends : text.getLast? ≠ some '\n') :
    read text = readUnsigned text text fun n => n := by
  rw [read.eq_2 text positive, Text.withoutFinalBreak, if_neg ends]
  simp

theorem readUnsigned_eq_conversion_iff {digits : List Char} {signed : Nat → Int}
    {c : ConversionFault} :
    readUnsigned text digits signed = .error (.conversion c) ↔
      isOverlong digits = true ∧ c = .tooManyDigits digits.length := by
  have fitted (v : Int) : fit text v ≠ .error (.conversion c) := by
    unfold fit
    split <;> simp
  unfold readUnsigned
  split
  · rename_i long
    simp [long, eq_comm]
  · rename_i short
    simp only [short, Bool.false_eq_true, false_and, iff_false]
    split
    · exact fitted _
    · simp

/-- Digits are not converted just if there are too many of them, and the failure says how many. -/
theorem read_eq_conversion_iff (ends : text.getLast? ≠ some '\n') {c : ConversionFault} :
    read text = .error (.conversion c) ↔ IsTooLong text c := by
  rw [IsTooLong, not_isShort_iff]
  by_cases negative : ∃ rest, text = '-' :: rest
  · obtain ⟨rest, rfl⟩ := negative
    exact readUnsigned_eq_conversion_iff
  · have positive : ∀ rest, text ≠ '-' :: rest := fun rest same => negative ⟨rest, same⟩
    rw [read_positive positive ends, unsigned.eq_2 text positive]
    exact readUnsigned_eq_conversion_iff

end Numeral

/-! ## Operands -/

/-- What is done to a value afterwards does not bring in a failure. -/
theorem error_of_map_error {ε α β : Type} {x : Except ε α} {f : α → β} {e : ε}
    (h : x.map f = .error e) : x = .error e := by
  cases x with
  | error e' =>
    cases h
    rfl
  | ok a => cases h

/-- The name of a register is not decimal. -/
theorem isShort_of_isRegisterName {text : List Char}
    (known : isRegisterName (String.ofList text) = true) : Numeral.IsShort text := by
  have names : ∀ name ∈ wordRegisterNames ++ byteRegisterNames,
      Numeral.allDigits Numeral.isDecimal (Numeral.unsigned name.toList) = false := by
    decide
  have mem : String.ofList text ∈ wordRegisterNames ++ byteRegisterNames := by
    simpa [isRegisterName] using known
  have word := names _ mem
  rw [String.toList_ofList] at word
  exact Numeral.isShort_of_not_allDigits word

theorem conversion_of_readNumber {text : List Char} (ends : text.getLast? ≠ some '\n')
    {c : ConversionFault} (h : readNumber text = .error (.conversion c)) :
    Numeral.IsTooLong text c := by
  apply (Numeral.read_eq_conversion_iff ends).mp
  unfold readNumber at h
  rcases read : Numeral.read text with failure | w
  · rw [read] at h
    cases failure <;> cases h
    rfl
  · rw [read] at h
    cases h

namespace Operand

/-- What is read as a number unless it is a register: an operand, or what its brackets hold. -/
def literal : List Char → List Char
  | '[' :: rest => if rest.getLast? = some ']' then Text.trim rest.dropLast else []
  | text => text

variable {c : ConversionFault}

theorem conversion_of_readPlace {inner : List Char} (ends : inner.getLast? ≠ some '\n')
    (h : readPlace inner = .error (.conversion c)) :
    Numeral.IsTooLong inner c := by
  unfold readPlace at h
  split at h
  · cases h
  split at h
  · cases h
  · exact conversion_of_readNumber ends (error_of_map_error h)

theorem conversion_of_read {text : List Char} (ends : text.getLast? ≠ some '\n')
    (h : read text = .error (.conversion c)) :
    Numeral.IsTooLong (literal text) c := by
  unfold read at h
  split at h
  · cases h
  · split at h
    · rename_i closed
      rw [literal, if_pos closed]
      exact conversion_of_readPlace (Text.getLast?_trim_ne _) h
    · cases h
  · rename_i outside
    split at h
    · cases h
    · rw [literal.eq_2 _ outside]
      exact conversion_of_readNumber ends (error_of_map_error h)

end Operand

theorem Operands.conversion_of_read {rest : List Char} {c : ConversionFault}
    (h : read rest = .error (.conversion c)) :
    ∃ field ∈ (rest.splitOn ',').map Text.trim,
      Numeral.IsTooLong (Operand.literal field) c := by
  have trimmed : ∀ field ∈ (rest.splitOn ',').map Text.trim, field.getLast? ≠ some '\n' := by
    intro field mem
    obtain ⟨piece, -, rfl⟩ := List.mem_map.mp mem
    exact Text.getLast?_trim_ne piece
  unfold read at h
  split at h
  · cases h
  generalize (rest.splitOn ',').map Text.trim = fields at h trimmed
  split at h
  · cases h
  · rename_i a
    have only : a ∈ [a] := List.mem_singleton_self a
    exact ⟨a, only, Operand.conversion_of_read (trimmed a only) (error_of_map_error h)⟩
  · rename_i a b
    have first : a ∈ [a, b] := List.mem_cons_self
    have second : b ∈ [a, b] := List.mem_cons_of_mem _ (List.mem_singleton_self b)
    split at h
    · rename_i failed
      cases h
      exact ⟨a, first, Operand.conversion_of_read (trimmed a first) failed⟩
    · exact ⟨b, second, Operand.conversion_of_read (trimmed b second) (error_of_map_error h)⟩
  · cases h

/-! ## Lines -/

namespace Instruction

/-- The texts of a line that may be read as numbers. -/
def literals (line : String) : List (List Char) :=
  match split? (Text.upper (Text.trim line.toList)) with
  | none => []
  | some (_, rest) => ((rest.splitOn ',').map Text.trim).map Operand.literal

/-- No decimal literal of the line has more digits than are made one number. -/
def ShortLiterals (line : String) : Prop := ∀ text ∈ literals line, Numeral.IsShort text

instance (line : String) : Decidable (ShortLiterals line) := by
  unfold ShortLiterals
  infer_instance

variable {line : String} {n : Int}

/-- The reading of a line breaks off only at a literal of it that is too long. -/
theorem conversion_of_parse {c : ConversionFault}
    (h : parse line n = .error (.conversion c)) :
    ∃ text ∈ literals line, Numeral.IsTooLong text c := by
  unfold parse at h
  unfold literals
  dsimp only at h
  rcases parts : split? (Text.upper (Text.trim line.toList)) with _ | ⟨mnemonic, rest⟩
  · rw [parts] at h
    cases h
  rw [parts] at h
  dsimp only at h ⊢
  rcases operands : Operands.read rest with failure | ops
  · rw [operands] at h
    cases failure with
    | fault f => cases h
    | conversion c' =>
      cases h
      obtain ⟨field, mem, long⟩ := Operands.conversion_of_read operands
      exact ⟨Operand.literal field, List.mem_map_of_mem mem, long⟩
  · rw [operands] at h
    cases h

/-- A line without literals that are too long has a fault if it is no instruction. -/
theorem fault_of_parse (short : ShortLiterals line) {failure : ReadFailure LineError}
    (h : parse line n = .error failure) : ∃ e, failure = .fault e := by
  cases failure with
  | fault e => exact ⟨e, rfl⟩
  | conversion c =>
    obtain ⟨text, mem, long, -⟩ := conversion_of_parse h
    exact absurd (short text mem) long

/-- A line that breaks its reading off has a number of digits that is beyond the limit. -/
theorem tooManyDigits_of_parse {c : ConversionFault}
    (h : parse line n = .error (.conversion c)) :
    ∃ count, c = .tooManyDigits count ∧ Text.digitLimit < count := by
  obtain ⟨text, -, long, rfl⟩ := conversion_of_parse h
  exact ⟨_, rfl, Numeral.digitLimit_lt_of_not_isShort long⟩

end Instruction

end BusCycle
