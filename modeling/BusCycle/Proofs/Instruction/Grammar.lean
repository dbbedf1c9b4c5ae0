-- The grammar of program lines, told by how the parts of a line are put together and not by how they
-- are found. A literal or an operand is read just if it is of the grammar and has not too many digits,
-- and what a line is split into are the parts that it is put together of.
import BusCycle.Proofs.Instruction.Literals
import BusCycle.Proofs.Number.Masks
import BusCycle.Proofs.Text.Trimming
import Mathlib.Data.List.TakeWhile

namespace BusCycle

open Text

theorem Text.endsUnblank_trim (s : List Char) : EndsUnblank (trim s) := fun _ =>
  isBlank_of_getLast?_trim

/-! ## Literals -/

namespace Numeral

/-- An unsigned literal and the number that it denotes. -/
inductive IsUnsigned : List Char → Nat → Prop
  | marked {digits : List Char} (all : allDigits isHex digits = true) :
      IsUnsigned ('0' :: 'X' :: digits) (valueOf 16 digits)
  | suffixed {digits : List Char} (all : allDigits isHex digits = true) :
      IsUnsigned (digits ++ ['H']) (valueOf 16 digits)
  | decimal {digits : List Char} (all : allDigits isDecimal digits = true) :
      IsUnsigned digits (valueOf 10 digits)

/-- A literal and the number that it denotes. Blanks may stand between a minus sign and the rest. -/
inductive IsLiteral : List Char → Int → Prop
  | positive {digits : List Char} {n : Nat} (number : IsUnsigned digits n) : IsLiteral digits n
  | negative {blanks digits : List Char} {n : Nat} (blank : ∀ c ∈ blanks, isBlank c = true)
      (number : IsUnsigned digits n) : IsLiteral ('-' :: (blanks ++ digits)) (-n)

theorem not_isBlank_of_isHex {c : Char} (h : isHex c = true) : isBlank c = false := by
  have code : (48 ≤ c.toNat ∧ c.toNat ≤ 57) ∨ (65 ≤ c.toNat ∧ c.toNat ≤ 70) := by
    simpa [isHex, isDecimal, Char.le_def, UInt32.le_iff_toNat_le] using h
  rw [Bool.eq_false_iff]
  simp only [isBlank, ne_eq, Bool.or_eq_true, Bool.and_eq_true, decide_eq_true_eq, beq_iff_eq]
  omega

theorem isHex_of_mem {digits : List Char} (all : allDigits isHex digits = true) {c : Char}
    (h : c ∈ digits) : isHex c = true :=
  List.all_eq_true.mp (Bool.and_eq_true_iff.mp all).2 c h

theorem allDigits_isHex {digits : List Char} (all : allDigits isDecimal digits = true) :
    allDigits isHex digits = true := by
  unfold allDigits at all ⊢
  rw [Bool.and_eq_true_iff, List.all_eq_true] at all ⊢
  exact ⟨all.1, fun c hc => by simp [isHex, all.2 c hc]⟩

theorem IsUnsigned.mem {s : List Char} {n : Nat} (h : IsUnsigned s n) {c : Char} (hc : c ∈ s) :
    isHex c = true ∨ c = 'X' ∨ c = 'H' := by
  cases h with
  | marked all =>
    rcases List.mem_cons.mp hc with rfl | hc
    · exact Or.inl (by decide)
    · rcases List.mem_cons.mp hc with rfl | hc
      · exact Or.inr (Or.inl rfl)
      · exact Or.inl (isHex_of_mem all hc)
  | suffixed all =>
    rcases List.mem_append.mp hc with hc | hc
    · exact Or.inl (isHex_of_mem all hc)
    · exact Or.inr (Or.inr (List.mem_singleton.mp hc))
  | decimal all => exact Or.inl (isHex_of_mem (allDigits_isHex all) hc)

theorem IsUnsigned.ne_nil {s : List Char} {n : Nat} (h : IsUnsigned s n) : s ≠ [] := by
  rintro rfl
  generalize hs : ([] : List Char) = s at h
  cases h with
  | marked all => cases hs
  | suffixed all => simp at hs
  | decimal all =>
    subst hs
    exact Bool.noConfusion all

theorem IsUnsigned.isBlank {s : List Char} {n : Nat} (h : IsUnsigned s n) :
    ∀ c ∈ s, isBlank c = false := by
  intro c hc
  rcases h.mem hc with hex | rfl | rfl
  · exact not_isBlank_of_isHex hex
  · decide
  · decide

theorem IsUnsigned.head_ne {s : List Char} {n : Nat} (h : IsUnsigned s n) {c : Char} {r : List Char}
    (hs : s = c :: r) : c ≠ '-' ∧ c ≠ '[' := by
  have first := h.mem (hs ▸ List.mem_cons_self : c ∈ s)
  constructor <;> rintro rfl <;> revert first <;> decide

theorem IsLiteral.ne_bracket {s rest : List Char} {v : Int} (h : IsLiteral s v) : s ≠ '[' :: rest := by
  cases h with
  | positive number => exact fun same => (number.head_ne same).2 rfl
  | negative blank number => simp

/-- No two forms of an unsigned literal have a text in common, so it does not matter which of them is
tried first. -/
theorem unsigned?_eq_some_iff {s : List Char} {n : Nat} : unsigned? s = some n ↔ IsUnsigned s n := by
  have unmarked {t : List Char} (free : 'X' ∉ t) : t.take 2 ≠ ['0', 'X'] := by
    intro front
    exact free (List.mem_of_mem_take (i := 2) (by rw [front]; decide))
  constructor
  · intro h
    unfold unsigned? at h
    split at h
    · rename_i marked
      obtain rfl := Option.some.inj h
      obtain ⟨digits, rfl⟩ : ∃ digits, s = '0' :: 'X' :: digits := by
        have parts := List.take_append_drop 2 s
        rw [marked.1] at parts
        exact ⟨s.drop 2, parts.symm⟩
      exact .marked marked.2
    split at h
    · rename_i suffixed
      obtain rfl := Option.some.inj h
      obtain ⟨last, all⟩ := suffixed
      obtain ⟨digits, rfl⟩ := List.getLast?_eq_some_iff.mp last
      rw [List.dropLast_concat] at all ⊢
      exact .suffixed all
    split at h
    · rename_i all
      obtain rfl := Option.some.inj h
      exact .decimal all
    · cases h
  · intro h
    unfold unsigned?
    cases h with
    | marked all => rw [if_pos ⟨rfl, all⟩]; rfl
    | @suffixed digits all =>
      have free : 'X' ∉ digits ++ ['H'] := by
        intro mem
        rcases List.mem_append.mp mem with mem | mem
        · exact Bool.noConfusion (isHex_of_mem all mem)
        · simp at mem
      rw [if_neg fun front => unmarked free front.1, List.dropLast_concat,
        if_pos ⟨List.getLast?_concat, all⟩]
    | decimal all =>
      have hex {c : Char} (hc : c ∈ s) := isHex_of_mem (allDigits_isHex all) hc
      have free : 'X' ∉ s := fun mem => Bool.noConfusion (hex mem)
      have bare : s.getLast? ≠ some 'H' := fun last =>
        Bool.noConfusion (hex (List.mem_of_getLast? last))
      rw [if_neg fun front => unmarked free front.1, if_neg fun last => bare last.1, if_pos all]

/-! ### Reading a literal -/

theorem fit_eq_ok_iff {text : List Char} {v : Int} {w : Word} :
    fit text v = .ok w ↔ (-0x8000 ≤ v ∧ v ≤ 0xFFFF) ∧ w = BitVec.ofInt 16 v := by
  unfold fit least greatest
  split
  · rename_i fits
    simp only [Except.ok.injEq, fits, and_self, true_and]
    exact eq_comm
  · rename_i beyond
    simp [beyond]

theorem readUnsigned_eq_ok_iff {text digits : List Char} {signed : Nat → Int} {w : Word} :
    readUnsigned text digits signed = .ok w ↔
      isOverlong digits = false ∧ ∃ n, IsUnsigned digits n ∧ fit text (signed n) = .ok w := by
  simp only [← unsigned?_eq_some_iff]
  unfold readUnsigned
  split
  · rename_i long
    simp [long]
  · rename_i short
    cases unsigned? digits <;> simp [short]

/-- After a minus sign, trimming leaves the unsigned literal. -/
theorem isLiteral_minus_iff {rest : List Char} (ends : EndsUnblank rest) {v : Int} :
    IsLiteral ('-' :: rest) v ↔ ∃ n : Nat, v = -n ∧ IsUnsigned (trim rest) n := by
  constructor
  · intro h
    generalize hs : '-' :: rest = s at h
    cases h with
    | positive number => exact absurd rfl (number.head_ne hs.symm).1
    | @negative blanks digits n blank number =>
      obtain ⟨-, rfl⟩ := List.cons.inj hs
      refine ⟨n, rfl, ?_⟩
      rw [trim_append_of_blank blank, trim_of_all number.isBlank]
      exact number
  · rintro ⟨n, rfl, number⟩
    have blank : ∀ c ∈ rest.takeWhile isBlank, isBlank c = true :=
      List.all_eq_true.mp List.all_takeWhile
    rw [trim, ends.trimStart.trimEnd] at number
    rw [← List.takeWhile_append_dropWhile (p := isBlank) (l := rest)]
    exact .negative blank number

theorem isLiteral_iff {text : List Char} (unsigned : ∀ rest, text ≠ '-' :: rest) {v : Int} :
    IsLiteral text v ↔ ∃ n : Nat, v = n ∧ IsUnsigned text n := by
  constructor
  · intro h
    cases h with
    | positive number => exact ⟨_, rfl, number⟩
    | negative blank number => exact absurd rfl (unsigned _)
  · rintro ⟨n, rfl, number⟩
    exact .positive number

/-- A text that ends in no blank is read as a number just if it is a literal of a number that fits a
word and has not too many digits. -/
theorem read_eq_ok_iff {text : List Char} (ends : EndsUnblank text) {w : Word} :
    read text = .ok w ↔ IsShort text ∧
      ∃ v, IsLiteral text v ∧ (-0x8000 ≤ v ∧ v ≤ 0xFFFF) ∧ w = BitVec.ofInt 16 v := by
  rw [isShort_iff]
  by_cases negative : ∃ rest, text = '-' :: rest
  · obtain ⟨rest, rfl⟩ := negative
    simp only [read_negative, readUnsigned_eq_ok_iff, isLiteral_minus_iff ends.of_cons,
      fit_eq_ok_iff]
    refine and_congr_right fun _ => ⟨?_, ?_⟩
    · rintro ⟨n, number, fits⟩
      exact ⟨-n, ⟨n, rfl, number⟩, fits⟩
    · rintro ⟨_, ⟨n, rfl, number⟩, fits⟩
      exact ⟨n, number, fits⟩
  · have positive : ∀ rest, text ≠ '-' :: rest := fun rest same => negative ⟨rest, same⟩
    rw [read_positive positive ends.getLast?_ne, unsigned.eq_2 text positive]
    simp only [readUnsigned_eq_ok_iff, isLiteral_iff positive, fit_eq_ok_iff]
    refine and_congr_right fun _ => ⟨?_, ?_⟩
    · rintro ⟨n, number, fits⟩
      exact ⟨n, ⟨n, rfl, number⟩, fits⟩
    · rintro ⟨_, ⟨n, rfl, number⟩, fits⟩
      exact ⟨n, number, fits⟩

end Numeral

/-! ## Operands -/

theorem not_isRegisterName_nil : isRegisterName (String.ofList []) = false := by
  decide

theorem not_isRegisterName_bracket (rest : List Char) :
    isRegisterName (String.ofList ('[' :: rest)) = false := by
  have names : ∀ name ∈ wordRegisterNames ++ byteRegisterNames, name.toList.head? ≠ some '[' := by
    decide
  rw [Bool.eq_false_iff]
  intro known
  refine names (String.ofList ('[' :: rest)) ?_ (by rw [String.toList_ofList, List.head?_cons])
  simpa [isRegisterName] using known

namespace Operand

/-- A text without blanks at its ends, and the operand that it stands for. What is the name of a
register is never read as a literal, neither by itself nor in brackets. -/
inductive IsWritten : List Char → Operand → Prop
  | register {text : List Char} (known : isRegisterName (String.ofList text) = true) :
      IsWritten text (.register (String.ofList text))
  | immediate {text : List Char} {v : Int} (other : isRegisterName (String.ofList text) = false)
      (literal : Numeral.IsLiteral text v) (fits : -0x8000 ≤ v ∧ v ≤ 0xFFFF) :
      IsWritten text (.immediate (v % 65536) (String.ofList text))
  | indirect {inner : List Char} (known : isRegisterName (String.ofList (trim inner)) = true) :
      IsWritten ('[' :: (inner ++ [']'])) (.indirect (String.ofList (trim inner)))
  | direct {inner : List Char} {v : Int}
      (other : isRegisterName (String.ofList (trim inner)) = false)
      (literal : Numeral.IsLiteral (trim inner) v) (fits : -0x8000 ≤ v ∧ v ≤ 0xFFFF) :
      IsWritten ('[' :: (inner ++ [']'])) (.direct (v % 65536))

/-- A number that stands for an operand in a certain way. -/
def IsNumber (text : List Char) (made : Int → Operand) (op : Operand) : Prop :=
  ∃ v, Numeral.IsLiteral text v ∧ (-0x8000 ≤ v ∧ v ≤ 0xFFFF) ∧ op = made (v % 65536)

theorem IsNumber.ne_nil {text : List Char} {made : Int → Operand} {op : Operand}
    (h : IsNumber text made op) : text ≠ [] := by
  obtain ⟨v, literal, -, -⟩ := h
  cases literal with
  | positive number => exact number.ne_nil
  | negative blank number => simp

theorem isWritten_bracket_iff {inner : List Char} {op : Operand} :
    IsWritten ('[' :: (inner ++ [']'])) op ↔
      if isRegisterName (String.ofList (trim inner)) = true then
        op = .indirect (String.ofList (trim inner))
      else IsNumber (trim inner) direct op := by
  constructor
  · intro h
    generalize hs : '[' :: (inner ++ [']']) = s at h
    cases h with
    | register known =>
      rw [← hs, not_isRegisterName_bracket] at known
      cases known
    | immediate other literal fits =>
      exact absurd hs.symm literal.ne_bracket
    | @indirect inner' known =>
      obtain rfl : inner = inner' := by simpa using hs
      rw [if_pos known]
    | @direct inner' v other literal fits =>
      obtain rfl : inner = inner' := by simpa using hs
      rw [if_neg (by simp [other])]
      exact ⟨v, literal, fits, rfl⟩
  · intro h
    split at h
    · rename_i known
      subst h
      exact .indirect known
    · rename_i other
      obtain ⟨v, literal, fits, rfl⟩ := h
      exact .direct (Bool.eq_false_iff.mpr other) literal fits

theorem isWritten_plain_iff {text : List Char} (outside : ∀ rest, text ≠ '[' :: rest)
    {op : Operand} :
    IsWritten text op ↔
      if isRegisterName (String.ofList text) = true then op = .register (String.ofList text)
      else IsNumber text (.immediate · (String.ofList text)) op := by
  constructor
  · intro h
    cases h with
    | register known => rw [if_pos known]
    | immediate other literal fits =>
      rw [if_neg (by simp [other])]
      exact ⟨_, literal, fits, rfl⟩
    | indirect known => exact absurd rfl (outside _)
    | direct other literal fits => exact absurd rfl (outside _)
  · intro h
    split at h
    · rename_i known
      subst h
      exact .register known
    · rename_i other
      obtain ⟨v, literal, fits, rfl⟩ := h
      exact .immediate (Bool.eq_false_iff.mpr other) literal fits

/-- A text that opens a bracket stands for an operand only if it closes it at its end. -/
theorem IsWritten.getLast?_of_bracket {rest : List Char} {op : Operand}
    (h : IsWritten ('[' :: rest) op) : rest.getLast? = some ']' := by
  generalize hs : '[' :: rest = s at h
  cases h with
  | register known =>
    rw [← hs, not_isRegisterName_bracket] at known
    cases known
  | immediate other literal fits =>
    exact absurd hs.symm literal.ne_bracket
  | indirect known =>
    obtain ⟨-, rfl⟩ := List.cons.inj hs
    exact List.getLast?_concat
  | direct other literal fits =>
    obtain ⟨-, rfl⟩ := List.cons.inj hs
    exact List.getLast?_concat

/-! ### Reading an operand -/

theorem map_readNumber_eq_ok_iff {text : List Char} (ends : EndsUnblank text)
    (made : Int → Operand) {op : Operand} :
    (readNumber text).map (fun w => made w.toNat) = .ok op ↔
      IsNumber text made op ∧ Numeral.IsShort text := by
  have value (v : Int) : ((BitVec.ofInt 16 v).toNat : Int) = v % 65536 :=
    (toNat_ofInt_eq_mask 16 v).trans (mask_eq_emod 16 v)
  constructor
  · intro h
    cases hn : Numeral.read text with
    | error failure =>
      rw [readNumber, hn] at h
      cases h
    | ok w =>
      rw [readNumber, hn] at h
      obtain rfl := Except.ok.inj h
      obtain ⟨short, v, literal, fits, rfl⟩ := (Numeral.read_eq_ok_iff ends).mp hn
      exact ⟨⟨v, literal, fits, by rw [← value]⟩, short⟩
  · rintro ⟨⟨v, literal, fits, rfl⟩, short⟩
    rw [readNumber, (Numeral.read_eq_ok_iff ends).mpr ⟨short, v, literal, fits, rfl⟩, ← value]
    rfl

theorem readPlace_eq_ok_iff {text : List Char} (ends : EndsUnblank text) {op : Operand} :
    readPlace text = .ok op ↔
      (if isRegisterName (String.ofList text) = true then op = .indirect (String.ofList text)
        else IsNumber text direct op) ∧ Numeral.IsShort text := by
  unfold readPlace
  by_cases empty : text = []
  · subst empty
    rw [if_pos List.isEmpty_nil, if_neg (by rw [not_isRegisterName_nil]; decide)]
    simp only [reduceCtorEq, false_iff, not_and]
    exact fun number => absurd rfl number.ne_nil
  · rw [if_neg (by simpa using empty)]
    split
    · rename_i known
      simp [eq_comm, isShort_of_isRegisterName known]
    · exact map_readNumber_eq_ok_iff ends direct

/-- A trimmed text is read as an operand just if it is written as one and is not too long. -/
theorem read_eq_ok_iff {text : List Char} (ends : EndsUnblank text) {op : Operand} :
    read text = .ok op ↔ IsWritten text op ∧ Numeral.IsShort (literal text) := by
  by_cases bracket : ∃ rest, text = '[' :: rest
  · obtain ⟨rest, rfl⟩ := bracket
    rw [read, literal]
    split
    · rename_i closed
      obtain ⟨inner, rfl⟩ := List.getLast?_eq_some_iff.mp closed
      rw [List.dropLast_concat, isWritten_bracket_iff]
      exact readPlace_eq_ok_iff (endsUnblank_trim inner)
    · rename_i unclosed
      simp only [reduceCtorEq, false_iff, not_and]
      exact fun written => absurd written.getLast?_of_bracket unclosed
  · have outside : ∀ rest, text ≠ '[' :: rest := fun rest same => bracket ⟨rest, same⟩
    rw [isWritten_plain_iff outside, literal.eq_2 _ outside]
    by_cases empty : text = []
    · subst empty
      rw [if_neg (by rw [not_isRegisterName_nil]; decide)]
      simp only [read, reduceCtorEq, false_iff, not_and]
      exact fun number => absurd rfl number.ne_nil
    · rw [read.eq_3 text empty outside]
      split
      · rename_i known
        simp [eq_comm, isShort_of_isRegisterName known]
      · exact map_readNumber_eq_ok_iff ends fun v => .immediate v (String.ofList text)

end Operand

theorem Operand.not_isWritten_nil {op : Operand} : ¬IsWritten [] op := by
  rw [isWritten_plain_iff (by simp), if_neg (by rw [not_isRegisterName_nil]; decide)]
  exact fun number => number.ne_nil rfl

namespace Operands

/-- The text behind a mnemonic and the operands that it stands for: none if it is blank, else one or,
with a comma between them, two. -/
inductive IsWritten : List Char → Operands → Prop
  | none {rest : List Char} (blank : ∀ c ∈ rest, isBlank c = true) : IsWritten rest .none
  | one {field : List Char} {op : Operand} (whole : ',' ∉ field)
      (only : Operand.IsWritten (trim field) op) : IsWritten field (.one op)
  | two {left right : List Char} {x y : Operand} (wholeLeft : ',' ∉ left) (wholeRight : ',' ∉ right)
      (first : Operand.IsWritten (trim left) x) (second : Operand.IsWritten (trim right) y) :
      IsWritten (left ++ ',' :: right) (.two x y)

theorem splitOn_comma_one {field : List Char} (whole : ',' ∉ field) :
    field.splitOn ',' = [field] := by
  rw [splitOn_eq_iff (by simp)]
  simpa [List.intercalate] using whole

theorem splitOn_comma_two {left right : List Char} (wholeLeft : ',' ∉ left)
    (wholeRight : ',' ∉ right) : (left ++ ',' :: right).splitOn ',' = [left, right] := by
  rw [splitOn_eq_iff (by simp)]
  simp [List.intercalate, wholeLeft, wholeRight]

/-- Blanks in front of the operands do not matter. -/
theorem IsWritten.trimStart {rest : List Char} {ops : Operands} (h : IsWritten rest ops) :
    IsWritten (Text.trimStart rest) ops := by
  have sub (s : List Char) : ',' ∉ s → ',' ∉ Text.trimStart s := fun whole inside =>
    whole ((List.dropWhile_sublist _).subset inside)
  cases h with
  | none blank => exact .none fun c hc => blank c ((List.dropWhile_sublist _).subset hc)
  | one whole only => exact .one (sub _ whole) (by rwa [trim_trimStart])
  | two wholeLeft wholeRight first second =>
    rw [trimStart_append_cons (by decide)]
    exact .two (sub _ wholeLeft) wholeRight (by rwa [trim_trimStart]) second

end Operands

/-! ## Lines -/

namespace Instruction

/-- A capital letter and then capital letters and digits. -/
def IsMnemonic (s : List Char) : Prop :=
  ∃ c rest, s = c :: rest ∧ isCapital c = true ∧ ∀ d ∈ rest, isMnemonicChar d = true

/-- A line, trimmed and in capitals, with the mnemonic and the operands that it stands for. No line feed
may follow the blanks behind the mnemonic. -/
inductive IsWritten : List Char → String → Operands → Prop
  | bare {mnemonic : List Char} (name : IsMnemonic mnemonic) :
      IsWritten mnemonic (String.ofList mnemonic) .none
  | apart {mnemonic blanks rest : List Char} {ops : Operands} (name : IsMnemonic mnemonic)
      (separated : blanks ≠ []) (blank : ∀ c ∈ blanks, isBlank c = true) (unbroken : '\n' ∉ rest)
      (operands : Operands.IsWritten rest ops) :
      IsWritten (mnemonic ++ (blanks ++ rest)) (String.ofList mnemonic) ops

theorem not_isMnemonicChar {c : Char} (blank : isBlank c = true) : isMnemonicChar c = false := by
  rw [Bool.eq_false_iff]
  intro h
  have code : (48 ≤ c.toNat ∧ c.toNat ≤ 57) ∨ (65 ≤ c.toNat ∧ c.toNat ≤ 90) := by
    simpa [isMnemonicChar, isCapital, Numeral.isDecimal, Char.le_def, UInt32.le_iff_toNat_le,
      or_comm] using h
  simp only [Text.isBlank, Bool.or_eq_true, Bool.and_eq_true, decide_eq_true_eq, beq_iff_eq] at blank
  omega

theorem split?_bare {mnemonic : List Char} (name : IsMnemonic mnemonic) :
    split? mnemonic = some (mnemonic, []) := by
  obtain ⟨c, rest, rfl, capital, others⟩ := name
  have taken : rest.takeWhile isMnemonicChar = rest := List.takeWhile_eq_self_iff.mpr others
  have left : rest.dropWhile isMnemonicChar = [] := List.dropWhile_eq_nil_iff.mpr others
  simp [split?, capital, taken, left, trimStart]

/-- The mnemonic ends at the first blank, and all blanks behind it are passed over. -/
theorem split?_apart {mnemonic blanks rest : List Char} (name : IsMnemonic mnemonic)
    (separated : blanks ≠ []) (blank : ∀ c ∈ blanks, isBlank c = true) (unbroken : '\n' ∉ rest) :
    split? (mnemonic ++ (blanks ++ rest)) = some (mnemonic, trimStart rest) := by
  obtain ⟨c, others, rfl, capital, letters⟩ := name
  obtain ⟨b, more, rfl⟩ := List.exists_cons_of_ne_nil separated
  have stop : isMnemonicChar b = false := not_isMnemonicChar (blank b List.mem_cons_self)
  have taken : (others ++ (b :: more ++ rest)).takeWhile isMnemonicChar = others := by
    rw [List.takeWhile_append_of_pos letters, List.cons_append,
      List.takeWhile_cons_of_neg (by simp [stop]), List.append_nil]
  have left : (others ++ (b :: more ++ rest)).dropWhile isMnemonicChar = b :: more ++ rest := by
    rw [List.dropWhile_append_of_pos letters, List.cons_append,
      List.dropWhile_cons_of_neg (by simp [stop])]
  have passed : trimStart (b :: more ++ rest) = trimStart rest :=
    List.dropWhile_append_of_pos blank
  have shorter : (trimStart rest).length ≤ rest.length := (List.dropWhile_sublist _).length_le
  have lengths : (b :: more ++ rest).length ≠ (trimStart rest).length := by
    simp only [List.length_append, List.length_cons]
    omega
  have whole : '\n' ∉ trimStart rest := fun inside =>
    unbroken ((List.dropWhile_sublist _).subset inside)
  rw [List.cons_append, split?, if_pos capital]
  simp only [taken, left, passed]
  rw [if_pos]
  simp only [decide_eq_true lengths, Bool.or_true, Bool.true_and]
  simpa using whole

/-- What is found to be the mnemonic and the text behind it, put together with the blanks in between,
is the line. -/
theorem parts_of_split? {s mnemonic rest : List Char} (h : split? s = some (mnemonic, rest)) :
    IsMnemonic mnemonic ∧ (s = mnemonic ∧ rest = [] ∨
      ∃ blanks, blanks ≠ [] ∧ (∀ c ∈ blanks, isBlank c = true) ∧ '\n' ∉ rest ∧
        s = mnemonic ++ (blanks ++ rest)) := by
  rcases s with _ | ⟨c, r⟩
  · cases h
  rw [split?] at h
  split at h
  · rename_i capital
    dsimp only at h
    split at h
    · rename_i separated
      obtain ⟨rfl, rfl⟩ := Prod.mk.inj (Option.some.inj h)
      have letters : ∀ d ∈ r.takeWhile isMnemonicChar, isMnemonicChar d = true :=
        List.all_eq_true.mp List.all_takeWhile
      refine ⟨⟨c, _, rfl, capital, letters⟩, ?_⟩
      have whole := List.takeWhile_append_dropWhile (p := isMnemonicChar) (l := r)
      generalize r.takeWhile isMnemonicChar = front at whole letters
      generalize r.dropWhile isMnemonicChar = after at whole separated
      subst whole
      rw [Bool.and_eq_true, Bool.or_eq_true] at separated
      obtain ⟨ends, unbroken⟩ := separated
      by_cases empty : after = []
      · left
        subst empty
        exact ⟨by simp, rfl⟩
      · right
        have passed := List.takeWhile_append_dropWhile (p := isBlank) (l := after)
        refine ⟨after.takeWhile isBlank, ?_, List.all_eq_true.mp List.all_takeWhile, ?_, ?_⟩
        · intro joined
          rw [joined, List.nil_append] at passed
          rw [trimStart, passed] at ends
          simp [empty] at ends
        · simpa using unbroken
        · rw [trimStart, passed, List.cons_append]
    · cases h
  · cases h

end Instruction

end BusCycle
