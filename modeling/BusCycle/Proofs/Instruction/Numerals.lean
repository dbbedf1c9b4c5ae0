-- What number literals denote, told from the digits to the text: a number is written by its digits in
-- base ten or sixteen, in one of three ways, and the reader finds the number that was written. No text
-- is written in two ways, so it does not matter in which order the reader tries them.
import BusCycle.Proofs.Instruction.Grammar
import BusCycle.Proofs.Text.Hexadecimal
import Mathlib.Data.List.Induction
import Mathlib.Data.Nat.Digits.Defs

namespace BusCycle

open Text

namespace Numeral

/-! ## Digits -/

/-- The digits of base ten, and of base sixteen. -/
def isDigitOf (base : Nat) : Char → Bool := if base = 10 then isDecimal else isHex

theorem isHex_of_isDigitOf {base : Nat} {c : Char} (h : isDigitOf base c = true) :
    isHex c = true := by
  unfold isDigitOf at h
  split at h
  · simp [isHex, h]
  · exact h

/-- The digits in the order of what they are worth. -/
def digitTable : List Char :=
  ['0', '1', '2', '3', '4', '5', '6', '7', '8', '9', 'A', 'B', 'C', 'D', 'E', 'F']

/-- The digit that is worth so much. -/
def digit (d : Nat) : Char := digitTable.getD d '0'

theorem digit_lt_ten : ∀ d < 10, isDecimal (digit d) = true := by
  decide

theorem digit_lt_sixteen : ∀ d < 16, isHex (digit d) = true ∧ digitValue (digit d) = d := by
  decide

theorem digit_digitValue_ofNat : ∀ n < 128, isHex (Char.ofNat n) = true →
    digit (digitValue (Char.ofNat n)) = Char.ofNat n ∧ digitValue (Char.ofNat n) < 16 ∧
      (isDecimal (Char.ofNat n) = true → digitValue (Char.ofNat n) < 10) := by
  decide

/-- Every digit that is read is one of the table. -/
theorem digit_digitValue {c : Char} (h : isHex c = true) :
    digit (digitValue c) = c ∧ digitValue c < 16 ∧ (isDecimal c = true → digitValue c < 10) := by
  have code : (48 ≤ c.toNat ∧ c.toNat ≤ 57) ∨ (65 ≤ c.toNat ∧ c.toNat ≤ 70) := by
    simpa [isHex, isDecimal, Char.le_def, UInt32.le_iff_toNat_le] using h
  have known := digit_digitValue_ofNat c.toNat (by omega)
  rw [Char.ofNat_toNat] at known
  exact known h

/-- Reading digits from the left gives the sum of what they are worth in their places. -/
theorem valueOf_map_digit (base : Nat) {ds : List Nat} (small : ∀ d ∈ ds, d < 16) :
    valueOf base (ds.map digit) = Nat.ofDigits base ds.reverse := by
  induction ds using List.reverseRecOn with
  | nil => rfl
  | append_singleton ds d ih =>
    have last : digitValue (digit d) = d := (digit_lt_sixteen d (small d (by simp))).2
    have front := ih fun e he => small e (by simp [he])
    rw [List.map_append, List.map_singleton, valueOf_append_singleton, front, last,
      List.reverse_append, List.reverse_singleton, List.singleton_append, Nat.ofDigits_cons]
    exact Nat.add_comm _ _

/-! ## Three ways to write a number -/

/-- The ways: decimal digits, or hexadecimal digits that are suffixed with `H` or marked with `0X`. -/
inductive Writing
  | decimal
  | suffixed
  | marked
  deriving DecidableEq, Repr

namespace Writing

def base : Writing → Nat
  | decimal => 10
  | suffixed | marked => 16

/-- The text of digits in a way. -/
def text : Writing → List Nat → List Char
  | decimal, ds => ds.map digit
  | suffixed, ds => ds.map digit ++ ['H']
  | marked, ds => '0' :: 'X' :: ds.map digit

/-- A text is a number in a way: the number of its digits, the last of which counts ones. -/
def Writes (w : Writing) (s : List Char) (n : Nat) : Prop :=
  ∃ ds : List Nat, ds ≠ [] ∧ (∀ d ∈ ds, d < w.base) ∧ s = w.text ds ∧
    n = Nat.ofDigits w.base ds.reverse

theorem base_cases (w : Writing) : w.base = 10 ∨ w.base = 16 := by
  cases w <;> decide

theorem isDigitOf_digit (w : Writing) {d : Nat} (h : d < w.base) :
    isDigitOf w.base (digit d) = true := by
  cases w with
  | decimal => exact digit_lt_ten d h
  | suffixed => exact (digit_lt_sixteen d h).1
  | marked => exact (digit_lt_sixteen d h).1

theorem digitValue_lt (w : Writing) {c : Char} (h : isDigitOf w.base c = true) :
    digitValue c < w.base := by
  have known := digit_digitValue (isHex_of_isDigitOf h)
  cases w with
  | decimal => exact known.2.2 h
  | suffixed => exact known.2.1
  | marked => exact known.2.1

/-- A text of digits is that of the numbers that they are worth. -/
theorem allDigits_iff (w : Writing) {s : List Char} :
    allDigits (isDigitOf w.base) s = true ↔
      ∃ ds : List Nat, ds ≠ [] ∧ (∀ d ∈ ds, d < w.base) ∧ s = ds.map digit := by
  unfold allDigits
  rw [Bool.and_eq_true, List.all_eq_true]
  constructor
  · rintro ⟨filled, each⟩
    refine ⟨s.map digitValue, by simpa using filled, ?_, ?_⟩
    · intro d hd
      obtain ⟨c, hc, rfl⟩ := List.mem_map.mp hd
      exact w.digitValue_lt (each c hc)
    · have same : ∀ c ∈ s, (digit ∘ digitValue) c = id c := fun c hc =>
        (digit_digitValue (isHex_of_isDigitOf (each c hc))).1
      rw [List.map_map, List.map_congr_left same, List.map_id]
  · rintro ⟨ds, filled, small, rfl⟩
    refine ⟨by simpa using filled, ?_⟩
    intro c hc
    obtain ⟨d, hd, rfl⟩ := List.mem_map.mp hc
    exact w.isDigitOf_digit (small d hd)

theorem valueOf_digits (w : Writing) {ds : List Nat} (small : ∀ d ∈ ds, d < w.base) :
    valueOf w.base (ds.map digit) = Nat.ofDigits w.base ds.reverse := by
  apply valueOf_map_digit
  intro d hd
  have := small d hd
  rcases w.base_cases with ten | sixteen <;> omega

/-- The texts that are read as unsigned literals are those of numbers in one of the three ways. -/
theorem isUnsigned_iff {s : List Char} {n : Nat} :
    IsUnsigned s n ↔ ∃ w : Writing, w.Writes s n := by
  constructor
  · intro h
    cases h with
    | marked all =>
      obtain ⟨ds, filled, small, rfl⟩ := marked.allDigits_iff.mp all
      exact ⟨marked, ds, filled, small, rfl, marked.valueOf_digits small⟩
    | suffixed all =>
      obtain ⟨ds, filled, small, rfl⟩ := suffixed.allDigits_iff.mp all
      exact ⟨suffixed, ds, filled, small, rfl, suffixed.valueOf_digits small⟩
    | decimal all =>
      obtain ⟨ds, filled, small, rfl⟩ := decimal.allDigits_iff.mp all
      exact ⟨decimal, ds, filled, small, rfl, decimal.valueOf_digits small⟩
  · rintro ⟨w, ds, filled, small, rfl, rfl⟩
    rw [← w.valueOf_digits small]
    have all : allDigits (isDigitOf w.base) (ds.map digit) = true :=
      w.allDigits_iff.mpr ⟨ds, filled, small, rfl⟩
    cases w with
    | decimal => exact .decimal all
    | suffixed => exact .suffixed all
    | marked => exact .marked all

/-- A text of digits has no mark in it and no suffix. -/
theorem isHex_of_mem_digits {w : Writing} {ds : List Nat} (small : ∀ d ∈ ds, d < w.base)
    {c : Char} (hc : c ∈ ds.map digit) : isHex c = true := by
  obtain ⟨d, hd, rfl⟩ := List.mem_map.mp hc
  exact isHex_of_isDigitOf (w.isDigitOf_digit (small d hd))

/-- The way shows in the text: only a marked one has an `X`, and only a suffixed one has an `H`. -/
theorem mem_of_writes {w : Writing} {s : List Char} {n : Nat} (h : w.Writes s n) :
    ('X' ∈ s ↔ w = marked) ∧ ('H' ∈ s ↔ w = suffixed) := by
  obtain ⟨ds, -, small, rfl, -⟩ := h
  have noX : 'X' ∉ ds.map digit := fun hc => Bool.noConfusion (isHex_of_mem_digits small hc)
  have noH : 'H' ∉ ds.map digit := fun hc => Bool.noConfusion (isHex_of_mem_digits small hc)
  cases w <;> simp [text, noX, noH]

/-- No text is a number in two ways. -/
theorem eq_of_writes {w w' : Writing} {s : List Char} {n n' : Nat} (h : w.Writes s n)
    (h' : w'.Writes s n') : w = w' := by
  have one := mem_of_writes h
  have other := mem_of_writes h'
  cases w with
  | marked => exact (other.1.mp (one.1.mpr rfl)).symm
  | suffixed => exact (other.2.mp (one.2.mpr rfl)).symm
  | decimal =>
    cases w' with
    | marked => exact one.1.mp (other.1.mpr rfl)
    | suffixed => exact one.2.mp (other.2.mpr rfl)
    | decimal => rfl

/-- Zeros in front of the digits change the text and not the number. -/
theorem writes_zeros (w : Writing) (k : Nat) {ds : List Nat} (filled : ds ≠ [])
    (small : ∀ d ∈ ds, d < w.base) :
    w.Writes (w.text (List.replicate k 0 ++ ds)) (Nat.ofDigits w.base ds.reverse) := by
  have positive : 0 < w.base := by
    rcases w.base_cases with ten | sixteen <;> omega
  refine ⟨List.replicate k 0 ++ ds, by simp [filled], ?_, rfl, ?_⟩
  · intro d hd
    rcases List.mem_append.mp hd with zero | digit
    · rw [(List.mem_replicate.mp zero).2]
      exact positive
    · exact small d digit
  · rw [List.reverse_append, List.reverse_replicate, Nat.ofDigits_append_replicate_zero]

end Writing

/-! ## What a literal denotes -/

/-- A text and the number that it denotes: a number in one of the three ways, or a minus sign and such
a number with blanks around it. -/
inductive Denotes : List Char → Int → Prop
  | positive {w : Writing} {s : List Char} {n : Nat} (number : w.Writes s n) : Denotes s n
  | negative {w : Writing} {front s back : List Char} {n : Nat} (number : w.Writes s n)
      (before : ∀ c ∈ front, isBlank c = true) (after : ∀ c ∈ back, isBlank c = true) :
      Denotes ('-' :: (front ++ s ++ back)) (-n)

theorem denotes_minus_iff {rest : List Char} {v : Int} :
    Denotes ('-' :: rest) v ↔ ∃ n : Nat, v = -n ∧ IsUnsigned (trim rest) n := by
  constructor
  · intro h
    generalize hs : '-' :: rest = s at h
    cases h with
    | positive number =>
      exact absurd rfl ((Writing.isUnsigned_iff.mpr ⟨_, number⟩).head_ne hs.symm).1
    | @negative w front digits back n number before after =>
      obtain ⟨-, rfl⟩ := List.cons.inj hs
      have unsigned := Writing.isUnsigned_iff.mpr ⟨w, number⟩
      refine ⟨n, rfl, ?_⟩
      rw [trim_between before unsigned.isBlank after]
      exact unsigned
  · rintro ⟨n, rfl, unsigned⟩
    obtain ⟨w, number⟩ := Writing.isUnsigned_iff.mp unsigned
    obtain ⟨front, back, before, after, parts⟩ := exists_trim rest
    rw [parts]
    exact .negative number before after

theorem denotes_iff {text : List Char} (positive : ∀ rest, text ≠ '-' :: rest) {v : Int} :
    Denotes text v ↔ ∃ n : Nat, v = n ∧ IsUnsigned text n := by
  constructor
  · intro h
    cases h with
    | positive number => exact ⟨_, rfl, Writing.isUnsigned_iff.mpr ⟨_, number⟩⟩
    | negative number before after => exact absurd rfl (positive _)
  · rintro ⟨n, rfl, unsigned⟩
    obtain ⟨w, number⟩ := Writing.isUnsigned_iff.mp unsigned
    exact .positive number

/-- Behind a literal of the grammar there are no blanks, and apart from that it is the same. -/
theorem denotes_iff_isLiteral {text : List Char} (ends : EndsUnblank text) {v : Int} :
    Denotes text v ↔ IsLiteral text v := by
  by_cases negative : ∃ rest, text = '-' :: rest
  · obtain ⟨rest, rfl⟩ := negative
    rw [denotes_minus_iff, isLiteral_minus_iff ends.of_cons]
  · have positive : ∀ rest, text ≠ '-' :: rest := fun rest same => negative ⟨rest, same⟩
    rw [denotes_iff positive, isLiteral_iff positive]

/-- A text denotes one number at most. -/
theorem eq_of_denotes {text : List Char} {v v' : Int} (h : Denotes text v) (h' : Denotes text v') :
    v = v' := by
  have same {s : List Char} {n n' : Nat} (h : IsUnsigned s n) (h' : IsUnsigned s n') : n = n' := by
    rw [← unsigned?_eq_some_iff] at h h'
    exact Option.some.inj (h.symm.trans h')
  by_cases negative : ∃ rest, text = '-' :: rest
  · obtain ⟨rest, rfl⟩ := negative
    obtain ⟨n, rfl, unsigned⟩ := denotes_minus_iff.mp h
    obtain ⟨n', rfl, unsigned'⟩ := denotes_minus_iff.mp h'
    rw [same unsigned unsigned']
  · have positive : ∀ rest, text ≠ '-' :: rest := fun rest same => negative ⟨rest, same⟩
    obtain ⟨n, rfl, unsigned⟩ := (denotes_iff positive).mp h
    obtain ⟨n', rfl, unsigned'⟩ := (denotes_iff positive).mp h'
    rw [same unsigned unsigned']

/-! ## Reading what is denoted -/

theorem readUnsigned_of_short {text digits : List Char} (short : isOverlong digits = false)
    (signed : Nat → Int) :
    readUnsigned text digits signed = match unsigned? digits with
      | some n => fit text (signed n)
      | none => .error (.fault (.malformed (String.ofList text))) := by
  unfold readUnsigned
  exact if_neg (by simp [short])

theorem read_of_denotes {text : List Char} (ends : text.getLast? ≠ some '\n')
    (short : IsShort text) {v : Int} (h : Denotes text v) : read text = fit text v := by
  rw [isShort_iff] at short
  by_cases negative : ∃ rest, text = '-' :: rest
  · obtain ⟨rest, rfl⟩ := negative
    obtain ⟨n, rfl, number⟩ := denotes_minus_iff.mp h
    rw [unsigned] at short
    rw [read_negative, readUnsigned_of_short short, unsigned?_eq_some_iff.mpr number]
  · have positive : ∀ rest, text ≠ '-' :: rest := fun rest same => negative ⟨rest, same⟩
    obtain ⟨n, rfl, number⟩ := (denotes_iff positive).mp h
    rw [unsigned.eq_2 text positive] at short
    rw [read_positive positive ends, readUnsigned_of_short short,
      unsigned?_eq_some_iff.mpr number]

theorem read_of_not_denotes {text : List Char} (ends : text.getLast? ≠ some '\n')
    (short : IsShort text) (h : ∀ v, ¬Denotes text v) :
    read text = .error (.fault (.malformed (String.ofList text))) := by
  rw [isShort_iff] at short
  by_cases negative : ∃ rest, text = '-' :: rest
  · obtain ⟨rest, rfl⟩ := negative
    have nothing : unsigned? (trim rest) = none := by
      rw [Option.eq_none_iff_forall_ne_some]
      intro n found
      exact h (-n) (denotes_minus_iff.mpr ⟨n, rfl, unsigned?_eq_some_iff.mp found⟩)
    rw [unsigned] at short
    rw [read_negative, readUnsigned_of_short short, nothing]
  · have positive : ∀ rest, text ≠ '-' :: rest := fun rest same => negative ⟨rest, same⟩
    have nothing : unsigned? text = none := by
      rw [Option.eq_none_iff_forall_ne_some]
      intro n found
      exact h n ((denotes_iff positive).mpr ⟨n, rfl, unsigned?_eq_some_iff.mp found⟩)
    rw [unsigned.eq_2 text positive] at short
    rw [read_positive positive ends, readUnsigned_of_short short, nothing]

/-- A number that fits a word, unsigned or with its sign. -/
def InRange (v : Int) : Prop := -0x8000 ≤ v ∧ v ≤ 0xFFFF

instance (v : Int) : Decidable (InRange v) := inferInstanceAs (Decidable (_ ∧ _))

theorem fit_of_inRange {text : List Char} {v : Int} (h : InRange v) :
    fit text v = .ok (BitVec.ofInt 16 v) := by
  unfold fit
  exact if_pos h

theorem fit_of_not_inRange {text : List Char} {v : Int} (h : ¬InRange v) :
    fit text v = .error (.fault (.outOfRange (String.ofList text))) := by
  unfold fit
  exact if_neg h

/-- A text is read by what it denotes. The word that is read is the number modulo the words. A number
that fits no word is out of range, and a text that denotes no number is malformed. -/
structure ReadByMeaning (text : List Char) : Prop where
  accepted : ∀ w, read text = .ok w ↔
    ∃ v, Denotes text v ∧ InRange v ∧ (w.toNat : Int) = v % 0x10000
  outOfRange : ∀ v, Denotes text v → ¬InRange v →
    read text = .error (.fault (.outOfRange (String.ofList text)))
  malformed : (∀ v, ¬Denotes text v) →
    read text = .error (.fault (.malformed (String.ofList text)))

theorem toNat_eq_iff {w : Word} {v : Int} : (w.toNat : Int) = v % 0x10000 ↔ w = BitVec.ofInt 16 v := by
  have value : ((BitVec.ofInt 16 v).toNat : Int) = v % 0x10000 :=
    (toNat_ofInt_eq_mask 16 v).trans (mask_eq_emod 16 v)
  rw [← value, Int.natCast_inj, BitVec.toNat_inj]

theorem readByMeaning {text : List Char} (ends : text.getLast? ≠ some '\n')
    (short : IsShort text) : ReadByMeaning text := by
  refine { accepted := ?accepted, outOfRange := ?outOfRange, malformed := ?malformed }
  case accepted =>
    intro w
    by_cases denotes : ∃ v, Denotes text v
    · obtain ⟨v, meant⟩ := denotes
      rw [read_of_denotes ends short meant]
      by_cases fits : InRange v
      · rw [fit_of_inRange fits, Except.ok.injEq]
        constructor
        · rintro rfl
          exact ⟨v, meant, fits, toNat_eq_iff.mpr rfl⟩
        · rintro ⟨v', meant', -, value⟩
          rw [eq_of_denotes meant meant']
          exact (toNat_eq_iff.mp value).symm
      · rw [fit_of_not_inRange fits]
        simp only [reduceCtorEq, false_iff]
        rintro ⟨v', meant', fits', -⟩
        exact fits (eq_of_denotes meant meant' ▸ fits')
    · rw [read_of_not_denotes ends short fun v meant => denotes ⟨v, meant⟩]
      simp only [reduceCtorEq, false_iff]
      rintro ⟨v, meant, -⟩
      exact denotes ⟨v, meant⟩
  case outOfRange =>
    intro v meant beyond
    rw [read_of_denotes ends short meant, fit_of_not_inRange beyond]
  case malformed =>
    intro nothing
    exact read_of_not_denotes ends short nothing

theorem read_of_inRange {text : List Char} (ends : text.getLast? ≠ some '\n')
    (short : IsShort text) {v : Int} (meant : Denotes text v) (fits : InRange v) :
    read text = .ok (BitVec.ofInt 16 v) := by
  rw [read_of_denotes ends short meant, fit_of_inRange fits]

/-- Literals mean what they say. A text is read by the number that it denotes. It denotes one number at
most, since no two of the three ways to write one have a text in common, and zeros in front of its
digits do not matter. Two texts that denote the same number are read as the same word. -/
theorem literals_mean_what_they_say :
    (∀ text : List Char, text.getLast? ≠ some '\n' → IsShort text → ReadByMeaning text) ∧
    (∀ (w w' : Writing) (s : List Char) (n n' : Nat), w.Writes s n → w'.Writes s n' →
      w = w' ∧ n = n') ∧
    (∀ (text : List Char) (v v' : Int), Denotes text v → Denotes text v' → v = v') ∧
    (∀ (w : Writing) (k : Nat) (ds : List Nat), ds ≠ [] → (∀ d ∈ ds, d < w.base) →
      w.Writes (w.text (List.replicate k 0 ++ ds)) (Nat.ofDigits w.base ds.reverse)) ∧
    (∀ (s t : List Char) (v : Int), s.getLast? ≠ some '\n' → t.getLast? ≠ some '\n' →
      IsShort s → IsShort t → Denotes s v → Denotes t v → InRange v →
      ∃ w : Word, read s = .ok w ∧ read t = .ok w) := by
  refine ⟨fun text ends short => readByMeaning ends short, ?disjoint, ?functional, ?zeros, ?same⟩
  case disjoint =>
    intro w w' s n n' h h'
    have meaning := eq_of_denotes (.positive h) (.positive h')
    exact ⟨Writing.eq_of_writes h h', Int.natCast_inj.mp meaning⟩
  case functional =>
    intro text v v' h h'
    exact eq_of_denotes h h'
  case zeros =>
    intro w k ds filled small
    exact w.writes_zeros k filled small
  case same =>
    intro s t v endsS endsT shortS shortT meantS meantT fits
    refine ⟨BitVec.ofInt 16 v, ?_, ?_⟩
    · exact read_of_inRange endsS shortS meantS fits
    · exact read_of_inRange endsT shortT meantT fits

/-- Minus ten, in hexadecimal digits and in decimal digits with zeros and blanks in front of them. -/
theorem minusTen_two_ways : Denotes "-0AH".toList (-10) ∧ Denotes "-\t 0010 ".toList (-10) ∧
    read "-0AH".toList = .ok 0xFFF6 ∧ read "-\t 0010 ".toList = .ok 0xFFF6 := by
  obtain ⟨reading, -, -, zeros, -⟩ := literals_mean_what_they_say
  have hex : Writing.suffixed.Writes "0AH".toList 10 :=
    zeros .suffixed 1 [10] (by decide) (by decide)
  have decimal : Writing.decimal.Writes "0010".toList 10 :=
    zeros .decimal 2 [1, 0] (by decide) (by decide)
  have first : Denotes ('-' :: ([] ++ "0AH".toList ++ [])) (-10) :=
    .negative hex (by simp) (by simp)
  have second : Denotes ('-' :: ("\t ".toList ++ "0010".toList ++ " ".toList)) (-10) :=
    .negative decimal (List.all_eq_true.mp (by decide)) (List.all_eq_true.mp (by decide))
  have readFirst := (reading "-0AH".toList (by decide) (by decide)).accepted 0xFFF6
  have readSecond := (reading "-\t 0010 ".toList (by decide) (by decide)).accepted 0xFFF6
  refine ⟨first, second, ?_, ?_⟩
  · exact readFirst.mpr ⟨-10, first, by decide, by decide⟩
  · exact readSecond.mpr ⟨-10, second, by decide, by decide⟩

end Numeral

end BusCycle
