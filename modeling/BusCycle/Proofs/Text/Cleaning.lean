-- What cleaning leaves of a text: nothing of a line that is blank up to its comment, and something of
-- every other line. Capitals are the delicate part, because some letters have none, some two or three,
-- and the table of them could have led into the blanks.
import BusCycle.Program

namespace BusCycle

namespace Text

/-! ## Blanks -/

/-- The code points of the blanks, as runs from the first to the last. -/
def blankRuns : List (Nat × Nat) :=
  [(0x09, 0x0D), (0x1C, 0x20), (0x85, 0x85), (0xA0, 0xA0), (0x1680, 0x1680), (0x2000, 0x200A),
    (0x2028, 0x2029), (0x202F, 0x202F), (0x205F, 0x205F), (0x3000, 0x3000)]

/-- The code point of a blank. -/
def IsBlankCode (n : Nat) : Prop := ∃ b ∈ blankRuns, b.1 ≤ n ∧ n ≤ b.2

instance (n : Nat) : Decidable (IsBlankCode n) := inferInstanceAs (Decidable (∃ b ∈ _, _))

theorem isBlank_iff (c : Char) : isBlank c = true ↔ IsBlankCode c.toNat := by
  simp only [isBlank, IsBlankCode, blankRuns, Bool.or_eq_true, Bool.and_eq_true, decide_eq_true_eq,
    beq_iff_eq, List.mem_cons, List.not_mem_nil, or_false, exists_eq_or_imp, exists_eq_left]
  omega

/-- A number makes the character of that number. One that is no code point makes a zero. -/
theorem toNat_ofNat_cases (n : Nat) : (Char.ofNat n).toNat = n ∨ (Char.ofNat n).toNat = 0 := by
  by_cases valid : n.isValidChar
  · have made : Char.ofNat n = Char.ofNatAux n valid := dif_pos valid
    rw [made]
    exact Or.inl rfl
  · have made : Char.ofNat n = '\x00' := dif_neg valid
    rw [made]
    exact Or.inr rfl

/-- A number that is no blank makes no blank character. -/
theorem not_isBlank_ofNat {n : Nat} (h : ¬IsBlankCode n) : isBlank (Char.ofNat n) = false := by
  rw [Bool.eq_false_iff, Ne, isBlank_iff]
  rcases toNat_ofNat_cases n with same | zero
  · rw [same]
    exact h
  · rw [zero]
    decide

/-! ## Capitals -/

/-- No run of letters meets a run of blanks, and neither do their capitals. -/
theorem caseRuns_no_blank : ∀ r ∈ caseRuns, ∀ b ∈ blankRuns,
    (r.last < b.1 ∨ b.2 < r.first) ∧
      ((r.last : Int) + r.shift < b.1 ∨ (b.2 : Int) < r.first + r.shift) := by
  decide +kernel

/-- No letter with a longer capital is a blank, and that capital has no blank in it. -/
theorem expandedCapitals_no_blank : ∀ p ∈ expandedCapitals,
    ¬IsBlankCode p.1 ∧ p.2 ≠ [] ∧ ∀ n ∈ p.2, ¬IsBlankCode n := by
  decide +kernel

theorem not_isBlankCode_of_covers {r : CaseRun} {n : Nat} (mem : r ∈ caseRuns)
    (covered : r.covers n = true) : ¬IsBlankCode n ∧ ¬IsBlankCode ((n : Int) + r.shift).toNat := by
  simp only [CaseRun.covers, Bool.and_eq_true, decide_eq_true_eq] at covered
  obtain ⟨⟨first, last⟩, -⟩ := covered
  constructor
  · rintro ⟨b, blank, low, high⟩
    have apart := (caseRuns_no_blank r mem b blank).1
    omega
  · rintro ⟨b, blank, low, high⟩
    have apart := (caseRuns_no_blank r mem b blank).2
    have positive : ∀ b ∈ blankRuns, 0 < b.1 := by decide
    have := positive b blank
    omega

/-- A character is a blank if its capital has a blank in it, and its capital is itself then. -/
theorem capital_cases (c : Char) :
    (isBlank c = true ∧ capital c = [c]) ∨
      (isBlank c = false ∧ capital c ≠ [] ∧ ∀ d ∈ capital c, isBlank d = false) := by
  unfold capital
  split
  · rename_i codes found
    obtain ⟨before, after, table, -⟩ := List.lookup_eq_some_iff.mp found
    obtain ⟨lead, filled, codes_no_blank⟩ :=
      expandedCapitals_no_blank (c.toNat, codes) (table ▸ List.mem_append_cons_self)
    refine Or.inr ⟨?_, by simpa using filled, ?_⟩
    · rw [Bool.eq_false_iff, Ne, isBlank_iff]
      exact lead
    · intro d hd
      obtain ⟨n, hn, rfl⟩ := List.mem_map.mp hd
      exact not_isBlank_ofNat (codes_no_blank n hn)
  · split
    · rename_i r found
      have covered : r.covers c.toNat = true := by simpa using List.find?_some found
      obtain ⟨lead, shifted⟩ :=
        not_isBlankCode_of_covers (List.mem_of_find?_eq_some found) covered
      refine Or.inr ⟨?_, List.cons_ne_nil _ _, ?_⟩
      · rw [Bool.eq_false_iff, Ne, isBlank_iff]
        exact lead
      · intro d hd
        rw [List.mem_singleton.mp hd]
        exact not_isBlank_ofNat shifted
    · rcases blank : isBlank c with _ | _
      · refine Or.inr ⟨rfl, List.cons_ne_nil _ _, ?_⟩
        intro d hd
        rw [List.mem_singleton.mp hd]
        exact blank
      · exact Or.inl ⟨rfl, rfl⟩

/-- Capitals neither bring blanks nor take them away. -/
theorem all_isBlank_upper (s : List Char) : (upper s).all isBlank = s.all isBlank := by
  induction s with
  | nil => rfl
  | cons c s ih =>
    rw [upper, List.flatMap_cons, List.all_append, List.all_cons, ← ih, upper]
    congr 1
    rcases capital_cases c with ⟨blank, same⟩ | ⟨other, filled, no_blank⟩
    · rw [same, blank]
      simp [blank]
    · obtain ⟨d, hd⟩ := List.exists_mem_of_ne_nil _ filled
      rw [other, List.all_eq_false]
      exact ⟨d, hd, by simp [no_blank d hd]⟩

/-! ## Trimming and words -/

theorem all_dropWhile (p : Char → Bool) (s : List Char) : (s.dropWhile p).all p = s.all p := by
  induction s with
  | nil => rfl
  | cons c s ih =>
    rw [List.dropWhile_cons]
    split
    · rename_i drop
      rw [ih, List.all_cons, drop, Bool.true_and]
    · rfl

theorem all_isBlank_trim (s : List Char) : (trim s).all isBlank = s.all isBlank := by
  rw [trim, trimEnd, List.all_reverse, all_dropWhile, List.all_reverse, trimStart, all_dropWhile]

/-- Every word has a character in it. -/
theorem ne_nil_of_mem_words {s w : List Char} (h : w ∈ words s) : w ≠ [] := by
  rw [words, List.mem_filter] at h
  simpa using h.2

theorem words_cons (c : Char) (s : List Char) (blank : isBlank c = true) :
    words (c :: s) = words s := by
  rw [words, List.splitOnP_cons_eq_if_modifyHead, if_pos blank]
  rfl

/-- There is no word in a text of blanks, and a word in every other. -/
theorem isEmpty_words (s : List Char) : (words s).isEmpty = s.all isBlank := by
  induction s with
  | nil => rfl
  | cons c s ih =>
    rcases blank : isBlank c with _ | _
    · rw [words, List.splitOnP_cons_eq_if_modifyHead, blank, List.all_cons, blank]
      -- The first piece has `c` in it, so it is a word.
      obtain ⟨piece, rest, pieces⟩ := List.exists_cons_of_ne_nil (List.splitOnP_ne_nil isBlank s)
      simp [pieces]
    · rw [words_cons c s blank, ih, List.all_cons, blank, Bool.true_and]

end Text

/-! ## Lines without an instruction -/

namespace Program

open Text

/-- A line that is blank up to a semicolon. -/
def IsUnused (line : List Char) : Prop := ∀ c ∈ upTo ';' line, isBlank c = true

theorem intercalate_words_eq_nil_iff (s : List Char) :
    [' '].intercalate (words s) = [] ↔ words s = [] := by
  rcases cut : words s with _ | ⟨w, rest⟩
  · simp
  · have first : w ≠ [] := ne_nil_of_mem_words (cut ▸ List.mem_cons_self)
    cases rest with
    | nil => simpa [List.intercalate] using first
    | cons v rest => simp [List.intercalate, first]

theorem cleanLine_eq_nil_iff (line : List Char) : cleanLine line = [] ↔ IsUnused line := by
  rw [cleanLine, intercalate_words_eq_nil_iff, ← List.isEmpty_iff, isEmpty_words,
    all_isBlank_upper, all_isBlank_trim, List.all_eq_true, IsUnused]

/-- Nothing remains of a text exactly if none of its lines has more than blanks and a comment. -/
theorem clean_eq_nil_iff (text : String) :
    clean text = [] ↔ ∀ line ∈ lines text.toList, IsUnused line := by
  rw [clean, List.map_eq_nil_iff, List.filter_eq_nil_iff]
  simp only [List.mem_map, forall_exists_index, and_imp, forall_apply_eq_imp_iff₂,
    Bool.not_eq_true', Bool.not_eq_false, List.isEmpty_iff, cleanLine_eq_nil_iff]

end Program

end BusCycle
