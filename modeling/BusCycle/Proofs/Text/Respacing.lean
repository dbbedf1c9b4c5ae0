-- Texts that differ only in how wide their blanks are. Every run of blanks is made one space, and what is
-- left tells such texts apart from all others. Making the runs one space goes along with trimming and
-- with cuts at other characters, and joining the words of a trimmed text is just that.
import BusCycle.Proofs.Text.Trimming

namespace BusCycle.Text

/-! ## Runs of blanks made one space -/

/-- The text with a single space for every run of blanks. -/
def collapse : List Char → List Char
  | [] => []
  | c :: r => if isBlank c then ' ' :: trimStart (collapse r) else c :: collapse r

@[simp] theorem collapse_nil : collapse [] = [] := rfl

theorem collapse_cons {c : Char} (h : isBlank c = false) (s : List Char) :
    collapse (c :: s) = c :: collapse s := by
  rw [collapse, if_neg (by simp [h])]

theorem collapse_blank {c : Char} (h : isBlank c = true) (s : List Char) :
    collapse (c :: s) = ' ' :: trimStart (collapse s) := by
  rw [collapse, if_pos h]

/-- All that is left is of the text, or a space. -/
theorem mem_collapse {s : List Char} {c : Char} (h : c ∈ collapse s) : c ∈ s ∨ c = ' ' := by
  induction s with
  | nil => cases h
  | cons d s ih =>
    by_cases blank : isBlank d = true
    · rw [collapse_blank blank] at h
      rcases List.mem_cons.mp h with rfl | h
      · exact Or.inr rfl
      · rcases ih ((List.dropWhile_sublist _).subset h) with inside | space
        · exact Or.inl (List.mem_cons_of_mem _ inside)
        · exact Or.inr space
    · rw [collapse_cons (Bool.eq_false_iff.mpr blank)] at h
      rcases List.mem_cons.mp h with rfl | h
      · exact Or.inl List.mem_cons_self
      · rcases ih h with inside | space
        · exact Or.inl (List.mem_cons_of_mem _ inside)
        · exact Or.inr space

theorem collapse_of_blank {s : List Char} (h : ∀ c ∈ s, isBlank c = true) :
    ∀ c ∈ collapse s, isBlank c = true := by
  intro c hc
  rcases mem_collapse hc with inside | rfl
  · exact h c inside
  · decide

/-- A cut at a character that is no blank. -/
theorem collapse_append_cons {c : Char} (h : isBlank c = false) (s t : List Char) :
    collapse (s ++ c :: t) = collapse s ++ c :: collapse t := by
  induction s with
  | nil => exact collapse_cons h t
  | cons d s ih =>
    rw [List.cons_append]
    by_cases blank : isBlank d = true
    · -- What the blank takes away behind it ends at the cut at the latest.
      rw [collapse_blank blank, collapse_blank blank, ih, trimStart_append_cons h]
      rfl
    · have visible : isBlank d = false := Bool.eq_false_iff.mpr blank
      rw [collapse_cons visible, collapse_cons visible, ih]
      rfl

/-- What has no blanks stands as it is in front of the rest. -/
theorem collapse_append_of_all {s : List Char} (h : ∀ c ∈ s, isBlank c = false) (t : List Char) :
    collapse (s ++ t) = s ++ collapse t := by
  induction s with
  | nil => rfl
  | cons c s ih =>
    rw [List.cons_append, collapse_cons (h c List.mem_cons_self),
      ih fun d hd => h d (List.mem_cons_of_mem _ hd), List.cons_append]

theorem collapse_of_all {s : List Char} (h : ∀ c ∈ s, isBlank c = false) : collapse s = s := by
  have := collapse_append_of_all h []
  rwa [collapse_nil, List.append_nil] at this

/-- What is no blank is left, and no such character comes in. -/
theorem mem_collapse_iff {s : List Char} {c : Char} (visible : isBlank c = false) :
    c ∈ collapse s ↔ c ∈ s := by
  constructor
  · intro h
    rcases mem_collapse h with inside | rfl
    · exact inside
    · exact absurd visible (by decide)
  · intro h
    obtain ⟨front, back, rfl⟩ := List.append_of_mem h
    rw [collapse_append_cons visible]
    simp

/-! ### Trimming -/

theorem collapse_trimStart (s : List Char) : collapse (trimStart s) = trimStart (collapse s) := by
  induction s with
  | nil => rfl
  | cons c s ih =>
    by_cases blank : isBlank c = true
    · rw [trimStart_blank blank, ih, collapse_blank blank, trimStart_blank (by decide),
        trimStart_trimStart]
    · have visible : isBlank c = false := Bool.eq_false_iff.mpr blank
      rw [trimStart_cons visible, collapse_cons visible, trimStart_cons visible]

theorem EndsUnblank.collapse {s : List Char} (h : EndsUnblank s) :
    EndsUnblank (Text.collapse s) := by
  rcases List.eq_nil_or_concat s with rfl | ⟨front, c, rfl⟩
  · exact h
  · rw [List.concat_eq_append] at h ⊢
    have last : isBlank c = false := h c List.getLast?_concat
    rw [collapse_append_cons last]
    exact endsUnblank_concat last _

theorem collapse_trimEnd (s : List Char) : collapse (trimEnd s) = trimEnd (collapse s) := by
  rcases all_blank_or_last s with blank | ⟨front, c, back, visible, blank, rfl⟩
  · rw [trimEnd_of_blank blank, trimEnd_of_blank (collapse_of_blank blank)]
    rfl
  · rw [trimEnd_append_cons visible blank, collapse_append_cons visible,
      collapse_append_cons visible, trimEnd_append_cons visible (collapse_of_blank blank)]
    rfl

theorem collapse_trim (s : List Char) : collapse (trim s) = trim (collapse s) := by
  rw [trim, trim, collapse_trimEnd, collapse_trimStart]

theorem collapse_collapse (s : List Char) : collapse (collapse s) = collapse s := by
  induction s with
  | nil => rfl
  | cons c s ih =>
    by_cases blank : isBlank c = true
    · rw [collapse_blank blank, collapse_blank (by decide), collapse_trimStart, ih,
        trimStart_trimStart]
    · have visible : isBlank c = false := Bool.eq_false_iff.mpr blank
      rw [collapse_cons visible, collapse_cons visible, ih]

/-! ## Words with single spaces between them -/

/-- Before a blank a character ends a word. -/
theorem words_cons_blank {c d : Char} (visible : isBlank c = false) (blank : isBlank d = true)
    (s : List Char) : words (c :: d :: s) = [c] :: words s := by
  have cut := List.splitOnP_append_cons (p := isBlank) [c] s blank
  have one : words [c] = [[c]] := by
    simp [words, List.splitOnP_cons_eq_if_modifyHead, visible]
  unfold words at one ⊢
  rw [← List.singleton_append, cut, List.filter_append, one]
  rfl

/-- Before another character it is of the same word. -/
theorem words_cons_visible {c d : Char} (first : isBlank c = false) (second : isBlank d = false)
    (s : List Char) :
    ∃ w rest, words (d :: s) = w :: rest ∧ words (c :: d :: s) = (c :: w) :: rest := by
  obtain ⟨piece, rest, pieces⟩ := List.exists_cons_of_ne_nil (List.splitOnP_ne_nil isBlank s)
  refine ⟨d :: piece, rest.filter fun w => !w.isEmpty, ?_, ?_⟩
  · simp [words, List.splitOnP_cons_eq_if_modifyHead, second, pieces]
  · simp [words, List.splitOnP_cons_eq_if_modifyHead, first, second, pieces]

/-- A blank is not the last character of a text that ends in none, so a word follows. -/
theorem words_ne_nil_of_blank {d : Char} {s : List Char} (blank : isBlank d = true)
    (ends : EndsUnblank (d :: s)) : words s ≠ [] := by
  rw [ne_eq, ← List.isEmpty_iff, isEmpty_words, List.all_eq_true]
  intro every
  have all : ∀ c ∈ d :: s, isBlank c = true := by simpa [blank] using every
  have nothing := trimEnd_of_blank all
  rw [ends.trimEnd] at nothing
  cases nothing

/-- The words of a text that ends in no blank, with single spaces between them, are the text with a
single space for every run of blanks. -/
theorem intercalate_words {s : List Char} (ends : EndsUnblank s) :
    [' '].intercalate (words s) = collapse (trimStart s) := by
  induction s with
  | nil => rfl
  | cons c s ih =>
    have later := ih ends.of_cons
    by_cases blank : isBlank c = true
    · rw [words_cons c s blank, later, trimStart_blank blank]
    have visible : isBlank c = false := Bool.eq_false_iff.mpr blank
    rw [trimStart_cons visible, collapse_cons visible]
    rcases s with _ | ⟨d, s⟩
    · simp [words, List.splitOnP_cons_eq_if_modifyHead, visible]
    by_cases next : isBlank d = true
    · have filled := words_ne_nil_of_blank next ends.of_cons
      rw [words_cons d s next, trimStart_blank next, collapse_trimStart] at later
      rw [words_cons_blank visible next, List.intercalate_cons_of_ne_nil filled, later,
        collapse_blank next]
      rfl
    · have second : isBlank d = false := Bool.eq_false_iff.mpr next
      obtain ⟨w, rest, words_s, words_cs⟩ := words_cons_visible visible second s
      rw [trimStart_cons second, words_s] at later
      rw [words_cs, ← later]
      rcases rest with _ | ⟨v, rest⟩
      · simp
      · rw [List.intercalate_cons_cons, List.intercalate_cons_cons]
        rfl

/-! ## Texts that differ in their blanks -/

/-- Two texts that are the same once every run of blanks is one space. -/
def Respaced (s t : List Char) : Prop := collapse s = collapse t

namespace Respaced

variable {s t : List Char}

theorem symm (h : Respaced s t) : Respaced t s := Eq.symm h

theorem trimStart (h : Respaced s t) : Respaced (Text.trimStart s) (Text.trimStart t) := by
  unfold Respaced at *
  rw [collapse_trimStart, collapse_trimStart, h]

theorem trim (h : Respaced s t) : Respaced (Text.trim s) (Text.trim t) := by
  unfold Respaced at *
  rw [collapse_trim, collapse_trim, h]

/-- A first character that is no blank is the same. -/
theorem of_cons {c : Char} {u : List Char} (visible : isBlank c = false)
    (h : Respaced (c :: s) u) : ∃ v, u = c :: v ∧ Respaced s v := by
  unfold Respaced at h
  rw [collapse_cons visible] at h
  rcases u with _ | ⟨d, u⟩
  · cases h
  by_cases blank : isBlank d = true
  · rw [collapse_blank blank] at h
    rw [(List.cons.inj h).1] at visible
    exact absurd visible (by decide)
  · rw [collapse_cons (Bool.eq_false_iff.mpr blank)] at h
    obtain ⟨rfl, rest⟩ := List.cons.inj h
    exact ⟨u, rfl, rest⟩

/-- A first blank is a blank again. -/
theorem of_blank {c : Char} {u : List Char} (blank : isBlank c = true)
    (h : Respaced (c :: s) u) : ∃ d v, u = d :: v ∧ isBlank d = true := by
  rcases u with _ | ⟨d, u⟩
  · unfold Respaced at h
    rw [collapse_blank blank] at h
    cases h
  by_cases visible : isBlank d = false
  · obtain ⟨v, same, -⟩ := of_cons visible h.symm
    rw [(List.cons.inj same).1, visible] at blank
    cases blank
  · exact ⟨d, u, rfl, by simpa using visible⟩

/-- What stands before the first blank is the same. -/
theorem of_append {u : List Char} (visible : ∀ c ∈ s, isBlank c = false)
    (h : Respaced (s ++ t) u) : ∃ v, u = s ++ v ∧ Respaced t v := by
  induction s generalizing u with
  | nil => exact ⟨u, rfl, h⟩
  | cons c s ih =>
    obtain ⟨w, rfl, rest⟩ := of_cons (visible c List.mem_cons_self) h
    obtain ⟨v, rfl, behind⟩ := ih (fun d hd => visible d (List.mem_cons_of_mem _ hd)) rest
    exact ⟨v, rfl, behind⟩

/-- A text without blanks differs from no other in this way. -/
theorem eq_of_all (h : Respaced s t) (visible : ∀ c ∈ s, isBlank c = false) : s = t := by
  rw [← List.append_nil s] at h
  obtain ⟨u, rfl, nothing⟩ := of_append visible h
  rcases u with _ | ⟨c, u⟩
  · rw [List.append_nil]
  by_cases blank : isBlank c = true
  · obtain ⟨d, v, empty, -⟩ := of_blank blank nothing.symm
    cases empty
  · obtain ⟨v, empty, -⟩ := of_cons (Bool.eq_false_iff.mpr blank) nothing.symm
    cases empty

/-- A text that ends in a character that is no blank ends in it however wide its blanks are. -/
theorem of_concat {c : Char} (visible : isBlank c = false) (h : Respaced (s ++ [c]) t)
    (ends : EndsUnblank t) : ∃ u, t = u ++ [c] ∧ Respaced s u := by
  unfold Respaced at h
  rw [collapse_append_cons visible] at h
  rcases List.eq_nil_or_concat t with rfl | ⟨front, d, rfl⟩
  · simp at h
  · rw [List.concat_eq_append] at ends h ⊢
    have last : isBlank d = false := ends d List.getLast?_concat
    rw [collapse_append_cons last] at h
    obtain ⟨front_eq, one⟩ := List.append_inj' h rfl
    obtain rfl : c = d := by simpa using one
    exact ⟨front, rfl, front_eq⟩

/-- A text that has a character only once, which is no blank, is cut there however wide its blanks
are. -/
theorem of_append_cons {c : Char} (visible : isBlank c = false) {u : List Char}
    (h : Respaced (s ++ c :: t) u) (left : c ∉ s) (right : c ∉ t) :
    ∃ s' t', u = s' ++ c :: t' ∧ Respaced s s' ∧ Respaced t t' := by
  have mem : c ∈ u := by
    rw [← mem_collapse_iff visible, ← h, mem_collapse_iff visible]
    simp
  obtain ⟨s', t', rfl⟩ := List.append_of_mem mem
  have cut : collapse s ++ c :: collapse t = collapse s' ++ c :: collapse t' := by
    rw [← collapse_append_cons visible, ← collapse_append_cons visible]
    exact h
  have left' : c ∉ collapse s := fun inside => left ((mem_collapse_iff visible).mp inside)
  have right' : c ∉ collapse t := fun inside => right ((mem_collapse_iff visible).mp inside)
  obtain ⟨front, -, back⟩ := (List.append_cons_inj_of_notMem left' right').mp cut
  exact ⟨s', t', rfl, front, back⟩

theorem not_mem {c : Char} (visible : isBlank c = false) (h : Respaced s t) (outside : c ∉ s) :
    c ∉ t := by
  rwa [← mem_collapse_iff visible, ← h, mem_collapse_iff visible]

end Respaced

end BusCycle.Text
