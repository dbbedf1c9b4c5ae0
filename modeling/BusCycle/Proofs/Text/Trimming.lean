-- Trimmed texts and texts in pieces, told by how they are put together: blanks at the ends of a text that
-- go when it is trimmed, and pieces with a mark between each two.
import BusCycle.Proofs.Text.Unbroken
import Mathlib.Data.List.TakeWhile

namespace BusCycle

/-! ## Texts that end in no blank -/

namespace Text

/-- A text whose last character, if it has one, is no blank. -/
def EndsUnblank (s : List Char) : Prop := ∀ c, s.getLast? = some c → isBlank c = false

theorem EndsUnblank.of_cons {c : Char} {s : List Char} (h : EndsUnblank (c :: s)) :
    EndsUnblank s := by
  intro d hd
  apply h
  rw [List.getLast?_cons, hd, Option.getD_some]

theorem EndsUnblank.getLast?_ne {s : List Char} (h : EndsUnblank s) : s.getLast? ≠ some '\n' := by
  intro last
  have : isBlank '\n' = false := h '\n' last
  revert this
  decide

theorem EndsUnblank.trimEnd {s : List Char} (h : EndsUnblank s) : Text.trimEnd s = s := by
  unfold Text.trimEnd
  rcases List.eq_nil_or_concat s with rfl | ⟨front, c, rfl⟩
  · rfl
  · rw [List.concat_eq_append] at h ⊢
    have last : isBlank c = false := h c List.getLast?_concat
    rw [List.reverse_append, List.reverse_singleton, List.singleton_append,
      List.dropWhile_cons_of_neg (by rw [last]; decide), List.reverse_cons, List.reverse_reverse]

theorem EndsUnblank.trimStart {s : List Char} (h : EndsUnblank s) :
    EndsUnblank (Text.trimStart s) := by
  intro c hc
  unfold Text.trimStart at hc
  apply h
  rw [← List.takeWhile_append_dropWhile (p := isBlank) (l := s), List.getLast?_append, hc]
  rfl

theorem EndsUnblank.append {s t : List Char} (h : EndsUnblank t) (filled : t ≠ []) :
    EndsUnblank (s ++ t) := by
  intro c hc
  rw [List.getLast?_append_of_ne_nil s filled] at hc
  exact h c hc

theorem isBlank_of_mem_space : ∀ c ∈ [' '], isBlank c = true :=
  List.all_eq_true.mp (by decide)

/-- Blanks in front are trimmed away. -/
theorem trim_append_of_blank {blanks : List Char} (blank : ∀ c ∈ blanks, isBlank c = true)
    (s : List Char) : trim (blanks ++ s) = trim s := by
  rw [trim, trimStart, List.dropWhile_append_of_pos blank]
  rfl

theorem trim_trimStart (s : List Char) : trim (trimStart s) = trim s := by
  have blank : ∀ c ∈ s.takeWhile isBlank, isBlank c = true :=
    List.all_eq_true.mp List.all_takeWhile
  rw [← trim_append_of_blank blank, trimStart, List.takeWhile_append_dropWhile]

theorem trim_eq_nil_iff (s : List Char) : trim s = [] ↔ ∀ c ∈ s, isBlank c = true := by
  constructor
  · intro h
    have := all_isBlank_trim s
    rw [h] at this
    exact List.all_eq_true.mp this.symm
  · intro h
    rw [← List.append_nil s, trim_append_of_blank h]
    rfl

/-- A character that is no blank stops the trimming. -/
theorem trimStart_append_cons {c : Char} (h : isBlank c = false) (s t : List Char) :
    trimStart (s ++ c :: t) = trimStart s ++ c :: t := by
  unfold trimStart
  rw [List.dropWhile_append]
  split
  · rename_i nothing
    rw [List.isEmpty_iff.mp nothing, List.dropWhile_cons_of_neg (by rw [h]; decide)]
    rfl
  · rfl

/-- The pieces between marks: they hold no mark, and with marks between them they are the text. -/
theorem splitOn_eq_iff {mark : Char} {s : List Char} {pieces : List (List Char)} (filled : pieces ≠ []) :
    s.splitOn mark = pieces ↔ s = [mark].intercalate pieces ∧ ∀ piece ∈ pieces, mark ∉ piece := by
  constructor
  · rintro rfl
    refine ⟨(List.intercalate_splitOn mark).symm, ?_⟩
    intro piece hp inside
    have := (mem_of_mem_splitOnP (p := (· == mark)) hp inside).2
    simp at this
  · rintro ⟨rfl, apart⟩
    exact List.splitOn_intercalate mark apart filled

end Text

/-! ## Blanks on both sides -/

namespace Text

theorem trimEnd_append_of_blank {blanks : List Char} (blank : ∀ c ∈ blanks, isBlank c = true)
    (s : List Char) : trimEnd (s ++ blanks) = trimEnd s := by
  unfold trimEnd
  rw [List.reverse_append, List.dropWhile_append_of_pos]
  intro c hc
  exact blank c (List.mem_reverse.mp hc)

theorem endsUnblank_of_all {s : List Char} (h : ∀ c ∈ s, isBlank c = false) : EndsUnblank s := by
  intro c last
  exact h c (List.mem_of_getLast? last)

theorem trimStart_cons {c : Char} (h : isBlank c = false) (s : List Char) :
    trimStart (c :: s) = c :: s := by
  unfold trimStart
  rw [List.dropWhile_cons_of_neg (by simp [h])]

theorem trimStart_blank {c : Char} (h : isBlank c = true) (s : List Char) :
    trimStart (c :: s) = trimStart s := by
  unfold trimStart
  rw [List.dropWhile_cons_of_pos h]

theorem trimEnd_cons {c : Char} (h : isBlank c = false) (s : List Char) :
    trimEnd (c :: s) = c :: trimEnd s := by
  have last := trimStart_append_cons h s.reverse []
  unfold trimStart at last
  unfold trimEnd
  rw [List.reverse_cons, last, List.reverse_append, List.reverse_singleton, List.singleton_append]

/-- A text without blanks is what trimming leaves of it with blanks on both sides. -/
theorem trim_between {front s back : List Char} (before : ∀ c ∈ front, isBlank c = true)
    (inside : ∀ c ∈ s, isBlank c = false) (after : ∀ c ∈ back, isBlank c = true) :
    trim (front ++ s ++ back) = s := by
  rw [List.append_assoc, trim_append_of_blank before]
  rcases s with _ | ⟨c, s⟩
  · rw [List.nil_append]
    exact (trim_eq_nil_iff back).mpr after
  · have first : isBlank c = false := inside c List.mem_cons_self
    rw [trim, List.cons_append, trimStart_cons first, ← List.cons_append,
      trimEnd_append_of_blank after, (endsUnblank_of_all inside).trimEnd]

/-- What is left of a text without the blanks in front is nothing, or starts with no blank. -/
theorem trimStart_cases (s : List Char) :
    trimStart s = [] ∨ ∃ c r, isBlank c = false ∧ trimStart s = c :: r := by
  induction s with
  | nil => exact Or.inl rfl
  | cons c s ih =>
    by_cases blank : isBlank c = true
    · rw [trimStart_blank blank]
      exact ih
    · have kept : isBlank c = false := Bool.eq_false_iff.mpr blank
      exact Or.inr ⟨c, s, kept, trimStart_cons kept s⟩

theorem trimStart_trimStart (s : List Char) : trimStart (trimStart s) = trimStart s := by
  rcases trimStart_cases s with nothing | ⟨c, r, first, starts⟩
  · rw [nothing]
    rfl
  · rw [starts, trimStart_cons first]

@[simp] theorem trimStart_trim (s : List Char) : trimStart (trim s) = trim s := by
  rcases trimStart_cases s with nothing | ⟨c, r, first, starts⟩
  · rw [trim, nothing]
    rfl
  · rw [trim, starts, trimEnd_cons first, trimStart_cons first]

theorem trimEnd_of_blank {s : List Char} (h : ∀ c ∈ s, isBlank c = true) : trimEnd s = [] := by
  unfold trimEnd
  rw [List.reverse_eq_nil_iff, List.dropWhile_eq_nil_iff]
  intro c hc
  exact h c (List.mem_reverse.mp hc)

theorem endsUnblank_concat {c : Char} (h : isBlank c = false) (s : List Char) :
    EndsUnblank (s ++ [c]) := by
  intro d hd
  rw [List.getLast?_concat] at hd
  rw [← Option.some.inj hd]
  exact h

/-- The last character that is no blank ends what is left of a text. -/
theorem trimEnd_append_cons {c : Char} (h : isBlank c = false) {blanks : List Char}
    (blank : ∀ d ∈ blanks, isBlank d = true) (s : List Char) :
    trimEnd (s ++ c :: blanks) = s ++ [c] := by
  rw [List.append_cons, trimEnd_append_of_blank blank, (endsUnblank_concat h s).trimEnd]

/-- A text is blank, or it has a last character that is no blank. -/
theorem all_blank_or_last (s : List Char) : (∀ c ∈ s, isBlank c = true) ∨
    ∃ front c back, isBlank c = false ∧ (∀ d ∈ back, isBlank d = true) ∧
      s = front ++ c :: back := by
  induction s with
  | nil => exact Or.inl (by simp)
  | cons c s ih =>
    rcases ih with blank | ⟨front, d, back, visible, blank, rfl⟩
    · by_cases first : isBlank c = true
      · exact Or.inl (by simpa [first] using blank)
      · exact Or.inr ⟨[], c, s, Bool.eq_false_iff.mpr first, blank, rfl⟩
    · exact Or.inr ⟨c :: front, d, back, visible, blank, rfl⟩

/-- What trimming takes away are blanks on both sides. -/
theorem exists_trim (s : List Char) : ∃ front back, (∀ c ∈ front, isBlank c = true) ∧
    (∀ c ∈ back, isBlank c = true) ∧ s = front ++ trim s ++ back := by
  refine ⟨s.takeWhile isBlank, ((trimStart s).reverse.takeWhile isBlank).reverse, ?_, ?_, ?_⟩
  · exact List.all_eq_true.mp List.all_takeWhile
  · intro c hc
    exact List.all_eq_true.mp List.all_takeWhile c (List.mem_reverse.mp hc)
  · have ends : trim s ++ ((trimStart s).reverse.takeWhile isBlank).reverse = trimStart s := by
      rw [trim, trimEnd, ← List.reverse_append, List.takeWhile_append_dropWhile,
        List.reverse_reverse]
    rw [List.append_assoc, ends]
    exact (List.takeWhile_append_dropWhile).symm

end Text

end BusCycle
