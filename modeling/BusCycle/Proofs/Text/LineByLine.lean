-- Cleaning goes line by line, and what it leaves it leaves again. A text cut at a line feed is cleaned in
-- two parts, even where the line feed is the second half of a line break. The lines that are left are
-- told without the cleaning, and they are just those that it does not change.
import BusCycle.Proofs.Instruction.Cleanup

namespace BusCycle

namespace Text

/-! ## Lines on both sides of a line feed -/

/-- A carriage return that no line feed follows is like any other character. -/
theorem lines_cons {c : Char} {s : List Char} (apart : ∀ r, c = '\r' → s ≠ '\n' :: r) :
    lines (c :: s) = if isLineBreak c then [] :: lines s else consLine c (lines s) := by
  rw [lines.eq_3]
  rintro r rfl same
  exact apart r rfl same

theorem lines_ne_nil {s : List Char} (filled : s ≠ []) : lines s ≠ [] := by
  fun_cases lines s with
  | case1 => exact absurd rfl filled
  | case2 | case3 => exact List.cons_ne_nil _ _
  | case4 c r =>
    unfold consLine
    split <;> exact List.cons_ne_nil _ _

theorem consLine_append {c : Char} {ls : List (List Char)} (filled : ls ≠ [])
    (more : List (List Char)) : consLine c (ls ++ more) = consLine c ls ++ more := by
  obtain ⟨l, rest, rfl⟩ := List.exists_cons_of_ne_nil filled
  rfl

/-- A text cut at a line feed has the lines of its two parts. Between them there is at most one empty
line, which is there if the first part ends with a whole line break or has nothing in it. -/
theorem lines_append_feed (s t : List Char) :
    ∃ gap, (gap = [] ∨ gap = [[]]) ∧ lines (s ++ '\n' :: t) = lines s ++ gap ++ lines t := by
  fun_induction lines s with
  | case1 => exact ⟨[[]], Or.inr rfl, rfl⟩
  | case2 r ih =>
    obtain ⟨gap, small, cut⟩ := ih
    have whole : lines ('\r' :: '\n' :: r ++ '\n' :: t) = [] :: lines (r ++ '\n' :: t) := rfl
    refine ⟨gap, small, ?_⟩
    rw [whole, cut]
    rfl
  | case3 c r apart breaks ih =>
    by_cases half : c = '\r' ∧ r = []
    · -- The line feed is the second half of a line break that the first part begins.
      obtain ⟨rfl, rfl⟩ := half
      exact ⟨[], Or.inl rfl, rfl⟩
    · obtain ⟨gap, small, cut⟩ := ih
      have whole : lines (c :: (r ++ '\n' :: t)) = [] :: lines (r ++ '\n' :: t) := by
        rw [lines_cons, if_pos breaks]
        intro u carriage same
        rcases r with _ | ⟨d, r⟩
        · exact half ⟨carriage, rfl⟩
        · rw [List.cons_append] at same
          exact apart r carriage (by rw [(List.cons.inj same).1])
      refine ⟨gap, small, ?_⟩
      rw [List.cons_append, whole, cut]
      rfl
  | case4 c r apart inside ih =>
    have whole (u : List Char) : lines (c :: u) = consLine c (lines u) := by
      rw [lines_cons, if_neg inside]
      rintro _ rfl
      exact absurd (by decide) inside
    rw [List.cons_append, whole]
    by_cases last : r = []
    · rw [last]
      exact ⟨[], Or.inl rfl, rfl⟩
    · obtain ⟨gap, small, cut⟩ := ih
      refine ⟨gap, small, ?_⟩
      rw [cut, List.append_assoc, consLine_append (lines_ne_nil last), List.append_assoc]

/-! ## Marks in capitals -/

/-- No capital lies before the letter `A`. -/
theorem first_capitals : (∀ r ∈ caseRuns, (65 : Int) ≤ r.first + r.shift) ∧
    ∀ p ∈ expandedCapitals, ∀ n ∈ p.2, 65 ≤ n := by
  decide +kernel

/-- A mark or a digit comes into capitals from nothing but itself. -/
theorem eq_of_mem_capital {c d : Char} (h : d ∈ capital c) (nonzero : d.toNat ≠ 0)
    (low : d.toNat < 65) : d = c := by
  unfold capital at h
  split at h
  · rename_i codes found
    obtain ⟨before, after, table, -⟩ := List.lookup_eq_some_iff.mp found
    have listed : (c.toNat, codes) ∈ expandedCapitals := table ▸ List.mem_append_cons_self
    obtain ⟨n, hn, rfl⟩ := List.mem_map.mp h
    have high := first_capitals.2 _ listed n hn
    have made := toNat_ofNat_cases n
    omega
  · split at h
    · rename_i r found
      have mem := List.mem_of_find?_eq_some found
      have covered : r.covers c.toNat = true := by simpa using List.find?_some found
      simp only [CaseRun.covers, Bool.and_eq_true, decide_eq_true_eq] at covered
      rw [List.mem_singleton] at h
      subst h
      have high := first_capitals.1 r mem
      have made := toNat_ofNat_cases (c.toNat + r.shift).toNat
      omega
    · exact List.mem_singleton.mp h

theorem mem_of_mem_upper {s : List Char} {d : Char} (h : d ∈ upper s) (nonzero : d.toNat ≠ 0)
    (low : d.toNat < 65) : d ∈ s := by
  obtain ⟨c, hc, hd⟩ := List.mem_flatMap.mp h
  rw [eq_of_mem_capital hd nonzero low]
  exact hc

/-! ## Single spaces -/

/-- A text with no blanks but single spaces inside it: every blank is a space and stands between two
characters that are no blanks. -/
def SinglySpaced (s : List Char) : Prop :=
  ∀ front c back, s = front ++ c :: back → isBlank c = true →
    c = ' ' ∧ (∃ d ∈ front.getLast?, isBlank d = false) ∧ ∃ d ∈ back.head?, isBlank d = false

/-- Where no blank is wider than a space, none is in the rest of the text. -/
theorem collapse_of_append {s t : List Char} (h : collapse (s ++ t) = s ++ t) : collapse t = t := by
  induction s with
  | nil => exact h
  | cons c s ih =>
    apply ih
    rw [List.cons_append] at h
    by_cases blank : isBlank c = true
    · rw [collapse_blank blank] at h
      obtain ⟨-, rest⟩ := List.cons.inj h
      rw [← rest, collapse_trimStart, collapse_collapse]
    · rw [collapse_cons (Bool.eq_false_iff.mpr blank)] at h
      exact (List.cons.inj h).2

theorem trimStart_of_collapse {c : Char} {s : List Char} (blank : isBlank c = true)
    (h : collapse (c :: s) = c :: s) : c = ' ' ∧ trimStart s = s := by
  rw [collapse_blank blank] at h
  obtain ⟨rfl, rest⟩ := List.cons.inj h
  refine ⟨rfl, ?_⟩
  rw [← rest, trimStart_trimStart]

theorem head?_of_trimStart {s : List Char} (filled : s ≠ []) (h : trimStart s = s) :
    ∃ d ∈ s.head?, isBlank d = false := by
  rcases trimStart_cases s with nothing | ⟨d, r, visible, starts⟩
  · exact absurd (h.symm.trans nothing) filled
  · rw [← h, starts]
    exact ⟨d, rfl, visible⟩

/-- A blank does not come first where nothing is to be trimmed away. -/
theorem not_isBlank_of_trimStart {c : Char} {s : List Char} (h : trimStart (c :: s) = c :: s) :
    isBlank c = false := by
  obtain ⟨d, first, visible⟩ := head?_of_trimStart (List.cons_ne_nil _ _) h
  rw [Option.some.inj first]
  exact visible

theorem singlySpaced_of_collapse {s : List Char} (trimmed : trim s = s) (spaced : collapse s = s) :
    SinglySpaced s := by
  rintro front c back rfl blank
  have starts : trimStart (front ++ c :: back) = front ++ c :: back := by
    rw [← trimmed, trimStart_trim]
  have ends : trimEnd (front ++ c :: back) = front ++ c :: back :=
    (congrArg trimEnd starts).symm.trans trimmed
  obtain ⟨space, next⟩ := trimStart_of_collapse blank (collapse_of_append spaced)
  refine ⟨space, ?before, head?_of_trimStart ?behind next⟩
  case before =>
    rcases List.eq_nil_or_concat front with rfl | ⟨before, d, rfl⟩
    · rw [not_isBlank_of_trimStart starts] at blank
      cases blank
    · rw [List.concat_eq_append] at spaced ⊢
      refine ⟨d, List.getLast?_concat, Bool.eq_false_iff.mpr fun double => ?_⟩
      rw [List.append_assoc, List.singleton_append] at spaced
      obtain ⟨-, first⟩ := trimStart_of_collapse double (collapse_of_append spaced)
      rw [not_isBlank_of_trimStart first] at blank
      cases blank
  case behind =>
    rintro rfl
    have shorter : (trimEnd front).length ≤ front.length := by
      unfold trimEnd
      rw [List.length_reverse]
      exact (List.dropWhile_sublist _).length_le.trans List.length_reverse.le
    rw [trimEnd_append_of_blank (List.forall_mem_singleton.mpr blank)] at ends
    rw [ends, List.length_append, List.length_singleton] at shorter
    omega

namespace SinglySpaced

variable {s : List Char}

theorem collapse (h : SinglySpaced s) : Text.collapse s = s := by
  -- Only what is behind each blank matters here, and that is so for every end of the text too.
  have behind : ∀ front c back, s = front ++ c :: back → isBlank c = true →
      c = ' ' ∧ trimStart back = back := by
    intro front c back parts blank
    obtain ⟨space, -, d, head, visible⟩ := h front c back parts blank
    obtain ⟨r, rfl⟩ := List.head?_eq_some_iff.mp head
    exact ⟨space, trimStart_cons visible r⟩
  clear h
  induction s with
  | nil => rfl
  | cons c s ih =>
    have rest := ih fun front d back parts => behind (c :: front) d back (congrArg (c :: ·) parts)
    by_cases blank : isBlank c = true
    · obtain ⟨rfl, starts⟩ := behind [] c s rfl blank
      rw [collapse_blank blank, rest, starts]
    · rw [collapse_cons (Bool.eq_false_iff.mpr blank), rest]

theorem trimStart (h : SinglySpaced s) : Text.trimStart s = s := by
  rcases s with _ | ⟨c, s⟩
  · rfl
  · refine trimStart_cons (Bool.eq_false_iff.mpr fun blank => ?_) s
    obtain ⟨-, ⟨d, before, -⟩, -⟩ := h [] c s rfl blank
    cases before

theorem endsUnblank (h : SinglySpaced s) : EndsUnblank s := by
  intro c last
  obtain ⟨front, rfl⟩ := List.getLast?_eq_some_iff.mp last
  refine Bool.eq_false_iff.mpr fun blank => ?_
  obtain ⟨-, -, d, behind, -⟩ := h front c [] rfl blank
  cases behind

theorem trim (h : SinglySpaced s) : Text.trim s = s := by
  rw [Text.trim, h.trimStart, h.endsUnblank.trimEnd]

end SinglySpaced

end Text

namespace Program

open Text

/-! ## Clean lines -/

/-- A line as cleaning leaves it: something on one line, without a comment, in capitals, and with no
blanks but single spaces inside it. -/
structure IsClean (line : String) : Prop where
  filled : line ≠ ""
  bare : ';' ∉ line.toList
  spaced : SinglySpaced line.toList
  unbroken : Unbroken line.toList
  capitals : upper line.toList = line.toList

theorem not_mem_upTo (mark : Char) (s : List Char) : mark ∉ upTo mark s := by
  intro h
  simpa using List.mem_takeWhile_imp h

theorem isClean_cleanLine {s : List Char} (filled : cleanLine s ≠ []) :
    IsClean (String.ofList (cleanLine s)) := by
  refine ⟨fun empty => filled (String.ofList_eq_empty_iff.mp empty), ?_, ?_, ?_, ?_⟩ <;>
    rw [String.toList_ofList]
  · rw [cleanLine_eq, mem_collapse_iff (by decide)]
    intro inside
    exact not_mem_upTo ';' s (trim_subset _ (mem_of_mem_upper inside (by decide) (by decide)))
  · rw [cleanLine_eq]
    exact singlySpaced_of_collapse (trim_collapse_upper_trim _) (collapse_collapse _)
  · exact unbroken_intercalate_words _
  · rw [cleanLine_eq]
    exact upper_of_inCapitals (inCapitals_collapse_upper _)

theorem isClean_of_mem_clean {text line : String} (h : line ∈ clean text) : IsClean line := by
  rw [clean, List.mem_map] at h
  obtain ⟨s, left, rfl⟩ := h
  obtain ⟨made, filled⟩ := List.mem_filter.mp left
  obtain ⟨raw, -, rfl⟩ := List.mem_map.mp made
  exact isClean_cleanLine (by simpa using filled)

/-- A clean line is left as it is. -/
theorem clean_of_isClean {line : String} (h : IsClean line) : clean line = [line] := by
  have alone : upTo ';' line.toList = line.toList := upTo_of_not_mem h.bare
  have nonempty : line.toList ≠ [] := fun empty => h.filled (String.toList_eq_nil_iff.mp empty)
  obtain ⟨c, first, visible⟩ := head?_of_trimStart nonempty h.spaced.trimStart
  have filled : ∃ c ∈ upTo ';' line.toList, isBlank c = false := by
    rw [alone]
    exact ⟨c, List.mem_of_head? first, visible⟩
  rw [clean_eq h.unbroken filled, alone, h.spaced.trim, h.capitals, h.spaced.collapse,
    String.ofList_toList]

theorem clean_eq_self_iff (line : String) : clean line = [line] ↔ IsClean line := by
  constructor
  · intro same
    have mem : line ∈ clean line := by
      rw [same]
      exact List.mem_singleton_self line
    exact isClean_of_mem_clean mem
  · exact clean_of_isClean

/-! ## Texts of several lines -/

theorem clean_append_feed (first second : String) :
    clean (first ++ "\n" ++ second) = clean first ++ clean second := by
  obtain ⟨gap, small, cut⟩ := lines_append_feed first.toList second.toList
  have parts : (first ++ "\n" ++ second).toList = first.toList ++ '\n' :: second.toList := by
    simp
  have nothing : (gap.map cleanLine).filter (fun l => !l.isEmpty) = [] := by
    rcases small with rfl | rfl <;> rfl
  unfold clean
  rw [parts, cut, List.map_append, List.map_append, List.filter_append, List.filter_append, nothing,
    List.append_nil, List.map_append]

/-- Clean lines one under another are left as they are. -/
theorem clean_intercalate {lines : List String} (h : ∀ line ∈ lines, IsClean line) :
    clean (String.intercalate "\n" lines) = lines := by
  induction lines with
  | nil => rfl
  | cons line rest ih =>
    obtain ⟨first, later⟩ := List.forall_mem_cons.mp h
    rcases rest with _ | ⟨next, rest⟩
    · rw [String.intercalate_singleton, clean_of_isClean first]
    · rw [String.intercalate_cons_cons, clean_append_feed, clean_of_isClean first, ih later]
      rfl

/-- Cleaning goes line by line and leaves clean lines, and these it leaves as they are: one alone, and so
all of a text that was cleaned before. -/
theorem cleaning_goes_line_by_line :
    (∀ first second : String, clean (first ++ "\n" ++ second) = clean first ++ clean second) ∧
      (∀ text, clean (String.intercalate "\n" (clean text)) = clean text) ∧
      (∀ text, ∀ line ∈ clean text, IsClean line) ∧
      ∀ line, clean line = [line] ↔ IsClean line :=
  ⟨clean_append_feed, fun _ => clean_intercalate fun _ => isClean_of_mem_clean,
    fun _ _ => isClean_of_mem_clean, clean_eq_self_iff⟩

/-- A line break of two characters that a cut goes through, and one that is no line feed. -/
example : clean ("nop\r" ++ "\n" ++ "\u2028ret ;end") = clean "nop\r" ++ clean "\u2028ret ;end" ∧
    clean "nop\r\n\u2028ret ;end" = ["NOP", "RET"] := by
  decide +kernel

end Program

end BusCycle
