-- Cleaning a line does not change what it means. Lines that differ only in how wide their blanks are
-- read as instructions that differ only in the blanks inside the text of a literal, and cleaning a
-- line makes every run of its blanks one space and does nothing else that the reader does not do.
import BusCycle.Instruction.Encoding
import BusCycle.Program
import BusCycle.Proofs.Instruction.Forms
import BusCycle.Proofs.Instruction.Printing
import BusCycle.Proofs.Text.Respacing

namespace BusCycle

open Text

/-! ## Literals with other blanks -/

namespace Numeral

variable {s t : List Char}

/-- Blanks stand only behind a minus sign, where they do not matter. -/
theorem IsLiteral.respaced {v : Int} (h : IsLiteral s v) (alike : Respaced s t)
    (ends : EndsUnblank t) : IsLiteral t v := by
  cases h with
  | positive number =>
    rw [← alike.eq_of_all number.isBlank]
    exact .positive number
  | @negative blanks digits n blank number =>
    obtain ⟨rest, rfl, behind⟩ := Respaced.of_cons (by decide) alike
    have digits_eq : digits = trim rest := by
      have trimmed := behind.trim
      rw [trim_append_of_blank blank, trim_of_all number.isBlank] at trimmed
      exact trimmed.eq_of_all number.isBlank
    apply (isLiteral_minus_iff ends.of_cons).mpr
    exact ⟨n, rfl, digits_eq ▸ number⟩

theorem respaced_unsigned (alike : Respaced s t) : Respaced (unsigned s) (unsigned t) := by
  by_cases negative : ∃ rest, s = '-' :: rest
  · obtain ⟨rest, rfl⟩ := negative
    obtain ⟨rest', rfl, behind⟩ := Respaced.of_cons (by decide) alike
    exact behind.trim
  · have positive : ∀ rest, s ≠ '-' :: rest := fun rest same => negative ⟨rest, same⟩
    have positive' : ∀ rest, t ≠ '-' :: rest := by
      rintro rest rfl
      obtain ⟨rest', rfl, -⟩ := Respaced.of_cons (by decide) alike.symm
      exact positive rest' rfl
    rwa [unsigned.eq_2 s positive, unsigned.eq_2 t positive']

theorem IsShort.respaced (h : IsShort s) (alike : Respaced s t) : IsShort t := by
  intro all
  have visible : ∀ c ∈ unsigned t, isBlank c = false := fun c hc =>
    not_isBlank_of_isHex (isHex_of_mem (allDigits_isHex all) hc)
  have same := (respaced_unsigned alike).symm.eq_of_all visible
  rw [same] at all ⊢
  exact h all

end Numeral

/-! ## Operands with other blanks -/

namespace Operand

/-- The operand with a single space for every run of blanks in the text of a literal. -/
def collapsed : Operand → Operand
  | immediate value text => immediate value (String.ofList (collapse text.toList))
  | op => op

variable {s t : List Char}

theorem eq_of_isRegisterName (known : isRegisterName (String.ofList s) = true)
    (alike : Respaced s t) : s = t := by
  have visible := (isNameShaped_of_isRegisterName known).isBlank
  rw [String.toList_ofList] at visible
  exact alike.eq_of_all visible

theorem isRegisterName_respaced (alike : Respaced s t) :
    isRegisterName (String.ofList s) = isRegisterName (String.ofList t) := by
  rw [Bool.eq_iff_iff]
  constructor
  · intro known
    rwa [← eq_of_isRegisterName known alike]
  · intro known
    rwa [← eq_of_isRegisterName known alike.symm]

theorem literal_brackets (inner : List Char) :
    literal ('[' :: (inner ++ [']'])) = trim inner := by
  rw [literal, if_pos List.getLast?_concat, List.dropLast_concat]

/-- Brackets stay around what is inside. -/
theorem respaced_brackets {inner : List Char} (alike : Respaced ('[' :: (inner ++ [']'])) t)
    (ends : EndsUnblank t) :
    ∃ inner', t = '[' :: (inner' ++ [']']) ∧ Respaced (trim inner) (trim inner') := by
  obtain ⟨rest, rfl, behind⟩ := Respaced.of_cons (by decide) alike
  obtain ⟨inner', rfl, inside⟩ := behind.of_concat (by decide) ends.of_cons
  exact ⟨inner', rfl, inside.trim⟩

/-- A text is read as an operand however wide its blanks are, and only the text of a literal shows
them. -/
theorem read_respaced {op : Operand} (endsS : EndsUnblank s) (endsT : EndsUnblank t)
    (alike : Respaced s t) (h : read s = .ok op) :
    ∃ op', read t = .ok op' ∧ op'.collapsed = op.collapsed := by
  obtain ⟨written, short⟩ := (read_eq_ok_iff endsS).mp h
  cases written with
  | register known =>
    -- There are no blanks in a name that could be of another width.
    rw [← eq_of_isRegisterName known alike]
    exact ⟨_, h, rfl⟩
  | @immediate s v other literal fits =>
    have literal' := literal.respaced alike endsT
    have other' : isRegisterName (String.ofList t) = false := by
      rwa [← isRegisterName_respaced alike]
    rw [literal.literal_eq] at short
    have short' : Numeral.IsShort (Operand.literal t) := by
      rw [literal'.literal_eq]
      exact short.respaced alike
    have written' := IsWritten.immediate other' literal' fits
    refine ⟨_, (read_eq_ok_iff endsT).mpr ⟨written', short'⟩, ?_⟩
    · rw [collapsed, collapsed, String.toList_ofList, String.toList_ofList, alike]
  | @indirect inner known =>
    obtain ⟨inner', rfl, inside⟩ := respaced_brackets alike endsT
    rw [literal_brackets] at short
    have same := eq_of_isRegisterName known inside
    refine ⟨_, (read_eq_ok_iff endsT).mpr ⟨.indirect (same ▸ known), ?_⟩, ?_⟩
    · rw [literal_brackets, ← same]
      exact short
    · rw [same]
  | @direct inner v other literal fits =>
    obtain ⟨inner', rfl, inside⟩ := respaced_brackets alike endsT
    rw [literal_brackets] at short
    have other' : isRegisterName (String.ofList (trim inner')) = false := by
      rwa [← isRegisterName_respaced inside]
    have literal' := literal.respaced inside (endsUnblank_trim inner')
    refine ⟨_, (read_eq_ok_iff endsT).mpr ⟨.direct other' literal' fits, ?_⟩, rfl⟩
    rw [literal_brackets]
    exact short.respaced inside

end Operand

namespace Operands

theorem IsRead.respaced {s t : List Char} {ops : Operands} (h : IsRead s ops)
    (alike : Respaced s t) :
    ∃ ops', IsRead t ops' ∧ ops'.map Operand.collapsed = ops.map Operand.collapsed := by
  have field {s t : List Char} {op : Operand} (alike : Respaced s t)
      (read : Operand.read (trim s) = .ok op) :=
    Operand.read_respaced (endsUnblank_trim s) (endsUnblank_trim t) alike.trim read
  cases h with
  | none blank =>
    have nothing := alike.trim
    rw [(trim_eq_nil_iff s).mpr blank] at nothing
    have empty := nothing.eq_of_all (by simp)
    exact ⟨.none, .none ((trim_eq_nil_iff t).mp empty.symm), rfl⟩
  | one whole only =>
    obtain ⟨op', only', same⟩ := field alike only
    exact ⟨.one op', .one (alike.not_mem (by decide) whole) only', by rw [map, map, same]⟩
  | two wholeLeft wholeRight first second =>
    obtain ⟨left, right, rfl, alikeLeft, alikeRight⟩ :=
      alike.of_append_cons (by decide) wholeLeft wholeRight
    obtain ⟨x', first', sameFirst⟩ := field alikeLeft first
    obtain ⟨y', second', sameSecond⟩ := field alikeRight second
    refine ⟨.two x' y', .two ?_ ?_ first' second', by rw [map, map, sameFirst, sameSecond]⟩
    · exact alikeLeft.not_mem (by decide) wholeLeft
    · exact alikeRight.not_mem (by decide) wholeRight

end Operands

/-! ## Lines with other blanks -/

namespace Instruction

/-- The mnemonic is the same, and the text behind it differs only in its blanks. -/
theorem split?_respaced {s t mnemonic rest : List Char} (alike : Respaced s t)
    (unbroken : '\n' ∉ t) (h : split? s = some (mnemonic, rest)) :
    ∃ rest', split? t = some (mnemonic, rest') ∧ Respaced (trimStart rest) rest' := by
  obtain ⟨name, ⟨rfl, rfl⟩ | ⟨blanks, separated, blank, -, rfl⟩⟩ := parts_of_split? h
  · have visible : ∀ c ∈ s, isBlank c = false := fun c hc => (name.isFirm c hc).isBlank
    rw [← alike.eq_of_all visible]
    exact ⟨[], split?_bare name, rfl⟩
  · have visible : ∀ c ∈ mnemonic, isBlank c = false := fun c hc => (name.isFirm c hc).isBlank
    obtain ⟨after, rfl, behind⟩ := alike.of_append visible
    have parts : after.takeWhile isBlank ++ trimStart after = after :=
      List.takeWhile_append_dropWhile
    have separated' : after.takeWhile isBlank ≠ [] := by
      obtain ⟨c, more, rfl⟩ := List.exists_cons_of_ne_nil separated
      obtain ⟨d, u, rfl, first⟩ := behind.of_blank (blank c List.mem_cons_self)
      rw [List.takeWhile_cons_of_pos first]
      exact List.cons_ne_nil _ _
    have unbroken' : '\n' ∉ trimStart after := fun broken =>
      unbroken (List.mem_append_right _ ((List.dropWhile_sublist _).subset broken))
    have found := split?_apart name separated' (List.all_eq_true.mp List.all_takeWhile) unbroken'
    rw [parts, trimStart_trimStart] at found
    have passed : trimStart (blanks ++ rest) = trimStart rest :=
      List.dropWhile_append_of_pos blank
    have inside := behind.trimStart
    rw [passed] at inside
    exact ⟨_, found, inside⟩

/-- A line is accepted however wide its blanks are, and what is read differs at most in the blanks in
the text of literals. -/
theorem parse_respaced {line line' : String} {n : Int} (n' : Int) {i : Instruction}
    (alike : Respaced (upper (trim line.toList)) (upper (trim line'.toList)))
    (unbroken : '\n' ∉ upper (trim line'.toList)) (h : parse line n = .ok i) :
    ∃ j, parse line' n' = .ok j ∧ j.mnemonic = i.mnemonic ∧
      j.operands.map Operand.collapsed = i.operands.map Operand.collapsed := by
  obtain ⟨mnemonic, rest, ops, parts, operands, rfl⟩ := parse_eq_ok_iff.mp h
  obtain ⟨rest', parts', behind⟩ := split?_respaced alike unbroken parts
  obtain ⟨ops', operands', same⟩ := operands.trimStart.respaced behind
  exact ⟨_, parse_eq_ok_iff.mpr ⟨mnemonic, rest', ops', parts', operands', rfl⟩, rfl, same⟩

/-- Two instructions that say the same: with the same mnemonic and with operands that differ at most in
the blanks in the text of literals, of the same form, and with the same code at every place. -/
structure SaysTheSame (i j : Instruction) : Prop where
  mnemonic : i.mnemonic = j.mnemonic
  operands : i.operands.map Operand.collapsed = j.operands.map Operand.collapsed
  form : Form.ofInstruction? i = Form.ofInstruction? j
  code : ∀ ip, (Assembled.ofInstruction i ip).code = (Assembled.ofInstruction j ip).code

theorem form_congr {i j : Instruction} (mnemonic : i.mnemonic = j.mnemonic)
    (operands : i.operands.map Operand.plain = j.operands.map Operand.plain) :
    Form.ofInstruction? i = Form.ofInstruction? j := by
  apply Option.ext
  intro f
  rw [Form.ofInstruction?_eq_some_iff, Form.ofInstruction?_eq_some_iff]
  unfold Form.Tells
  rw [mnemonic, operands]

theorem code_congr {i j : Instruction} (mnemonic : i.mnemonic = j.mnemonic)
    (operands : i.operands.map Operand.plain = j.operands.map Operand.plain) (ip : Word) :
    (Assembled.ofInstruction i ip).code = (Assembled.ofInstruction j ip).code := by
  have bytes : Assembled.placeholders i = Assembled.placeholders j := by
    unfold Assembled.placeholders
    cases hi : i.operands <;> cases hj : j.operands <;> simp [hi, hj, Operands.map] at operands ⊢
  unfold Assembled.ofInstruction
  rw [form_congr mnemonic operands, bytes]
  split <;> rfl

theorem map_plain_of_map_collapsed {ops ops' : Operands}
    (h : ops.map Operand.collapsed = ops'.map Operand.collapsed) :
    ops.map Operand.plain = ops'.map Operand.plain := by
  have plain (op : Operand) : op.collapsed.plain = op.plain := by
    cases op <;> rfl
  have again (ops : Operands) : (ops.map Operand.collapsed).map Operand.plain =
      ops.map Operand.plain := by
    cases ops <;> simp [Operands.map, plain]
  rw [← again, h, again]

theorem saysTheSame {i j : Instruction} (mnemonic : i.mnemonic = j.mnemonic)
    (operands : i.operands.map Operand.collapsed = j.operands.map Operand.collapsed) :
    SaysTheSame i j := by
  have plain := map_plain_of_map_collapsed operands
  exact ⟨mnemonic, operands, form_congr mnemonic plain, code_congr mnemonic plain⟩

end Instruction

/-! ## The line that cleaning leaves -/

namespace Text

/-- Capitals of a text without blanks at its ends have none either. -/
theorem endsUnblank_upper {s : List Char} (h : EndsUnblank s) : EndsUnblank (upper s) := by
  rcases List.eq_nil_or_concat s with rfl | ⟨front, c, rfl⟩
  · exact h
  rw [List.concat_eq_append] at h ⊢
  have last : isBlank c = false := h c List.getLast?_concat
  rcases capital_cases c with ⟨blank, -⟩ | ⟨-, filled, visible⟩
  · rw [blank] at last
    cases last
  · unfold upper
    rw [List.flatMap_append, List.flatMap_singleton]
    exact (endsUnblank_of_all visible).append filled

theorem trimStart_upper_trim (s : List Char) : trimStart (upper (trim s)) = upper (trim s) := by
  rcases trimStart_cases (trim s) with nothing | ⟨c, r, first, starts⟩
  · rw [trimStart_trim] at nothing
    rw [nothing]
    rfl
  · rw [trimStart_trim] at starts
    rw [starts, upper, List.flatMap_cons]
    rcases capital_cases c with ⟨blank, -⟩ | ⟨-, filled, visible⟩
    · rw [blank] at first
      cases first
    · obtain ⟨d, more, shown⟩ := List.exists_cons_of_ne_nil filled
      rw [shown, List.cons_append, trimStart_cons (visible d (shown ▸ List.mem_cons_self))]

/-- A text on one line is one line. -/
theorem lines_of_unbroken {s : List Char} (h : Unbroken s) (filled : s ≠ []) : lines s = [s] := by
  induction s with
  | nil => exact absurd rfl filled
  | cons c s ih =>
    have first : isLineBreak c = false := h c List.mem_cons_self
    have opened : lines (c :: s) = consLine c (lines s) := by
      rw [lines.eq_3]
      · rw [if_neg (by simp [first])]
      · rintro r rfl
        exact absurd first (by decide)
    rw [opened]
    by_cases last : s = []
    · rw [last]
      rfl
    · rw [ih (h.mono (List.subset_cons_self _ _)) last]
      rfl

end Text

namespace Program

/-- A line that is cleaned is in capitals, without blanks at its ends and with a single space for every
other run of blanks. -/
theorem cleanLine_eq (s : List Char) : cleanLine s = collapse (upper (trim (upTo ';' s))) := by
  unfold cleanLine
  rw [intercalate_words (endsUnblank_upper (endsUnblank_trim _)), trimStart_upper_trim]

/-- One line of a text with something before its first semicolon is left. -/
theorem clean_eq {text : String} (unbroken : Unbroken text.toList)
    (filled : ∃ c ∈ upTo ';' text.toList, isBlank c = false) :
    clean text = [String.ofList (collapse (upper (trim (upTo ';' text.toList))))] := by
  obtain ⟨c, hc, visible⟩ := filled
  have filled : text.toList ≠ [] := by
    intro nothing
    rw [nothing] at hc
    cases hc
  have used : cleanLine text.toList ≠ [] := by
    rw [ne_eq, cleanLine_eq_nil_iff]
    intro unused
    rw [unused c hc] at visible
    cases visible
  unfold clean
  rw [lines_of_unbroken unbroken filled, List.map_singleton, List.filter_cons_of_pos (by simpa using used),
    List.filter_nil, List.map_singleton, cleanLine_eq]

theorem upTo_of_not_mem {mark : Char} {s : List Char} (h : mark ∉ s) : upTo mark s = s := by
  unfold upTo
  rw [List.takeWhile_eq_self_iff]
  intro c hc
  simpa using ne_of_mem_of_not_mem hc h

theorem upTo_append {mark : Char} {s : List Char} (h : mark ∉ s) (t : List Char) :
    upTo mark (s ++ mark :: t) = s := by
  have each : ∀ c ∈ s, (c != mark) = true := by
    intro c hc
    simpa using ne_of_mem_of_not_mem hc h
  unfold upTo
  rw [List.takeWhile_append_of_pos each, List.takeWhile_cons_of_neg (by simp), List.append_nil]

/-- A comment behind a line changes nothing of what is left. -/
theorem clean_comment {raw comment : String} (unbroken : Unbroken raw.toList)
    (bare : ';' ∉ raw.toList) (filled : ∃ c ∈ raw.toList, isBlank c = false)
    (whole : Unbroken comment.toList) : clean (raw ++ ";" ++ comment) = clean raw := by
  have alone : upTo ';' raw.toList = raw.toList := upTo_of_not_mem bare
  have parts : (raw ++ ";" ++ comment).toList = raw.toList ++ ';' :: comment.toList := by
    simp
  have before : upTo ';' (raw ++ ";" ++ comment).toList = raw.toList := by
    rw [parts, upTo_append bare]
  have unbroken' : Unbroken (raw ++ ";" ++ comment).toList := by
    rw [parts]
    exact unbroken.append (whole.cons (by decide))
  rw [clean_eq unbroken' (by rwa [before]), clean_eq unbroken (by rwa [alone]), before, alone]

theorem inCapitals_collapse_upper (s : List Char) : InCapitals (collapse (upper s)) := by
  intro c hc
  rcases mem_collapse hc with inside | rfl
  · exact inCapitals_upper s c inside
  · exact capital_of_lt (by decide)

/-- What is left of a trimmed text needs no trimming. -/
theorem trim_collapse_upper_trim (s : List Char) :
    trim (collapse (upper (trim s))) = collapse (upper (trim s)) := by
  have start : trimStart (collapse (upper (trim s))) = collapse (upper (trim s)) := by
    rw [← collapse_trimStart, trimStart_upper_trim]
  have ends := (endsUnblank_upper (endsUnblank_trim s)).collapse
  exact (congrArg trimEnd start).trans ends.trimEnd

/-- The line that is left of a text is read as that text with other blanks. -/
theorem respaced_upper_trim (s : List Char) :
    Respaced (upper (trim s)) (upper (trim (collapse (upper (trim s))))) := by
  unfold Respaced
  rw [trim_collapse_upper_trim, upper_of_inCapitals (inCapitals_collapse_upper _), collapse_collapse]

theorem unbroken_upper_trim {s : List Char} (h : Unbroken s) : Unbroken (upper (trim s)) :=
  unbroken_upper (h.mono (trim_subset s))

theorem unbroken_collapse {s : List Char} (h : Unbroken s) : Unbroken (collapse s) := by
  intro c hc
  rcases mem_collapse hc with inside | rfl
  · exact h c inside
  · decide

theorem not_mem_of_unbroken {s : List Char} (h : Unbroken s) : '\n' ∉ s := by
  intro broken
  exact absurd (h _ broken) (by decide)

/-- Cleaning never changes what a line means. Of a line that is not blank one line is left. It is accepted
just if the line is, and then both are read as instructions that say the same. A comment behind
the line changes nothing. -/
theorem cleaning_keeps_meaning {raw : String} (unbroken : Unbroken raw.toList)
    (bare : ';' ∉ raw.toList) (filled : ∃ c ∈ raw.toList, isBlank c = false) :
    ∃ line, clean raw = [line] ∧
      (∀ n n' : Int, (∃ i, Instruction.parse raw n = .ok i) ↔
        ∃ j, Instruction.parse line n' = .ok j) ∧
      (∀ (n n' : Int) (i j : Instruction), Instruction.parse raw n = .ok i →
        Instruction.parse line n' = .ok j → Instruction.SaysTheSame i j) ∧
      ∀ comment : String, Unbroken comment.toList → clean (raw ++ ";" ++ comment) = [line] := by
  have alone : upTo ';' raw.toList = raw.toList := upTo_of_not_mem bare
  have cleaned := clean_eq unbroken (by rwa [alone])
  have alike := respaced_upper_trim raw.toList
  have text := unbroken_upper_trim unbroken
  have text' := unbroken_upper_trim (unbroken_collapse text)
  rw [alone] at cleaned
  rw [← String.toList_ofList (l := collapse _)] at alike text'
  generalize String.ofList (collapse (upper (trim raw.toList))) = line at cleaned alike text'
  refine ⟨line, cleaned, ?accepted, ?same, ?comment⟩
  case accepted =>
    intro n n'
    constructor
    · rintro ⟨i, h⟩
      obtain ⟨j, read, -⟩ :=
        Instruction.parse_respaced n' alike (not_mem_of_unbroken text') h
      exact ⟨j, read⟩
    · rintro ⟨j, h⟩
      obtain ⟨i, read, -⟩ :=
        Instruction.parse_respaced n alike.symm (not_mem_of_unbroken text) h
      exact ⟨i, read⟩
  case same =>
    intro n n' i j h h'
    obtain ⟨j', read, mnemonic, operands⟩ :=
      Instruction.parse_respaced n' alike (not_mem_of_unbroken text') h
    obtain rfl : j = j' := Except.ok.inj (h'.symm.trans read)
    exact Instruction.saysTheSame mnemonic.symm operands.symm
  case comment =>
    intro comment whole
    rw [clean_comment unbroken bare filled whole, cleaned]

/-- An instruction with blanks of many kinds, and a comment that speaks of another one. -/
theorem spacedMove_cleaned : Unbroken "\tmov\u3000 ah ,-  10h ".toList ∧
    clean "\tmov\u3000 ah ,-  10h " = ["MOV AH ,- 10H"] ∧
    clean "\tmov\u3000 ah ,-  10h ; not 20h" = ["MOV AH ,- 10H"] ∧
    Instruction.SaysTheSame
      ⟨"MOV", .two (.register "AH") (.immediate 65520 "-  10H"), "MOV\u3000 AH ,-  10H", 1⟩
      ⟨"MOV", .two (.register "AH") (.immediate 65520 "- 10H"), "MOV AH ,- 10H", 2⟩ := by
  have unbroken : Unbroken "\tmov\u3000 ah ,-  10h ".toList := by decide
  obtain ⟨line, cleaned, -, same, comment⟩ :=
    cleaning_keeps_meaning unbroken (by decide) ⟨'m', by decide, by decide⟩
  have left : clean "\tmov\u3000 ah ,-  10h " = ["MOV AH ,- 10H"] := by decide +kernel
  obtain rfl : line = "MOV AH ,- 10H" := by
    rw [left] at cleaned
    exact (List.singleton_inj.mp cleaned).symm
  refine ⟨unbroken, left, comment " not 20h" (by decide), ?_⟩
  exact same 1 2 _ _ (by decide +kernel) (by decide +kernel)

end Program

end BusCycle
