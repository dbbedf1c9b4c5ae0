-- What it takes for a line to be accepted. Each reader succeeds just if the parts of its text are read
-- with success. So a line without literals that are too long is accepted just if the grammar has it,
-- and every other such line is rejected: none breaks the reader off.
import BusCycle.Proofs.Instruction.Grammar
import BusCycle.Proofs.Instruction.Reading

namespace BusCycle

open Text

/-! ## Operands -/

namespace Operands

/-- The text behind a mnemonic is read field by field: it is blank, or one field, or two with a comma
between them. -/
inductive IsRead : List Char → Operands → Prop
  | none {rest : List Char} (blank : ∀ c ∈ rest, isBlank c = true) : IsRead rest .none
  | one {field : List Char} {op : Operand} (whole : ',' ∉ field)
      (only : Operand.read (trim field) = .ok op) : IsRead field (.one op)
  | two {left right : List Char} {x y : Operand} (wholeLeft : ',' ∉ left) (wholeRight : ',' ∉ right)
      (first : Operand.read (trim left) = .ok x) (second : Operand.read (trim right) = .ok y) :
      IsRead (left ++ ',' :: right) (.two x y)

theorem isRead_of_read {rest : List Char} {ops : Operands} (h : read rest = .ok ops) :
    IsRead rest ops := by
  unfold read at h
  split at h
  · rename_i nothing
    obtain rfl := Except.ok.inj h
    exact .none ((trim_eq_nil_iff rest).mp (List.isEmpty_iff.mp nothing))
  rcases pieces : rest.splitOn ',' with _ | ⟨a, _ | ⟨b, _ | ⟨c, more⟩⟩⟩
  · exact absurd pieces (List.splitOnP_ne_nil _ _)
  · obtain ⟨rfl, whole⟩ := (splitOn_eq_iff (by simp)).mp pieces
    rw [pieces] at h
    simp only [List.map_cons, List.map_nil] at h
    rcases only : Operand.read (trim a) with failure | x
    · rw [only] at h
      cases h
    · rw [only] at h
      obtain rfl := Except.ok.inj h
      simpa [List.intercalate] using IsRead.one (whole a (by simp)) only
  · obtain ⟨rfl, whole⟩ := (splitOn_eq_iff (by simp)).mp pieces
    rw [pieces] at h
    simp only [List.map_cons, List.map_nil] at h
    rcases first : Operand.read (trim a) with failure | x
    · rw [first] at h
      cases h
    · rcases second : Operand.read (trim b) with failure | y
      · rw [first, second] at h
        cases h
      · rw [first, second] at h
        obtain rfl := Except.ok.inj h
        have both := IsRead.two (whole a (by simp)) (whole b (by simp)) first second
        simpa [List.intercalate] using both
  · rw [pieces] at h
    cases h

theorem not_read_nil {op : Operand} : Operand.read [] ≠ .ok op := by
  rw [Operand.read]
  simp

theorem read_of_isRead {rest : List Char} {ops : Operands} (h : IsRead rest ops) :
    read rest = .ok ops := by
  unfold read
  cases h with
  | none blank => rw [if_pos (List.isEmpty_iff.mpr ((trim_eq_nil_iff rest).mpr blank))]
  | one whole only =>
    have filled : trim rest ≠ [] := fun nothing => not_read_nil (nothing ▸ only)
    rw [if_neg (by simpa using filled), splitOn_comma_one whole]
    simp only [List.map_cons, List.map_nil, only]
    rfl
  | @two left right x y wholeLeft wholeRight first second =>
    have filled : trim (left ++ ',' :: right) ≠ [] := by
      intro nothing
      have := (trim_eq_nil_iff _).mp nothing ',' (by simp)
      revert this
      decide
    rw [if_neg (by simpa using filled), splitOn_comma_two wholeLeft wholeRight]
    simp only [List.map_cons, List.map_nil, first, second]
    rfl

theorem read_eq_ok_iff {rest : List Char} {ops : Operands} :
    read rest = .ok ops ↔ IsRead rest ops := by
  constructor
  · exact isRead_of_read
  · exact read_of_isRead

/-- What is read field by field is what is written. -/
theorem IsRead.isWritten {rest : List Char} {ops : Operands} (h : IsRead rest ops) :
    IsWritten rest ops := by
  have field {s : List Char} {op : Operand} (read : Operand.read (trim s) = .ok op) :
      Operand.IsWritten (trim s) op :=
    ((Operand.read_eq_ok_iff (endsUnblank_trim s)).mp read).1
  cases h with
  | none blank => exact .none blank
  | one whole only => exact .one whole (field only)
  | two wholeLeft wholeRight first second =>
    exact .two wholeLeft wholeRight (field first) (field second)

/-- What is written is read field by field, if no field is too long. -/
theorem IsWritten.isRead {rest : List Char} {ops : Operands} (h : IsWritten rest ops)
    (short : ∀ field ∈ (rest.splitOn ',').map trim, Numeral.IsShort (Operand.literal field)) :
    IsRead rest ops := by
  have field {s : List Char} {op : Operand} (mem : s ∈ rest.splitOn ',')
      (written : Operand.IsWritten (trim s) op) : Operand.read (trim s) = .ok op :=
    (Operand.read_eq_ok_iff (endsUnblank_trim s)).mpr
      ⟨written, short _ (List.mem_map_of_mem mem)⟩
  cases h with
  | none blank => exact .none blank
  | one whole only =>
    refine .one whole (field ?_ only)
    rw [splitOn_comma_one whole]
    exact List.mem_cons_self
  | two wholeLeft wholeRight first second =>
    rw [splitOn_comma_two wholeLeft wholeRight] at field
    exact .two wholeLeft wholeRight (field List.mem_cons_self first)
      (field (List.mem_cons_of_mem _ List.mem_cons_self) second)

/-- Blanks in front of the operands do not matter. -/
theorem IsRead.trimStart {rest : List Char} {ops : Operands} (h : IsRead rest ops) :
    IsRead (Text.trimStart rest) ops := by
  have sub (s : List Char) : ',' ∉ s → ',' ∉ Text.trimStart s := fun whole inside =>
    whole ((List.dropWhile_sublist _).subset inside)
  cases h with
  | none blank => exact .none fun c hc => blank c ((List.dropWhile_sublist _).subset hc)
  | one whole only => exact .one (sub _ whole) (by rwa [trim_trimStart])
  | two wholeLeft wholeRight first second =>
    rw [trimStart_append_cons (by decide)]
    exact .two (sub _ wholeLeft) wholeRight (by rwa [trim_trimStart]) second

end Operands

/-! ## Lines -/

namespace Instruction

/-- A line is accepted just if it has a mnemonic and the text behind it is read as operands. -/
theorem parse_eq_ok_iff {line : String} {n : Int} {i : Instruction} :
    parse line n = .ok i ↔
      ∃ mnemonic rest ops, split? (upper (trim line.toList)) = some (mnemonic, rest) ∧
        Operands.IsRead rest ops ∧
        i = ⟨String.ofList mnemonic, ops, String.ofList (upper (trim line.toList)), n⟩ := by
  unfold parse
  dsimp only
  constructor
  · intro h
    split at h
    · cases h
    · rename_i mnemonic rest parts
      rcases operands : Operands.read rest with failure | ops
      · rw [operands] at h
        cases h
      · rw [operands] at h
        obtain rfl := Except.ok.inj h
        exact ⟨mnemonic, rest, ops, parts, Operands.read_eq_ok_iff.mp operands, rfl⟩
  · rintro ⟨mnemonic, rest, ops, parts, operands, rfl⟩
    rw [parts]
    simp only [Operands.read_eq_ok_iff.mpr operands]

/-- A line that is written with a mnemonic and operands is split so that the operands are found. -/
theorem IsWritten.split? {text : List Char} {mnemonic : String} {ops : Operands}
    (h : IsWritten text mnemonic ops) :
    ∃ rest, Instruction.split? text = some (mnemonic.toList, rest) ∧
      Operands.IsWritten rest ops := by
  cases h with
  | bare name =>
    rw [split?_bare name, String.toList_ofList]
    exact ⟨[], rfl, .none (by simp)⟩
  | apart name separated blank unbroken operands =>
    rw [split?_apart name separated blank unbroken, String.toList_ofList]
    exact ⟨_, rfl, operands.trimStart⟩

/-- A line that is split into a mnemonic and a text that is written as operands is written as a line. -/
theorem isWritten_of_split? {text mnemonic rest : List Char} {ops : Operands}
    (parts : Instruction.split? text = some (mnemonic, rest)) (operands : Operands.IsWritten rest ops) :
    IsWritten text (String.ofList mnemonic) ops := by
  obtain ⟨name, ⟨rfl, rfl⟩ | ⟨blanks, separated, blank, unbroken, rfl⟩⟩ := parts_of_split? parts
  · generalize hs : ([] : List Char) = s at operands
    cases operands with
    | none blank => exact .bare name
    | one whole only =>
      subst hs
      exact absurd only Operand.not_isWritten_nil
    | two _ _ _ _ => simp at hs
  · exact .apart name separated blank unbroken operands

/-- A line without literals that are too long is read as an instruction just if it is written as one,
and the instruction has the mnemonic and the operands that are written, the line in capitals, and its
number. -/
theorem parse_eq_ok_iff_isWritten {line : String} (short : ShortLiterals line) {n : Int}
    {i : Instruction} :
    parse line n = .ok i ↔
      IsWritten (upper (trim line.toList)) i.mnemonic i.operands ∧
        i.text = String.ofList (upper (trim line.toList)) ∧ i.lineNumber = n := by
  rw [parse_eq_ok_iff]
  constructor
  · rintro ⟨mnemonic, rest, ops, parts, operands, rfl⟩
    exact ⟨isWritten_of_split? parts operands.isWritten, rfl, rfl⟩
  · obtain ⟨mnemonic, operands, shown, number⟩ := i
    rintro ⟨written, rfl, rfl⟩
    obtain ⟨rest, parts, operands⟩ := written.split?
    unfold ShortLiterals literals at short
    rw [parts] at short
    have read := operands.isRead fun field mem => short _ (List.mem_map_of_mem mem)
    exact ⟨_, rest, _, parts, read, by rw [String.ofList_toList]⟩

/-- The instructions of lines are those that the grammar gives. A line whose decimal literals are not
too long to be made numbers is read as an instruction just if it is written as one, and what is read
is what is written: with the line in capitals, the number of the line, and words for numbers. Every
other line is rejected with its number and its text, and no number of it fails to be made. -/
theorem instructions_are_what_is_written {line : String} (short : ShortLiterals line) (n : Int) :
    (∀ i, parse line n = .ok i ↔
      IsWritten (upper (trim line.toList)) i.mnemonic i.operands ∧
        i.text = String.ofList (upper (trim line.toList)) ∧ i.lineNumber = n) ∧
    (∀ i, parse line n = .ok i → ∀ op ∈ i.operands.toList, op.Fits) ∧
    ((∀ mnemonic ops, ¬IsWritten (upper (trim line.toList)) mnemonic ops) →
      ∃ fault : LineFault, parse line n = .error (.fault ⟨fault, n, line⟩)) := by
  refine ⟨fun i => parse_eq_ok_iff_isWritten short, fun i => fits_of_parse, fun unwritten => ?_⟩
  cases read : parse line n with
  | ok i => exact absurd ((parse_eq_ok_iff_isWritten short).mp read).1 (unwritten _ _)
  | error failure =>
    obtain ⟨e, rfl⟩ := fault_of_parse short read
    exact ⟨e.fault, by rw [← eq_of_parse_fault read]⟩

/-- A line with blanks wherever they may stand. -/
def spacedLine : String := "  mov\tah , - 10h \n"

/-- A line with a line feed between its operands. -/
def brokenLine : String := "MOV AX,\n10H"

theorem spacedLine_isWritten :
    IsWritten (upper (trim spacedLine.toList)) "MOV"
      (.two (.register "AH") (.immediate 65520 "- 10H")) := by
  have first : Operand.IsWritten "AH".toList (.register "AH") := .register (by decide)
  have number : Numeral.IsUnsigned ("10".toList ++ ['H']) 16 := .suffixed (by decide)
  have literal : Numeral.IsLiteral ('-' :: (" ".toList ++ "10H".toList)) (-16) :=
    .negative (List.all_eq_true.mp (by decide)) number
  have second : Operand.IsWritten "- 10H".toList (.immediate (-16 % 65536) "- 10H") :=
    .immediate (by decide) literal (by decide)
  have operands : Operands.IsWritten ("AH ".toList ++ ',' :: " - 10H".toList)
      (.two (.register "AH") (.immediate (-16 % 65536) "- 10H")) :=
    .two (by decide) (by decide) first second
  have name : IsMnemonic "MOV".toList :=
    ⟨'M', "OV".toList, rfl, by decide, List.all_eq_true.mp (by decide)⟩
  have line : IsWritten ("MOV".toList ++ ("\t".toList ++ ("AH ".toList ++ ',' :: " - 10H".toList)))
      "MOV" (.two (.register "AH") (.immediate (-16 % 65536) "- 10H")) :=
    .apart name (by decide) (List.all_eq_true.mp (by decide)) (by decide) operands
  exact line

/-- `AH` is a register in the one line, though it could be a number, and the other line is rejected. -/
theorem spacedLine_is_instruction :
    ShortLiterals spacedLine ∧ ShortLiterals brokenLine ∧
      parse spacedLine 7 = .ok ⟨"MOV",
        .two (.register "AH") (.immediate 65520 "- 10H"), "MOV\tAH , - 10H", 7⟩ ∧
      ∃ fault, parse brokenLine 7 = .error (.fault ⟨fault, 7, "MOV AX,\n10H"⟩) := by
  have short : ShortLiterals spacedLine := by decide +kernel
  have shortBroken : ShortLiterals brokenLine := by decide +kernel
  have text : "MOV\tAH , - 10H" = String.ofList (upper (trim spacedLine.toList)) := by decide +kernel
  have unwritten (mnemonic : String) (ops : Operands) :
      ¬IsWritten (upper (trim brokenLine.toList)) mnemonic ops := by
    intro written
    have read : (parse brokenLine 7).toOption = none := by decide +kernel
    have parsed : parse brokenLine 7 = .ok ⟨mnemonic, ops, _, 7⟩ :=
      (parse_eq_ok_iff_isWritten shortBroken).mpr ⟨written, rfl, rfl⟩
    rw [parsed] at read
    cases read
  obtain ⟨read, -, -⟩ := instructions_are_what_is_written short 7
  obtain ⟨-, -, rejected⟩ := instructions_are_what_is_written shortBroken 7
  obtain ⟨fault, found⟩ := rejected unwritten
  exact ⟨short, shortBroken, (read _).mpr ⟨spacedLine_isWritten, text, rfl⟩, fault, found⟩

end Instruction

end BusCycle
