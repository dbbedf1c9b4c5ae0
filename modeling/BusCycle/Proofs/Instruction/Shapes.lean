-- The table of shapes, which says by names and classes of operands what the machine knows. An
-- instruction is recognised just if a row of the table fits it, as the kind of that row, and no two
-- rows fit one instruction.
import BusCycle.Proofs.Instruction.ByName

namespace BusCycle

/-! ## Classes of operands -/

/-- What an operand in a row of the table may be. -/
inductive OperandClass
  /-- A register of one of the names. -/
  | register (names : List String)
  /-- A place in memory: a number, or a register of one of the names, in brackets. -/
  | place (bases : List String)
  /-- A number. -/
  | number
  deriving DecidableEq

namespace OperandClass

/-- Whether an operand is of a class. -/
def Has : OperandClass → Operand → Prop
  | register names, .register name => name ∈ names
  | place bases, .indirect base => base ∈ bases
  | place _, .direct _ => True
  | number, .immediate _ _ => True
  | _, _ => False

instance : (c : OperandClass) → (op : Operand) → Decidable (c.Has op)
  | register names, .register name => inferInstanceAs (Decidable (name ∈ names))
  | place bases, .indirect base => inferInstanceAs (Decidable (base ∈ bases))
  | place _, .direct _ => isTrue trivial
  | number, .immediate _ _ => isTrue trivial
  | register _, .immediate _ _ | register _, .indirect _ | register _, .direct _ => isFalse id
  | place _, .register _ | place _, .immediate _ _ => isFalse id
  | number, .register _ | number, .indirect _ | number, .direct _ => isFalse id

/-- The registers of 16 bits that arithmetic works on. -/
def general : OperandClass := register ["AX", "BX", "CX", "DX", "SI", "DI", "BP", "SP"]

/-- The segment registers that a move may load. -/
def loadable : OperandClass := register ["DS", "ES", "SS"]

/-- The segment registers that a move may store. -/
def segment : OperandClass := register ["CS", "DS", "ES", "SS"]

/-- What a word may be moved from or to in memory. -/
def memory : OperandClass := place ["SI", "DI"]

/-- The operands of several classes, one after another. -/
def HasAll : List OperandClass → Operands → Prop
  | [], .none => True
  | [c], .one op => c.Has op
  | [c, d], .two x y => c.Has x ∧ d.Has y
  | _, _ => False

instance : (cs : List OperandClass) → (ops : Operands) → Decidable (HasAll cs ops)
  | [], .none => isTrue trivial
  | [c], .one op => inferInstanceAs (Decidable (c.Has op))
  | [c, d], .two x y => inferInstanceAs (Decidable (c.Has x ∧ d.Has y))
  | [], .one _ | [], .two _ _ | [_], .none | [_], .two _ _ | [_, _], .none | [_, _], .one _
  | _ :: _ :: _ :: _, _ => isFalse id

theorem length_of_hasAll {cs : List OperandClass} {ops : Operands} (h : HasAll cs ops) :
    cs.length = ops.toList.length := by
  unfold HasAll at h
  split at h
  · rfl
  · rfl
  · rfl
  · exact h.elim

/-- A class does not heed the text of a number. -/
theorem has_plain (c : OperandClass) (op : Operand) : c.Has op.plain ↔ c.Has op := by
  cases c <;> cases op <;> exact Iff.rfl

theorem hasAll_plain (cs : List OperandClass) (ops : Operands) :
    HasAll cs (ops.map Operand.plain) ↔ HasAll cs ops := by
  rcases cs with _ | ⟨c, _ | ⟨d, _ | ⟨e, more⟩⟩⟩ <;> cases ops <;>
    simp [HasAll, Operands.map, has_plain]

/-! ### Classes without a common operand -/

/-- Classes that have no operand in common. A number in brackets is of every class of places. -/
def Apart : OperandClass → OperandClass → Prop
  | register names, register names' => ∀ name ∈ names, name ∉ names'
  | place _, place _ => False
  | number, number => False
  | _, _ => True

instance : (c d : OperandClass) → Decidable (c.Apart d)
  | register names, register names' => inferInstanceAs (Decidable (∀ name ∈ names, name ∉ names'))
  | place _, place _ => isFalse id
  | number, number => isFalse id
  | register _, place _ | register _, number => isTrue trivial
  | place _, register _ | place _, number => isTrue trivial
  | number, register _ | number, place _ => isTrue trivial

theorem Apart.not_has {c d : OperandClass} (h : c.Apart d) {op : Operand} (hc : c.Has op) :
    ¬d.Has op := by
  cases c <;> cases d <;> cases op <;> simp_all [Apart, Has]

/-- Lists of classes that no operands are of at once. -/
def ListsApart : List OperandClass → List OperandClass → Prop
  | [c], [d] => c.Apart d
  | [c, c'], [d, d'] => c.Apart d ∨ c'.Apart d'
  | cs, ds => cs.length ≠ ds.length

instance (cs ds : List OperandClass) : Decidable (ListsApart cs ds) := by
  unfold ListsApart
  split <;> infer_instance

theorem ListsApart.not_hasAll {cs ds : List OperandClass} (h : ListsApart cs ds) {ops : Operands}
    (hc : HasAll cs ops) : ¬HasAll ds ops := by
  unfold ListsApart at h
  split at h
  · cases ops with
    | one x => exact h.not_has hc
    | _ => exact hc.elim
  · cases ops with
    | two x y =>
      rintro ⟨first, second⟩
      rcases h with h | h
      · exact h.not_has hc.1 first
      · exact h.not_has hc.2 second
    | _ => exact hc.elim
  · intro hd
    exact h ((length_of_hasAll hc).trans (length_of_hasAll hd).symm)

/-! ### Operands of forms -/

theorem has_general (r : General) : general.Has r.operand := by
  cases r <;> decide

theorem has_loadable (s : LoadableSegment) : loadable.Has s.segment.operand := by
  cases s <;> decide

theorem has_segment (s : Segment) : segment.Has s.operand := by
  cases s <;> decide

theorem has_memory (p : Place) : memory.Has p.operand := by
  cases p <;> simp [memory, Has, Place.operand]

theorem has_number (v : Int) : number.Has (numberOperand v) := trivial

/-! ### Operands of a class -/

theorem of_has_register {names : List String} {op : Operand} (h : (register names).Has op) :
    ∃ name ∈ names, op = .register name := by
  cases op with
  | register name => exact ⟨name, h, rfl⟩
  | _ => exact h.elim

/-- A class of which every operand is, up to the text of a number, given by some `a`. -/
def GivenBy {α : Type} (c : OperandClass) (given : α → Operand) : Prop :=
  ∀ op, c.Has op → ∃ a, given a = op.plain

theorem general_givenBy : general.GivenBy General.operand := by
  have named : ∀ name ∈ ["AX", "BX", "CX", "DX", "SI", "DI", "BP", "SP"],
      (General.ofName? name).isSome = true := by decide
  intro op h
  obtain ⟨name, known, rfl⟩ := of_has_register h
  obtain ⟨r, found⟩ := Option.isSome_iff_exists.mp (named name known)
  have same : Operand.register name = r.operand := Form.general?_eq_some found
  exact ⟨r, same.symm⟩

theorem loadable_givenBy : loadable.GivenBy fun s : LoadableSegment => s.segment.operand := by
  have named : ∀ name ∈ ["DS", "ES", "SS"], (LoadableSegment.ofName? name).isSome = true := by
    decide
  intro op h
  obtain ⟨name, known, rfl⟩ := of_has_register h
  obtain ⟨s, found⟩ := Option.isSome_iff_exists.mp (named name known)
  have same : Operand.register name = s.segment.operand := Form.loadable?_eq_some found
  exact ⟨s, same.symm⟩

theorem segment_givenBy : segment.GivenBy Segment.operand := by
  have named : ∀ name ∈ ["CS", "DS", "ES", "SS"], (Segment.ofName? name).isSome = true := by
    decide
  intro op h
  obtain ⟨name, known, rfl⟩ := of_has_register h
  obtain ⟨s, found⟩ := Option.isSome_iff_exists.mp (named name known)
  have same : Operand.register name = s.operand := Form.segment?_eq_some found
  exact ⟨s, same.symm⟩

theorem memory_givenBy : memory.GivenBy Place.operand := by
  intro op h
  cases op with
  | indirect base =>
    have known : base = "SI" ∨ base = "DI" := by simpa [memory, Has] using h
    rcases known with rfl | rfl
    · exact ⟨.si, rfl⟩
    · exact ⟨.di, rfl⟩
  | direct displacement => exact ⟨.literal displacement, rfl⟩
  | _ => exact h.elim

theorem number_givenBy : number.GivenBy numberOperand := by
  intro op h
  cases op with
  | immediate v text => exact ⟨v, rfl⟩
  | _ => exact h.elim

/-- The class of one register. -/
theorem only_givenBy (r : General) : (register [r.name]).GivenBy fun _ : Unit => r.operand := by
  intro op h
  obtain ⟨name, known, rfl⟩ := of_has_register h
  rw [List.mem_singleton.mp known]
  exact ⟨(), rfl⟩

section

variable {α β : Type} {c d : OperandClass} {left : α → Operand} {right : β → Operand} {ops : Operands}

theorem eq_none_of_hasAll (h : HasAll [] ops) : Operands.none = ops.map Operand.plain := by
  cases ops with
  | none => rfl
  | _ => exact h.elim

theorem eq_one_of_hasAll (first : c.GivenBy left) (h : HasAll [c] ops) :
    ∃ a, Operands.one (left a) = ops.map Operand.plain := by
  cases ops with
  | one x =>
    obtain ⟨a, same⟩ := first x h
    exact ⟨a, congrArg Operands.one same⟩
  | _ => exact h.elim

theorem eq_two_of_hasAll (first : c.GivenBy left) (second : d.GivenBy right)
    (h : HasAll [c, d] ops) : ∃ a b, Operands.two (left a) (right b) = ops.map Operand.plain := by
  cases ops with
  | two x y =>
    obtain ⟨a, same⟩ := first x h.1
    obtain ⟨b, same'⟩ := second y h.2
    exact ⟨a, b, by rw [same, same']; rfl⟩
  | _ => exact h.elim

end

end OperandClass

/-! ## The table -/

/-- A row of the table: a kind with one way to write it. -/
structure Shape where
  kind : String
  mnemonics : List String
  operands : List OperandClass
  deriving DecidableEq

namespace Shape

open OperandClass

/-- Whether an instruction is written in the way of a row. -/
def Fits (s : Shape) (mnemonic : String) (ops : Operands) : Prop :=
  mnemonic ∈ s.mnemonics ∧ HasAll s.operands ops

instance (s : Shape) (mnemonic : String) (ops : Operands) : Decidable (s.Fits mnemonic ops) :=
  inferInstanceAs (Decidable (_ ∧ _))

/-- What operations on two operands are called. -/
def binaryMnemonics : List String := ["ADD", "OR", "AND", "SUB", "XOR", "CMP"]

/-- What branches are called. -/
def branchMnemonics : List String :=
  ["JE", "JZ", "JNE", "JNZ", "JS", "JNS", "JL", "JGE", "JLE", "JG"]

/-- All that the machine knows. -/
def table : List Shape :=
  [⟨"MOV_REG_IMM", ["MOV"], [general, number]⟩,
    ⟨"MOV_REG_REG", ["MOV"], [general, general]⟩,
    ⟨"MOV_SREG_REG", ["MOV"], [loadable, general]⟩,
    ⟨"MOV_REG_SREG", ["MOV"], [general, segment]⟩,
    ⟨"MOV_MEM_REG", ["MOV"], [memory, general]⟩,
    ⟨"MOV_REG_MEM", ["MOV"], [general, memory]⟩,
    ⟨"ALU_REG_REG", binaryMnemonics, [general, general]⟩,
    ⟨"ALU_REG_IMM", binaryMnemonics, [general, number]⟩,
    ⟨"INC_DEC_REG", ["INC", "DEC"], [general]⟩,
    ⟨"NOT_NEG_REG", ["NOT", "NEG"], [general]⟩,
    ⟨"JMP_NEAR", ["JMP"], [number]⟩,
    ⟨"CALL_NEAR", ["CALL"], [number]⟩,
    ⟨"RET_NEAR", ["RET"], []⟩,
    ⟨"JCC_SHORT", branchMnemonics, [number]⟩,
    ⟨"LOOP", ["LOOP"], [number]⟩,
    ⟨"PUSH_REG", ["PUSH"], [general]⟩,
    ⟨"POP_REG", ["POP"], [general]⟩,
    ⟨"PUSHF", ["PUSHF"], []⟩,
    ⟨"POPF", ["POPF"], []⟩,
    ⟨"NOP", ["NOP"], []⟩,
    ⟨"HLT", ["HLT"], []⟩,
    ⟨"IO_STUB", ["IN"], [register ["AX"], register ["DX"]]⟩,
    ⟨"IO_STUB", ["OUT"], [register ["DX"], register ["AX"]]⟩]

theorem fits_plain (s : Shape) (mnemonic : String) (ops : Operands) :
    s.Fits mnemonic (ops.map Operand.plain) ↔ s.Fits mnemonic ops := by
  simp [Fits, hasAll_plain]

/-! ## Rows and forms -/

theorem name_mem_binaryMnemonics (op : BinaryOp) : op.name ∈ binaryMnemonics := by
  cases op <;> decide

theorem name_mem_branchMnemonics (c : Condition) : c.name ∈ branchMnemonics := by
  cases c <;> decide

theorem exists_of_mem_binaryMnemonics {name : String} (h : name ∈ binaryMnemonics) :
    ∃ op : BinaryOp, op.name = name := by
  have named : ∀ name ∈ binaryMnemonics, (BinaryOp.ofName? name).isSome = true := by decide
  obtain ⟨op, found⟩ := Option.isSome_iff_exists.mp (named name h)
  exact ⟨op, (BinaryOp.ofName?_eq_some_iff.mp found).symm⟩

theorem exists_of_mem_branchMnemonics {name : String} (h : name ∈ branchMnemonics) :
    ∃ c : Condition, c.name = name := by
  have named : ∀ name ∈ branchMnemonics, (Condition.ofName? name).isSome = true := by decide
  obtain ⟨c, found⟩ := Option.isSome_iff_exists.mp (named name h)
  exact ⟨c, (Condition.ofName?_eq_some_iff.mp found).symm⟩

/-- Each form has a row of its kind, which fits what the form is written with. -/
theorem fits_form (f : Form) : ∃ s ∈ table, s.kind = f.kind ∧ s.Fits f.mnemonic f.operands := by
  -- A row is given by its place in the table.
  have row (n : Nat) (h : n < table.length) : table[n] ∈ table := List.getElem_mem h
  have first {name : String} {names : List String} : name ∈ name :: names := List.mem_cons_self
  cases f with
  | moveImmediate dest value =>
    exact ⟨_, row 0 (by decide), rfl, first, has_general dest, has_number value⟩
  | move dest src => exact ⟨_, row 1 (by decide), rfl, first, has_general dest, has_general src⟩
  | loadSegment dest src =>
    exact ⟨_, row 2 (by decide), rfl, first, has_loadable dest, has_general src⟩
  | storeSegment dest src =>
    exact ⟨_, row 3 (by decide), rfl, first, has_general dest, has_segment src⟩
  | store dest src => exact ⟨_, row 4 (by decide), rfl, first, has_memory dest, has_general src⟩
  | load dest src => exact ⟨_, row 5 (by decide), rfl, first, has_general dest, has_memory src⟩
  | binary op dest src =>
    exact ⟨_, row 6 (by decide), rfl, name_mem_binaryMnemonics op, has_general dest, has_general src⟩
  | binaryImmediate op dest value =>
    exact ⟨_, row 7 (by decide), rfl, name_mem_binaryMnemonics op, has_general dest, has_number value⟩
  | unary op dest =>
    cases op with
    | inc => exact ⟨_, row 8 (by decide), rfl, first, has_general dest⟩
    | dec => exact ⟨_, row 8 (by decide), rfl, List.mem_cons_of_mem _ first, has_general dest⟩
    | not => exact ⟨_, row 9 (by decide), rfl, first, has_general dest⟩
    | neg => exact ⟨_, row 9 (by decide), rfl, List.mem_cons_of_mem _ first, has_general dest⟩
  | jump target => exact ⟨_, row 10 (by decide), rfl, first, has_number target⟩
  | call target => exact ⟨_, row 11 (by decide), rfl, first, has_number target⟩
  | ret => exact ⟨_, row 12 (by decide), rfl, first, trivial⟩
  | branch c target =>
    exact ⟨_, row 13 (by decide), rfl, name_mem_branchMnemonics c, has_number target⟩
  | loop target => exact ⟨_, row 14 (by decide), rfl, first, has_number target⟩
  | push src => exact ⟨_, row 15 (by decide), rfl, first, has_general src⟩
  | pop dest => exact ⟨_, row 16 (by decide), rfl, first, has_general dest⟩
  | pushFlags => exact ⟨_, row 17 (by decide), rfl, first, trivial⟩
  | popFlags => exact ⟨_, row 18 (by decide), rfl, first, trivial⟩
  | nop => exact ⟨_, row 19 (by decide), rfl, first, trivial⟩
  | halt => exact ⟨_, row 20 (by decide), rfl, first, trivial⟩
  | input => exact ⟨_, row 21 (by decide), rfl, first, List.mem_cons_self, List.mem_cons_self⟩
  | output => exact ⟨_, row 22 (by decide), rfl, first, List.mem_cons_self, List.mem_cons_self⟩

/-- What a row fits is written as some form of its kind is. -/
theorem tells_of_fits {s : Shape} (h : s ∈ table) {mnemonic : String} {ops : Operands}
    (fits : s.Fits mnemonic ops) : ∃ f : Form, f.Tells mnemonic ops ∧ f.kind = s.kind := by
  obtain ⟨named, operands⟩ := fits
  have only {name : String} (h : mnemonic ∈ [name]) : name = mnemonic :=
    (List.mem_singleton.mp h).symm
  simp only [table, List.mem_cons, List.not_mem_nil, or_false] at h
  -- The rows as they stand in the table.
  rcases h with rfl | rfl | rfl | rfl | rfl | rfl | rfl | rfl | rfl | rfl | rfl | rfl | rfl | rfl |
    rfl | rfl | rfl | rfl | rfl | rfl | rfl | rfl | rfl
  · obtain ⟨x, y, written⟩ := eq_two_of_hasAll general_givenBy number_givenBy operands
    exact ⟨.moveImmediate x y, ⟨only named, written⟩, rfl⟩
  · obtain ⟨x, y, written⟩ := eq_two_of_hasAll general_givenBy general_givenBy operands
    exact ⟨.move x y, ⟨only named, written⟩, rfl⟩
  · obtain ⟨x, y, written⟩ := eq_two_of_hasAll loadable_givenBy general_givenBy operands
    exact ⟨.loadSegment x y, ⟨only named, written⟩, rfl⟩
  · obtain ⟨x, y, written⟩ := eq_two_of_hasAll general_givenBy segment_givenBy operands
    exact ⟨.storeSegment x y, ⟨only named, written⟩, rfl⟩
  · obtain ⟨x, y, written⟩ := eq_two_of_hasAll memory_givenBy general_givenBy operands
    exact ⟨.store x y, ⟨only named, written⟩, rfl⟩
  · obtain ⟨x, y, written⟩ := eq_two_of_hasAll general_givenBy memory_givenBy operands
    exact ⟨.load x y, ⟨only named, written⟩, rfl⟩
  · obtain ⟨x, y, written⟩ := eq_two_of_hasAll general_givenBy general_givenBy operands
    obtain ⟨op, name⟩ := exists_of_mem_binaryMnemonics named
    exact ⟨.binary op x y, ⟨name, written⟩, rfl⟩
  · obtain ⟨x, y, written⟩ := eq_two_of_hasAll general_givenBy number_givenBy operands
    obtain ⟨op, name⟩ := exists_of_mem_binaryMnemonics named
    exact ⟨.binaryImmediate op x y, ⟨name, written⟩, rfl⟩
  · obtain ⟨x, written⟩ := eq_one_of_hasAll general_givenBy operands
    simp only [List.mem_cons, List.not_mem_nil, or_false] at named
    rcases named with rfl | rfl
    · exact ⟨.unary .inc x, ⟨rfl, written⟩, rfl⟩
    · exact ⟨.unary .dec x, ⟨rfl, written⟩, rfl⟩
  · obtain ⟨x, written⟩ := eq_one_of_hasAll general_givenBy operands
    simp only [List.mem_cons, List.not_mem_nil, or_false] at named
    rcases named with rfl | rfl
    · exact ⟨.unary .not x, ⟨rfl, written⟩, rfl⟩
    · exact ⟨.unary .neg x, ⟨rfl, written⟩, rfl⟩
  · obtain ⟨x, written⟩ := eq_one_of_hasAll number_givenBy operands
    exact ⟨.jump x, ⟨only named, written⟩, rfl⟩
  · obtain ⟨x, written⟩ := eq_one_of_hasAll number_givenBy operands
    exact ⟨.call x, ⟨only named, written⟩, rfl⟩
  · exact ⟨.ret, ⟨only named, eq_none_of_hasAll operands⟩, rfl⟩
  · obtain ⟨x, written⟩ := eq_one_of_hasAll number_givenBy operands
    obtain ⟨c, name⟩ := exists_of_mem_branchMnemonics named
    exact ⟨.branch c x, ⟨name, written⟩, rfl⟩
  · obtain ⟨x, written⟩ := eq_one_of_hasAll number_givenBy operands
    exact ⟨.loop x, ⟨only named, written⟩, rfl⟩
  · obtain ⟨x, written⟩ := eq_one_of_hasAll general_givenBy operands
    exact ⟨.push x, ⟨only named, written⟩, rfl⟩
  · obtain ⟨x, written⟩ := eq_one_of_hasAll general_givenBy operands
    exact ⟨.pop x, ⟨only named, written⟩, rfl⟩
  · exact ⟨.pushFlags, ⟨only named, eq_none_of_hasAll operands⟩, rfl⟩
  · exact ⟨.popFlags, ⟨only named, eq_none_of_hasAll operands⟩, rfl⟩
  · exact ⟨.nop, ⟨only named, eq_none_of_hasAll operands⟩, rfl⟩
  · exact ⟨.halt, ⟨only named, eq_none_of_hasAll operands⟩, rfl⟩
  · obtain ⟨-, -, written⟩ := eq_two_of_hasAll (only_givenBy .ax) (only_givenBy .dx) operands
    exact ⟨.input, ⟨only named, written⟩, rfl⟩
  · obtain ⟨-, -, written⟩ := eq_two_of_hasAll (only_givenBy .dx) (only_givenBy .ax) operands
    exact ⟨.output, ⟨only named, written⟩, rfl⟩

/-! ## Rows apart -/

/-- Rows that fit no instruction at once, by their mnemonics or by their operands. -/
def Apart (s t : Shape) : Prop :=
  (∀ name ∈ s.mnemonics, name ∉ t.mnemonics) ∨ ListsApart s.operands t.operands

instance (s t : Shape) : Decidable (s.Apart t) := inferInstanceAs (Decidable (_ ∨ _))

theorem table_apart : ∀ s ∈ table, ∀ t ∈ table, s = t ∨ s.Apart t := by
  decide +kernel

/-- No instruction is fitted by two rows. -/
theorem eq_of_fits {s t : Shape} (hs : s ∈ table) (ht : t ∈ table) {mnemonic : String}
    {ops : Operands} (fits : s.Fits mnemonic ops) (fits' : t.Fits mnemonic ops) : s = t := by
  rcases table_apart s hs t ht with same | names | operands
  · exact same
  · exact absurd fits'.1 (names mnemonic fits.1)
  · exact absurd fits'.2 (operands.not_hasAll fits.2)

end Shape

/-! ## Recognition by the table -/

/-- An instruction has a form just if a row fits it, and the form is of the kind of that row. -/
theorem Shape.ofInstruction?_of_fits {s : Shape} (h : s ∈ table) {i : Instruction}
    (fits : s.Fits i.mnemonic i.operands) :
    ∃ f, Form.ofInstruction? i = some f ∧ f.kind = s.kind := by
  obtain ⟨f, tells, kind⟩ := tells_of_fits h fits
  exact ⟨f, Form.ofInstruction?_eq_some_iff.mpr tells, kind⟩

theorem Form.exists_row {i : Instruction} {f : Form} (h : ofInstruction? i = some f) :
    ∃ s ∈ Shape.table, s.kind = f.kind ∧ s.Fits i.mnemonic i.operands := by
  obtain ⟨mnemonic, operands⟩ := ofInstruction?_eq_some_iff.mp h
  obtain ⟨s, row, kind, fits⟩ := Shape.fits_form f
  rw [mnemonic, operands, Shape.fits_plain] at fits
  exact ⟨s, row, kind, fits⟩

theorem Form.ofInstruction?_eq_none {i : Instruction}
    (unfit : ∀ s ∈ Shape.table, ¬s.Fits i.mnemonic i.operands) : ofInstruction? i = none := by
  rw [Option.eq_none_iff_forall_ne_some]
  intro f h
  obtain ⟨s, row, -, fits⟩ := exists_row h
  exact unfit s row fits

/-- An instruction is recognised as of a kind just if a row of that kind fits it. -/
theorem Instruction.kind_eq_iff {i : Instruction} {kind : String} (known : kind ≠ "UNRECOGNIZED") :
    i.kind = kind ↔ ∃ s ∈ Shape.table, s.kind = kind ∧ s.Fits i.mnemonic i.operands := by
  unfold Instruction.kind
  constructor
  · intro h
    cases hf : Form.ofInstruction? i with
    | none =>
      rw [hf] at h
      exact absurd h.symm known
    | some f =>
      rw [hf] at h
      obtain ⟨s, row, same, fits⟩ := Form.exists_row hf
      exact ⟨s, row, same.trans h, fits⟩
  · rintro ⟨s, row, rfl, fits⟩
    obtain ⟨f, found, kind⟩ := Shape.ofInstruction?_of_fits row fits
    rw [found]
    exact kind

end BusCycle
