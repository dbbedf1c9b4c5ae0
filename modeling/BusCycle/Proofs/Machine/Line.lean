-- What a line of a program comes to on a machine: the form of its instruction, its machine code, and
-- the word that it moves between the processor and the memory. The machine after the line is told by
-- these.
import BusCycle.Proofs.Machine.Frame
import BusCycle.Proofs.Session.LinearFlow

namespace BusCycle

/-! ## Kinds that move a word -/

namespace Form

/-- The kinds of instruction that move a word between the processor and the memory. -/
def wordKinds : List String :=
  ["MOV_MEM_REG", "MOV_REG_MEM", "PUSH_REG", "POP_REG", "PUSHF", "POPF", "CALL_NEAR", "RET_NEAR"]

theorem isSome_access?_iff (f : Form) (r : Registers) :
    (f.access? r).isSome ↔ f.kind ∈ wordKinds := by
  cases f with
  | unary op _ => cases op <;> simp [access?, kind, wordKinds]
  | _ => simp [access?, kind, wordKinds]

/-- A reference to a word is never a fetch. -/
theorem kind_place_access? {f : Form} {r : Registers} {access : WordAccess}
    (h : f.access? r = some access) : access.place.kind = .data := by
  cases f with
  | store | load | push | pop | pushFlags | popFlags | call | ret =>
    cases h
    rfl
  | _ => cases h

end Form

/-! ## What is on a line -/

namespace Program

/-- The form of the instruction on a line, if it is one of a known form. -/
def form? (line : String) : Option Form :=
  (Instruction.parse line 0).toOption.bind Form.ofInstruction?

/-- The instruction on a line moves a word between the processor and the memory. -/
def MovesWord (line : String) : Prop := Form.kindOf (form? line) ∈ Form.wordKinds

instance (line : String) : Decidable (MovesWord line) :=
  inferInstanceAs (Decidable (_ ∈ _))

/-- The number of a line does not matter to its form. -/
theorem form?_of_parse {line : String} {n : Int} {i : Instruction}
    (h : Instruction.parse line n = .ok i) : form? line = Form.ofInstruction? i := by
  unfold form?
  rw [Instruction.parse_renumber h 0]
  rfl

end Program

namespace Machine

/-- The machine code of a line at the instruction pointer. -/
def codeOf (m : Machine) (line : String) : List CodeByte :=
  (Assembled.ofLine line m.registers.ip 0).toOption.elim [] Assembled.code

/-- The machine after the fetch of a line. -/
def fetched (m : Machine) (line : String) : Machine := m.fetch (m.codeOf line)

/-- The word that a line moves between the processor and the memory. -/
def lineAccess? (m : Machine) (line : String) : Option WordAccess :=
  (Program.form? line).bind (·.access? (m.fetched line).registers)

variable {m : Machine} {line : String}

theorem codeOf_of_parse {n : Int} {i : Instruction} (h : Instruction.parse line n = .ok i)
    (m : Machine) : m.codeOf line = (Assembled.ofInstruction i m.registers.ip).code := by
  unfold codeOf Assembled.ofLine
  rw [Instruction.parse_renumber h 0]
  show (Assembled.ofInstruction { i with lineNumber := 0 } m.registers.ip).code = _
  rw [Assembled.ofInstruction_renumber]

theorem lineAccess?_of_parse {n : Int} {i : Instruction} (h : Instruction.parse line n = .ok i)
    (m : Machine) :
    m.lineAccess? line = m.cycleAccess? (.ofInstruction i m.registers.ip) := by
  unfold lineAccess? cycleAccess? fetched Assembled.access?
  rw [Program.form?_of_parse h, codeOf_of_parse h, Assembled.form_ofInstruction]

theorem isSome_lineAccess?_iff (m : Machine) (line : String) :
    (m.lineAccess? line).isSome ↔ Program.MovesWord line := by
  unfold lineAccess? Program.MovesWord
  cases Program.form? line with
  | none => simp [Form.kindOf, Form.wordKinds]
  | some f => exact f.isSome_access?_iff _

theorem kind_place_lineAccess? {access : WordAccess} (h : m.lineAccess? line = some access) :
    access.place.kind = .data := by
  obtain ⟨f, _, moved⟩ := Option.bind_eq_some_iff.mp h
  exact Form.kind_place_access? moved

/-! ## The machine after a line -/

theorem runLine_cases (m : Machine) (line : String) :
    (m.runLine line = m ∧ m.codeOf line = [] ∧ Program.form? line = none) ∨
      ∃ i, m.runLine line =
          { m with bus := m.bus.beginStep }.cycle (.ofInstruction i m.registers.ip) ∧
        m.codeOf line = (Assembled.ofInstruction i m.registers.ip).code ∧
        Program.form? line = Form.ofInstruction? i := by
  unfold runLine codeOf Program.form? Assembled.ofLine
  rcases Instruction.parse line 0 with e | i
  · exact Or.inl ⟨rfl, rfl, rfl⟩
  · exact Or.inr ⟨i, rfl, rfl, rfl⟩

theorem registers_runLine (m : Machine) (line : String) :
    (m.runLine line).registers =
      (Program.form? line).elim (m.fetched line).registers fun f =>
        f.registersAfter (m.fetched line).registers
          ((m.fetched line).wordRead (m.lineAccess? line)) := by
  unfold lineAccess? fetched
  rcases m.runLine_cases line with ⟨same, code, form⟩ | ⟨i, run, code, form⟩
  · rw [same, code, form, registers_fetch]
    simp
  · rw [run, code, form, registers_cycle, ← Assembled.form_ofInstruction i m.registers.ip]
    rfl

theorem memory_runLine (m : Machine) (line : String) :
    (m.runLine line).memory =
      (m.lineAccess? line).elim (m.fetched line).memory (·.memoryAfter (m.fetched line).memory) := by
  unfold lineAccess? fetched
  rcases m.runLine_cases line with ⟨same, code, form⟩ | ⟨i, run, code, form⟩
  · rw [same, code, form]
    rfl
  · rw [run, code, form, memory_cycle, ← Assembled.form_ofInstruction i m.registers.ip]
    rfl

end Machine

end BusCycle
