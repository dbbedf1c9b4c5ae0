-- Instructions of no known form. Where the table of shapes has no row for an instruction, its code is
-- placeholders, and a step of it passes over them: it fetches them and does nothing else.
import BusCycle.Proofs.Bus.FetchCycle
import BusCycle.Proofs.Instruction.Shapes

namespace BusCycle

/-! ## Placeholders -/

namespace Assembled

/-- The number of bytes that take the place of an instruction: one, or two if it has operands. -/
def placeholderCount (i : Instruction) : Nat := if i.operands = .none then 1 else 2

theorem placeholders_eq (i : Instruction) :
    placeholders i = List.replicate (placeholderCount i) ⟨0x90, "Byte"⟩ := by
  unfold placeholders placeholderCount
  cases i.operands <;> rfl

theorem code_of_unknown {i : Instruction} (unknown : Form.ofInstruction? i = none) (ip : Word) :
    (ofInstruction i ip).code = List.replicate (placeholderCount i) ⟨0x90, "Byte"⟩ := by
  rw [← placeholders_eq, ofInstruction, unknown]

end Assembled

/-! ## Cycles -/

namespace Machine

theorem cycleAccess?_of_unknown (m : Machine) {a : Assembled} (unknown : a.form = none) :
    m.cycleAccess? a = none := by
  rw [cycleAccess?, Assembled.access?, unknown, Option.bind_none]

/-- The registers after a cycle of an unknown instruction are those after its fetch, and so is the
memory. -/
theorem registers_cycle_of_unknown (m : Machine) {a : Assembled} (unknown : a.form = none) :
    (m.cycle a).registers = (m.fetch a.code).registers := by
  rw [registers_cycle, Assembled.registersAfter, unknown, Option.elim_none]

theorem memory_cycle_of_unknown (m : Machine) {a : Assembled} (unknown : a.form = none) :
    (m.cycle a).memory = (m.fetch a.code).memory := by
  rw [memory_cycle, m.cycleAccess?_of_unknown unknown, Option.elim_none]

theorem cycleTransfers_of_unknown (m : Machine) {a : Assembled} (unknown : a.form = none) :
    m.cycleTransfers a = m.codeTransfers a.code := by
  rw [cycleTransfers, m.cycleAccess?_of_unknown unknown, accessTransfers, Option.elim_none,
    List.append_nil]

end Machine

/-! ## Steps -/

namespace Session

/-- What a step from `s` to `t` does that passes over so many placeholders. -/
structure PassesOver (s : Session) (count : Nat) (t : Session) : Prop where
  ip : t.machine.registers.ip.toNat = (s.machine.registers.ip.toNat + count) % 65536
  registers : ∀ r : Register, r ≠ .ip → t.machine.registers.get r = s.machine.registers.get r
  code : ∀ n < count, t.machine.memory.cell? (s.machine.codeCell n) = some ⟨0x90, "Byte"⟩
  memory : ∀ a : Address, (∀ n < count, a ≠ s.machine.codeCell n) →
    t.machine.memory.cell? a = s.machine.memory.cell? a
  transactions : ∀ x ∈ t.machine.bus.transactions, x.kind = .fetch

theorem passesOver_advance (s : Session) (line : String) {i : Instruction}
    (unknown : Form.ofInstruction? i = none) :
    PassesOver s (Assembled.placeholderCount i) (s.advance line i) := by
  have form : (s.assemble i).form = none := by
    rw [assemble, Assembled.form_ofInstruction, unknown]
  have code : (s.assemble i).code =
      List.replicate (Assembled.placeholderCount i) ⟨0x90, "Byte"⟩ :=
    Assembled.code_of_unknown unknown _
  have length : (s.assemble i).code.length = Assembled.placeholderCount i := by
    rw [code, List.length_replicate]
  have registers : (s.advance line i).machine.registers =
      (s.ready.fetch (s.assemble i).code).registers :=
    s.ready.registers_cycle_of_unknown form
  have memory : (s.advance line i).machine.memory = (s.ready.fetch (s.assemble i).code).memory :=
    s.ready.memory_cycle_of_unknown form
  constructor
  case ip =>
    rw [registers, Machine.registers_fetch, length]
    simp only [BitVec.toNat_add, BitVec.toNat_ofNat, Nat.add_mod_mod]
    rfl
  case registers =>
    intro r ne
    rw [registers]
    exact s.machine.registers.get_setIp _ ne
  case code =>
    intro n inside
    rw [memory]
    refine s.ready.cell?_fetch_codeCell ?_ (b := ⟨0x90, "Byte"⟩) ?_
    · rw [length, Assembled.placeholderCount]
      split <;> decide
    · rw [code, List.getElem?_replicate, if_pos inside]
  case memory =>
    intro a apart
    rw [memory]
    apply s.ready.cell?_fetch
    rw [Machine.mem_codeCells_iff, length]
    rintro ⟨n, inside, rfl⟩
    exact apart n inside rfl
  case transactions =>
    intro x hx
    rw [transactions_advance, s.ready.cycleTransfers_of_unknown form] at hx
    exact (s.ready.fetchTransactions_numbered (s.assemble i).code).kind x hx

end Session

/-! ## The boundary -/

/-- What is known ends with the table. An instruction is recognised as of a kind just if a row of that
kind fits it, and no two rows fit one instruction. If none does, the code is placeholders wherever the
instruction is assembled, and a step of it passes over them. -/
theorem known_just_by_table (i : Instruction) :
    (∀ kind, kind ≠ "UNRECOGNIZED" →
      (i.kind = kind ↔ ∃ s ∈ Shape.table, s.kind = kind ∧ s.Fits i.mnemonic i.operands)) ∧
    (∀ s ∈ Shape.table, ∀ t ∈ Shape.table, s.Fits i.mnemonic i.operands →
      t.Fits i.mnemonic i.operands → s = t) ∧
    ((∀ s ∈ Shape.table, ¬s.Fits i.mnemonic i.operands) →
      let count := if i.operands = .none then 1 else 2
      i.kind = "UNRECOGNIZED" ∧
      (∀ ip, (Assembled.ofInstruction i ip).code = List.replicate count ⟨0x90, "Byte"⟩) ∧
      ∀ (s : Session) (line : String), s.nextLine? = some line →
        Instruction.parse line (s.pc + 1) = .ok i →
        s.executes = true ∧ s.PassesOver count s.step.2) := by
  refine ⟨?known, ?once, ?unknown⟩
  case known =>
    intro kind known
    exact Instruction.kind_eq_iff known
  case once =>
    intro s hs t ht fits fits'
    exact Shape.eq_of_fits hs ht fits fits'
  case unknown =>
    intro unfit
    have unknown := Form.ofInstruction?_eq_none unfit
    refine ⟨?_, Assembled.code_of_unknown unknown, ?_⟩
    · rw [Instruction.kind, unknown]
      rfl
    · intro s line hl hi
      have step := Session.step_of_ok hl hi
      rw [step]
      exact ⟨Session.executes_of_ok (congrArg Prod.fst step), s.passesOver_advance line unknown⟩

/-- A session that has loaded a store to a place that the machine does not address. -/
def atStrangePlace : Session := (Session.new .default).performAll [.load "mov [bx], ax" none]

/-- With `SI` in the brackets the store is known, by one row only. With `BX` no row fits it, and the
step fetches two placeholders. -/
theorem passesOver_atStrangePlace :
    let stored : Instruction := ⟨"MOV", .two (.indirect "SI") (.register "AX"), "MOV [SI], AX", 1⟩
    let strange : Instruction := ⟨"MOV", .two (.indirect "BX") (.register "AX"), "MOV [BX], AX", 1⟩
    let row : Shape := ⟨"MOV_MEM_REG", ["MOV"], [.memory, .general]⟩
    stored.kind = row.kind ∧
      (∀ t ∈ Shape.table, t.Fits stored.mnemonic stored.operands → t = row) ∧
      (∀ s ∈ Shape.table, ¬s.Fits strange.mnemonic strange.operands) ∧
      strange.kind = "UNRECOGNIZED" ∧
      atStrangePlace.nextLine? = some "MOV [BX], AX" ∧
      Instruction.parse "MOV [BX], AX" (atStrangePlace.pc + 1) = .ok strange ∧
      atStrangePlace.PassesOver 2 atStrangePlace.step.2 ∧
      atStrangePlace.step.2.machine.bus.transactions.map (·.data) = [0x9090] := by
  intro stored strange row
  have listed : row ∈ Shape.table := by decide +kernel
  have fits : row.Fits stored.mnemonic stored.operands := by decide +kernel
  have unfit : ∀ s ∈ Shape.table, ¬s.Fits strange.mnemonic strange.operands := by decide +kernel
  have line : atStrangePlace.nextLine? = some "MOV [BX], AX" := by decide +kernel
  have read : Instruction.parse "MOV [BX], AX" (atStrangePlace.pc + 1) = .ok strange := by
    decide +kernel
  obtain ⟨recognised, once, -⟩ := known_just_by_table stored
  obtain ⟨-, -, unknown⟩ := known_just_by_table strange
  obtain ⟨kind, -, steps⟩ := unknown unfit
  refine ⟨?_, ?_, unfit, kind, line, read, (steps atStrangePlace _ line read).2, ?_⟩
  · exact (recognised row.kind (by decide)).mpr ⟨row, listed, rfl, fits⟩
  · intro t ht fits'
    exact once t ht row listed fits' fits
  · decide +kernel

end BusCycle
