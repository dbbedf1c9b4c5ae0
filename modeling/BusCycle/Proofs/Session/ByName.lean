-- A step told by names: the line is looked up in the program, and it is encoded, fetched and executed
-- with every name looked up in its table. In a session that operations lead to, nothing that a step
-- asks for is missing, and it answers as ever. It breaks off only at a literal of too many digits.
import BusCycle.Proofs.Instruction.Literals
import BusCycle.Proofs.Machine.ByName
import BusCycle.Proofs.Session.Failure

namespace BusCycle

/-! ## Numbers as bytes -/

/-- The byte that a number is, if it is one. -/
def RawByte.toCode (b : RawByte) : Except Lapse CodeByte :=
  if 0 ≤ b.value ∧ b.value ≤ 255 then .ok ⟨BitVec.ofInt 8 b.value, b.tag⟩
  else .error (.noByte b.value)

theorem RawByte.toCode_ofCode (b : CodeByte) : (ofCode b).toCode = .ok b := by
  have same : BitVec.ofInt 8 (b.value.toNat : Int) = b.value := by simp
  rw [toCode, if_pos (value_ofCode b), ofCode, same]

theorem RawByte.mapM_toCode (code : List CodeByte) :
    (code.map ofCode).mapM toCode = .ok code := by
  induction code with
  | nil => rfl
  | cons b rest ih =>
    rw [List.map_cons, List.mapM_cons, toCode_ofCode, Lapse.ok_bind, ih]
    rfl

namespace Session

/-! ## A step -/

/-- The session after an instruction of line `line` was fetched and executed. -/
def advanceByName (s : Session) (line : String) (i : Instruction) : Except Lapse Session := do
  let code ← (← i.encodeByName s.machine.registers.ip.toNat).mapM RawByte.toCode
  let m ← (s.ready.fetch code).executeByName i
  return { s with
    machine := m
    pc := s.pc + 1
    flow := s.flow ++ [⟨s.pc, line, m.bus.text, s.machine.bus.step, m.bus.step⟩]
    phase := if s.pc + 1 < s.program.length then .running else .halted }

/-- One step, and the session after it. -/
def stepByName (s : Session) : Except Lapse (Except ConversionFault StepResult × Session) :=
  match s.phase with
  | .idle => .ok (.ok .noProgram, s)
  | .halted => .ok (.ok .halted, s)
  | .loaded | .running =>
    match s.program[s.pc]? with
    | none => .error (.noLine s.pc)
    | some line =>
      match Instruction.parse line (s.pc + 1) with
      | .error failure => .ok (StepResult.ofFailure s.pc line failure, s)
      | .ok i => do
        let next ← s.advanceByName line i
        return (.ok (.executed s.pc line next.machine.bus.text), next)

theorem advanceByName_eq (s : Session) (line : String) (i : Instruction) :
    s.advanceByName line i = .ok (s.advance line i) := by
  unfold advanceByName
  rw [i.encodeByName_eq, Lapse.ok_bind, RawByte.mapM_toCode, Lapse.ok_bind,
    Machine.executeByName_eq _ i s.machine.registers.ip]
  rfl

/-- With a next line, a step asks for nothing that is missing. -/
theorem stepByName_of_going {s : Session} {line : String}
    (going : s.phase = .loaded ∨ s.phase = .running) (next : s.program[s.pc]? = some line) :
    s.stepByName = .ok s.step := by
  have here : s.nextLine? = some line := (nextLine?_of_going going).trans next
  have asked : s.stepByName =
      match Instruction.parse line (s.pc + 1) with
      | .error failure => .ok (StepResult.ofFailure s.pc line failure, s)
      | .ok i => do
        let next ← s.advanceByName line i
        return (.ok (.executed s.pc line next.machine.bus.text), next) := by
    unfold stepByName
    rcases going with phase | phase <;> rw [phase] <;> simp only [next]
  rw [asked]
  rcases read : Instruction.parse line (s.pc + 1) with failure | i
  · rw [step_of_error here read]
  · rw [step_of_ok here read]
    simp only [advanceByName_eq]
    rfl

theorem Reachable.stepByName_eq {c : Config} {s : Session} (reachable : Reachable c s) :
    s.stepByName = .ok s.step := by
  have going (phase : s.phase = .loaded ∨ s.phase = .running) : s.stepByName = .ok s.step := by
    obtain ⟨line, next⟩ := reachable.nextLine?_of_going phase
    exact stepByName_of_going phase next
  rcases phase : s.phase with _ | _ | _ | _
  · rw [stepByName, phase, step, nextLine?, phase]
    rfl
  · exact going (Or.inl phase)
  · exact going (Or.inr phase)
  · rw [stepByName, phase, step, nextLine?, phase]
    rfl

/-- A step gives a result if the program has no literal that is too long. -/
theorem exists_step_eq_ok {s : Session}
    (short : ∀ line ∈ s.program, Instruction.ShortLiterals line) :
    ∃ result next, s.step = (.ok result, next) := by
  rcases s.step_cases with ended | ⟨line, failure, found, failed⟩ | ⟨line, i, found, read⟩
  · exact ⟨_, _, step_of_none ended⟩
  · have mem : line ∈ s.program := List.mem_of_getElem? (getElem?_of_nextLine? found)
    obtain ⟨e, rfl⟩ := Instruction.fault_of_parse (short line mem) failed
    exact ⟨_, _, step_of_error found failed⟩
  · exact ⟨_, _, step_of_ok found read⟩

/-- In every session that operations lead to, with no decimal literal of more than 4300 digits in
the program, a step comes to a result and asks for nothing that is missing: neither for the line nor
for a byte of the code, for an operand or for an entry of a table. The reason is that every
instruction has what its kind asks for, wherever it stands and whatever the machine is: its encoder
and its handler come to their end, an operand in memory without a base has a displacement, and the
encoder makes one to four numbers, all of which are bytes. -/
theorem steps_never_ask_in_vain {c : Config} {s : Session} (reachable : Reachable c s)
    (short : ∀ line ∈ s.program, Instruction.ShortLiterals line) :
    (∃ result next, s.stepByName = .ok (.ok result, next) ∧ s.step = (.ok result, next)) ∧
      ∀ (i : Instruction) (ip : Word) (m : Machine),
        (∃ numbers, i.encodeByName ip.toNat = .ok numbers ∧
          1 ≤ numbers.length ∧ numbers.length ≤ 4 ∧
          ∀ b ∈ numbers, 0 ≤ b.value ∧ b.value ≤ 255) ∧
        m.executeByName i = .ok (m.execute (.ofInstruction i ip)) ∧
        ∀ side, i.baseAt side = .ok none → ∃ d, i.displacementAt side = .ok d := by
  obtain ⟨result, next, step⟩ := exists_step_eq_ok short
  refine ⟨⟨result, next, step ▸ reachable.stepByName_eq, step⟩,
    fun i ip m => ⟨⟨_, i.encodeByName_eq ip, ?_⟩, ?_, ?_⟩⟩
  · obtain ⟨positive, few⟩ := Assembled.length_code i ip
    rw [List.length_map]
    refine ⟨positive, few, fun b mem => ?_⟩
    obtain ⟨code, -, rfl⟩ := List.mem_map.mp mem
    exact RawByte.value_ofCode code
  · exact m.executeByName_eq i ip
  · exact fun side noBase => Operand.displacementOf_of_baseOf noBase

/-- A session at a line that stores at a place without a base. -/
def atStore : Session := (new .default).performAll [.load "MOV AX, 12\nMOV [-2], AX" none, .step]

/-- Its step comes to its end, and so do the encoder and the handler of its line. -/
theorem atStore_step :
    let store : Instruction := ⟨"MOV", .two (.direct 0xFFFE) (.register "AX"), "MOV [-2], AX", 2⟩
    atStore.program[atStore.pc]? = some store.text ∧
      (∃ result next, atStore.stepByName = .ok (.ok result, next) ∧
        atStore.step = (.ok result, next)) ∧
      store.encodeByName 0 = .ok [.opcode 0xA3, ⟨0xFE, "Displacement low"⟩,
        ⟨0xFF, "Displacement high"⟩] ∧
      ∃ d, store.displacementAt .dest = .ok d := by
  intro store
  have reachable : Reachable .default atStore := reachable_performAll .default _
  have short : ∀ line ∈ atStore.program, Instruction.ShortLiterals line := by decide +kernel
  obtain ⟨steps, every⟩ := steps_never_ask_in_vain reachable short
  obtain ⟨-, -, displaced⟩ := every store 0 atStore.machine
  exact ⟨by decide +kernel, steps, by rfl, displaced .dest rfl⟩

end Session

end BusCycle
