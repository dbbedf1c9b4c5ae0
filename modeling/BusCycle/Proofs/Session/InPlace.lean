-- Operations told as what they really are: changes in place, made one after another in a fixed order,
-- which a fault cuts short. What was changed before a fault stays changed. They come to the same as the
-- operations that give a whole new session or none.
import BusCycle.Proofs.Session.Operations

namespace BusCycle

/-- A session that is neither idle nor halted takes the line that it stands at. -/
theorem Session.nextLine?_of_going {s : Session} (going : s.phase = .loaded ∨ s.phase = .running) :
    s.nextLine? = s.program[s.pc]? := by
  unfold nextLine?
  rcases going with phase | phase <;> rw [phase]

/-! ## Operations as changes in place -/

/-- Changes of a session, made one after another. A fault ends them early, and what was changed by
then stays changed. -/
abbrev Changes (ε α : Type) := ExceptT ε (StateM Session) α

namespace InPlace

def setWidth (width : Datum) : Changes ConfigError Unit := do
  let w ← ofExcept (BusWidth.check width)
  modify fun s => { s with width := w }

def load (text : String) (width : Option Datum) : Changes LoadError Unit := do
  let w ← match width with
    | none => do pure (← get).width
    | some d => ofExcept ((BusWidth.check d).mapError .config)
  let program := Program.clean text
  if program.isEmpty then throw .emptyProgram
  modify fun s => { s with width := w }
  modify fun s =>
    { s with machine := .fresh s.config.preset.registers w, program, pc := 0, flow := [] }
  modify fun s => { s with phase := .loaded }

def reset : StateM Session Unit := do
  modify fun s =>
    { s with
      machine := .fresh s.config.preset.registers s.width, program := [], pc := 0, flow := [] }
  modify fun s => { s with phase := .idle }

/-- The part of a step that comes after its line was read. It answers with the log of the step. -/
def executeLine (line : String) (i : Instruction) : StateM Session String := do
  modify fun s => { s with machine := { s.machine with width := s.width } }
  modify fun s => { s with machine := { s.machine with bus := s.machine.bus.beginStep } }
  let start := (← get).machine.bus.step
  let assembled := Assembled.ofInstruction i (← get).machine.registers.ip
  modify fun s => { s with machine := s.machine.fetch assembled.code }
  modify fun s => { s with machine := s.machine.execute assembled }
  let text := (← get).machine.bus.text
  modify fun s =>
    { s with flow := s.flow ++ [⟨s.pc, line, text, start, s.machine.bus.step⟩] }
  modify fun s => { s with pc := s.pc + 1 }
  modify fun s => { s with phase := if s.pc < s.program.length then .running else .halted }
  return text

/-- A line read, and executed if it is an instruction. -/
def takeLine (index : Nat) (line : String) : StateM Session (Except ConversionFault StepResult) :=
  match Instruction.parse line (index + 1) with
  | .error (.fault e) => return .ok (.rejected index line e)
  | .error (.conversion c) => return .error c
  | .ok i => return .ok (.executed index line (← executeLine line i))

def step : StateM Session (Except ConversionFault StepResult) := do
  let s ← get
  match s.phase with
  | .idle => return .ok .noProgram
  | .halted => return .ok .halted
  | .loaded | .running =>
    match s.program[s.pc]? with
    | some line => takeLine s.pc line
    | none => return .ok .halted

/-- The fault that changes ended with. -/
def faultOf {ε : Type} : Except ε Unit → Option ε
  | .ok () => none
  | .error e => some e

/-- An operation as changes in place. A run only makes steps, and it is left as it is. -/
def perform : Operation → StateM Session Answer
  | .load text width => return .loaded (faultOf (← (load text width).run))
  | .reset => do
    reset
    return .reset
  | .step => return .stepped (← step)
  | .run delay limits =>
    modifyGet fun s => (.ran (s.run delay limits).answer, (s.run delay limits).session)
  | .setWidth width => return .widthSet (faultOf (← (setWidth width).run))

/-! ## The two tellings agree -/

theorem run_setWidth (width : Datum) (s : Session) :
    (setWidth width).run.run s =
      match s.setWidth width with
      | .ok next => (.ok (), next)
      | .error e => (.error e, s) := by
  unfold setWidth Session.setWidth
  cases BusWidth.check width <;> rfl

theorem run_load (text : String) (width : Option Datum) (s : Session) :
    (load text width).run.run s =
      match s.load text width with
      | .ok next => (.ok (), next)
      | .error e => (.error e, s) := by
  cases width with
  | none =>
    rw [Session.load_none]
    unfold load
    by_cases empty : (Program.clean text).isEmpty = true
    · simp only [if_pos empty]
      rfl
    · simp only [if_neg empty]
      rfl
  | some d =>
    rcases checked : BusWidth.check d with e | w
    · rw [Session.load_of_check_error checked]
      unfold load
      simp only [checked]
      rfl
    · rw [Session.load_of_check checked]
      unfold load
      simp only [checked]
      by_cases empty : (Program.clean text).isEmpty = true
      · simp only [if_pos empty]
        rfl
      · simp only [if_neg empty]
        rfl

theorem run_takeLine (line : String) (s : Session) :
    (takeLine s.pc line).run s =
      match Instruction.parse line (s.pc + 1) with
      | .error failure => (StepResult.ofFailure s.pc line failure, s)
      | .ok i =>
        (.ok (.executed s.pc line (s.advance line i).machine.bus.text), s.advance line i) := by
  unfold takeLine
  rcases Instruction.parse line (s.pc + 1) with ⟨⟨e⟩ | ⟨c⟩⟩ | i <;> rfl

theorem run_step_of_going {s : Session} (going : s.phase = .loaded ∨ s.phase = .running) :
    step.run s = s.step := by
  have taken : step.run s =
      match s.program[s.pc]? with
      | some line => (takeLine s.pc line).run s
      | none => (.ok .halted, s) := by
    rcases going with phase | phase <;>
      · simp only [step, StateT.run_bind, StateT.run_get, pure_bind, phase]
        cases s.program[s.pc]? <;> rfl
  have started : s.phase ≠ .idle := by
    rcases going with phase | phase <;> rw [phase] <;> decide
  rw [taken, Session.step, Session.nextLine?_of_going going]
  cases s.program[s.pc]? with
  | none => rw [if_neg started]
  | some line => exact run_takeLine line s

theorem run_step (s : Session) : step.run s = s.step := by
  rcases phase : s.phase with _ | _ | _ | _
  · rw [Session.step_of_none (by rw [Session.nextLine?, phase]), if_pos phase]
    simp only [step, StateT.run_bind, StateT.run_get, pure_bind, phase]
    rfl
  · exact run_step_of_going (Or.inl phase)
  · exact run_step_of_going (Or.inr phase)
  · rw [Session.step_of_none (by rw [Session.nextLine?, phase]), phase]
    simp only [step, StateT.run_bind, StateT.run_get, pure_bind, phase]
    rfl

theorem run_perform (op : Operation) (s : Session) : (perform op).run s = s.perform op := by
  cases op with
  | load text width =>
    simp only [perform, Session.perform, StateT.run_bind]
    rw [run_load]
    cases s.load text width <;> rfl
  | reset => rfl
  | step =>
    simp only [perform, Session.perform, StateT.run_bind, run_step]
    rfl
  | run delay limits => rfl
  | setWidth width =>
    simp only [perform, Session.perform, StateT.run_bind]
    rw [run_setWidth]
    cases s.setWidth width <;> rfl

end InPlace

end BusCycle
