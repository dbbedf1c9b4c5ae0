-- Sessions: a machine with a program, one line of which is fetched and executed by each step.
-- The flow is linear: a jump moves the instruction pointer, but the next step takes the next line.
import BusCycle.Config.Basic
import BusCycle.Machine.Execute
import BusCycle.Program

namespace BusCycle

/-! ## Parts of a session -/

/-- How far a session is. -/
inductive Phase
  | idle
  | loaded
  | running
  | halted
  deriving DecidableEq

def Phase.name : Phase → String
  | idle => "idle"
  | loaded => "loaded"
  | running => "running"
  | halted => "halted"

/-- One executed step: the line, its log, and the bus steps before and after it. -/
structure FlowEntry where
  index : Nat
  instruction : String
  log : String
  stepStart : Int
  stepEnd : Int
  deriving DecidableEq

/-- A line with its place in the program, in hexadecimal. -/
def stepTitle (index : Nat) (line : String) : String :=
  "[" ++ Text.hex 2 index ++ "] " ++ line

/-- A step as text: the line and its log. -/
def FlowEntry.render (e : FlowEntry) : String := stepTitle e.index e.instruction ++ "\n" ++ e.log

/-- A session. The machine has the bus width of the last load, reset or executed step; `width` is
the setting, which the next of these will use. -/
structure Session where
  config : Config
  width : BusWidth
  machine : Machine
  program : List String
  pc : Nat
  flow : List FlowEntry
  phase : Phase
  deriving DecidableEq

/-! ## Results -/

/-- Why a program is not loaded. -/
inductive LoadError
  | config (e : ConfigError)
  | emptyProgram

/-- What a message says about a program that is not loaded. -/
def LoadError.message : LoadError → String
  | config e => e.message
  | emptyProgram => "No valid code found: program has no instruction lines"

/-- What a step did, if it came to its end. -/
inductive StepResult
  | executed (index : Nat) (line log : String)
  | halted
  | rejected (index : Nat) (line : String) (error : LineError)
  | noProgram
  deriving DecidableEq

namespace StepResult

def outcome : StepResult → String
  | executed .. => "EXECUTED"
  | halted => "HALTED"
  | rejected .. => "PARSE_ERROR"
  | noProgram => "NO_PROGRAM"

def ok : StepResult → Bool
  | executed .. => true
  | _ => false

/-- The index of the line that the step is about. -/
def index? : StepResult → Option Nat
  | executed i _ _ | rejected i _ _ => some i
  | _ => none

/-- The line that the step is about. -/
def line : StepResult → String
  | executed _ l _ | rejected _ l _ => l
  | _ => ""

def log : StepResult → String
  | executed _ _ t => t
  | _ => ""

def error? : StepResult → Option LineError
  | rejected _ _ e => some e
  | _ => none

/-- What a step comes to at a line that is not read. A fault of the line is its result, and digits that
are not converted break it off. -/
def ofFailure (index : Nat) (line : String) :
    ReadFailure LineError → Except ConversionFault StepResult
  | .fault e => .ok (rejected index line e)
  | .conversion c => .error c

end StepResult

namespace Session

/-! ## Loading and resetting -/

/-- A new session: no program, and a machine as the settings want it. -/
def new (config : Config) : Session :=
  ⟨config, config.width, .fresh config.preset.registers config.width, [], 0, [], .idle⟩

/-- The session with another bus width set, which takes effect with the next step. -/
def setWidth (s : Session) (width : Datum) : Except ConfigError Session :=
  (BusWidth.check width).map fun w => { s with width := w }

/-- The session with a program in a fresh machine. -/
def start (s : Session) (width : BusWidth) (program : List String) : Session :=
  { config := s.config, width, machine := .fresh s.config.preset.registers width, program, pc := 0,
    flow := [], phase := .loaded }

/-- The session with the program of a text loaded. A width that is given is checked first. -/
def load (s : Session) (text : String) (width : Option Datum) : Except LoadError Session := do
  let width ← match width with
    | none => pure s.width
    | some d => (BusWidth.check d).mapError .config
  let program := Program.clean text
  if program.isEmpty then throw .emptyProgram else return s.start width program

/-- The session without a program, and with a fresh machine. -/
def reset (s : Session) : Session :=
  { config := s.config, width := s.width, machine := .fresh s.config.preset.registers s.width,
    program := [], pc := 0, flow := [], phase := .idle }

/-! ## Stepping -/

/-- The machine as an executed step finds it: with the bus width that is set and an empty log. -/
def ready (s : Session) : Machine :=
  { s.machine with width := s.width, bus := s.machine.bus.beginStep }

/-- The next instruction, assembled where it will be fetched. -/
def assemble (s : Session) (i : Instruction) : Assembled :=
  .ofInstruction i s.machine.registers.ip

/-- The session after an instruction of line `line` was fetched and executed. -/
def advance (s : Session) (line : String) (i : Instruction) : Session :=
  let m := s.ready.cycle (s.assemble i)
  { s with
    machine := m
    pc := s.pc + 1
    flow := s.flow ++ [⟨s.pc, line, m.bus.text, s.machine.bus.step, m.bus.step⟩]
    phase := if s.pc + 1 < s.program.length then .running else .halted }

/-- The next line of a session that has one. -/
def nextLine? (s : Session) : Option String :=
  match s.phase with
  | .loaded | .running => s.program[s.pc]?
  | .idle | .halted => none

/-- One step, and the session after it. A line that is not read changes nothing. -/
def step (s : Session) : Except ConversionFault StepResult × Session :=
  match s.nextLine? with
  | none => (.ok (if s.phase = .idle then .noProgram else .halted), s)
  | some line =>
    match Instruction.parse line (s.pc + 1) with
    | .error failure => (StepResult.ofFailure s.pc line failure, s)
    | .ok i =>
      let next := s.advance line i
      (.ok (.executed s.pc line next.machine.bus.text), next)

/-- Whether a step executes a line. -/
def executes (s : Session) : Bool := s.step.1.toOption.any StepResult.ok

end Session

end BusCycle
