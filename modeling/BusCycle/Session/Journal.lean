-- The journal: records of what a session does, each with its level, its source and the task that
-- wrote it. Records are worked out from the state before an operation and never change it.
import BusCycle.Session.Run

namespace BusCycle

/-! ## Records -/

/-- How important a record is. -/
inductive Level
  | debug
  | info
  | warning
  deriving DecidableEq

def Level.name : Level → String
  | debug => "DEBUG"
  | info => "INFO"
  | warning => "WARNING"

/-- A record. -/
structure Record where
  level : Level
  source : String
  task : String
  message : String

namespace Record

/-- The record with its source, as a trace of a session shows it. -/
def trace (r : Record) : String := r.level.name ++ " " ++ r.source ++ " " ++ r.message

/-- The record as a line of a journal file. -/
def line (r : Record) : String :=
  Text.padEnd 7 r.level.name ++ " | " ++ r.source ++ " | " ++ r.task ++ " | " ++ r.message

end Record

/-! ## Bus and processor -/

def Transaction.record (t : Transaction) : Record :=
  ⟨.debug, "x86_bus_sim.bus.transaction", "transfer",
    "bus " ++ t.kind.name ++ " " ++ (Address.ofInt t.address).key ++ "H <- " ++ t.dataText ++
      " (step " ++ Text.decimal t.step ++ ")"⟩

/-- The record of a fetch by registers as they were before it. -/
def fetchRecord (r : Registers) (a : Assembled) : Record :=
  ⟨.debug, "x86_bus_sim.bus.fetch", "fetch",
    "fetched " ++ a.instruction.display ++ " at " ++ hexWord r.cs ++ ":" ++ hexWord r.ip ++ " [" ++
      a.hex ++ "]"⟩

/-- The record of an execution with registers as they are after it. -/
def executeRecord (r : Registers) (a : Assembled) : Record :=
  ⟨.debug, "x86_bus_sim.execute", "execute",
    "executed " ++ a.instruction.display ++ " (" ++ Form.kindOf a.form ++ "): " ++ r.display⟩

/-- The records of a cycle on a machine with an empty log. -/
def Machine.cycleRecords (m : Machine) (a : Assembled) : List Record :=
  let fetched := m.fetch a.code
  let done := fetched.execute a
  let atFetch := fetched.bus.transactions
  atFetch.map Transaction.record ++ [fetchRecord m.registers a] ++
    (done.bus.transactions.drop atFetch.length).map Transaction.record ++
    [executeRecord done.registers a]

/-! ## Sessions -/

/-- The source of the records of a session. -/
def sessionSource : String := "x86_bus_sim.controller"

namespace Session

/-- The records of loading a text. A width that is refused leaves no record. -/
def loadRecords (s : Session) (text : String) (width : Option Datum) : List Record :=
  match s.load text width with
  | .ok next =>
    [⟨.info, sessionSource, "load", "loaded " ++ Text.decimal next.program.length ++
      " instructions (bus width " ++ Text.decimal next.width.lines ++ ")"⟩]
  | .error .emptyProgram =>
    [⟨.warning, sessionSource, "load", "load rejected: no instruction lines"⟩]
  | .error (.config _) => []

def resetRecords (s : Session) : List Record :=
  [⟨.info, sessionSource, "reset", "reset (preset " ++ s.config.preset.name ++ ", bus width " ++
    Text.decimal s.width.lines ++ ")"⟩]

def stepRecords (s : Session) : List Record :=
  match s.nextLine? with
  | none => []
  | some line =>
    match Instruction.parse line (s.pc + 1) with
    | .error (.fault e) =>
      [⟨.warning, sessionSource, "step", "step " ++ Text.decimal s.pc ++ ": " ++ e.message⟩]
    | .error (.conversion _) => []
    | .ok i =>
      s.ready.cycleRecords (s.assemble i) ++
        [⟨.debug, sessionSource, "step", "step " ++ Text.decimal s.pc ++ " '" ++ line ++
          "' done, bus step " ++ Text.decimal s.machine.bus.step ++ " -> " ++
          Text.decimal (s.advance line i).machine.bus.step⟩]

/-- The records of events that follow from a session. -/
def eventRecords (s : Session) : List RunEvent → List Record
  | [] => []
  | .stepped _ :: rest => s.stepRecords ++ eventRecords s.step.2 rest
  | .paused _ :: rest => eventRecords s rest
  | .cancelled count :: rest =>
    ⟨.info, sessionSource, "run", "run cancelled after " ++ Text.decimal count ++ " steps"⟩ ::
      eventRecords s rest

def runRecords (s : Session) (delay : Option Quantity) (limits : RunLimits) : List Record :=
  s.eventRecords (s.run delay limits).events

end Session

end BusCycle
