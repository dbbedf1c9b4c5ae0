-- The command line: it finds the files that the arguments name, prints what the command puts out on a
-- plain display, and waits where the command pauses.
import BusCycle.Command.Console
import BusCycle.Command.PlainDisplay

namespace BusCycle

/-! ## Files -/

/-- What is found at a path. -/
def findEntry (path : String) : IO Entry := do
  try
    return .file (← IO.FS.readBinFile path)
  catch e =>
    match e with
    | .noFileOrDirectory .. => return .unreadable .missing
    -- Opening a path that leads through a file fails under its name; a directory can be opened, and
    -- only reading it fails.
    | .inappropriateType (some _) _ _ => return .unreadable .throughFile
    | .invalidArgument .. => return .unreadable .tooLong
    | _ => return .unreadable .directory

/-- A directory made together with those that it stands in, or why that cannot be done. -/
def makeDirectory (path : String) : IO (Except DirectoryFault Unit) := do
  try
    IO.FS.createDirAll path
    return .ok ()
  catch e =>
    match e with
    | .alreadyExists .. => return .error (.isFile path)
    | .invalidArgument .. => return .error (.tooLong path)
    | _ => return .error (.throughFile path)

/-- The files that options name, in the forms in which they are looked up. -/
def namedFiles (o : Options) : List String :=
  o.program.toList ++ o.config.value?.toList.map Path.normal

/-- What a single command finds around it. The directory for its journal is made before any file is
looked for. -/
def findAround (args : List String) : IO Surroundings := do
  match Request.ofArguments args with
  | .perform o =>
    let made ← match o.logDirectory.value?.map Path.normal with
      | some path => if Path.hasZero path then pure (.ok ()) else makeDirectory path
      | none => pure (.ok ())
    let found ← (namedFiles o).mapM fun path => do return (path, ← findEntry path)
    let look (path : String) : Entry := (found.lookup path).getD (.unreadable .missing)
    return ⟨look, fun _ => made.map fun _ => look⟩
  | _ => return ⟨fun _ => .unreadable .missing, fun _ => .ok fun _ => .unreadable .missing⟩

/-! ## Output -/

/-- A pause of so many thousandths of a second, hour by hour, because one wait has a limit. -/
def wait (thousandths : Nat) : IO Unit := do
  let hour : Nat := 60 * 60 * 1000
  for _ in [0:thousandths / hour] do
    IO.sleep hour.toUInt32
  IO.sleep (thousandths % hour).toUInt32

/-- What a command puts out, printed and waited for. -/
def putOut : List Output → IO Unit
  | [] => pure ()
  | .print text :: rest => do
    IO.print text
    putOut rest
  | .pause delay :: rest => do
    wait (delay.thousandths?.getD 0)
    putOut rest

/-- The records written to the journal file, if there is one. -/
def writeJournal (journal : Journal) (records : List Record) : IO Unit := do
  match journal with
  | .opened (some directory) =>
    IO.FS.writeFile (directory ++ "/" ++ journalSource ++ ".log")
      (String.join (records.map fun r => r.line ++ "\n"))
  | _ => pure ()

/-- The exit status and what is said about an ending. -/
def finish : Ending → IO UInt32
  | .status code => pure code.toUInt32
  | .refused => do
    IO.eprintln "usage: x86sim [options] program"
    pure 2
  | .broken .notText => do
    IO.eprintln "Error: a file is not UTF-8 text"
    pure 1
  | .broken .delayTooGreat | .broken (.run .pauseTooLong) => do
    IO.eprintln "Error: the pause is too long"
    pure 1
  | .broken (.run (.conversion fault)) => do
    IO.eprintln ("Error: " ++ fault.message)
    pure 1
  | .broken (.tooDeep _) => do
    IO.eprintln "Error: a file is nested too deep"
    pure 1
  | .broken .zeroInPath => do
    IO.eprintln "Error: a path holds a zero character"
    pure 1
  | .broken .noLogDirectory => do
    IO.eprintln "Error: no directory for the journal"
    pure 1
  | .broken (.logDirectory fault) => do
    IO.eprintln ("Error: cannot make the directory " ++ fault.path)
    pure 1

/-- One command from its arguments to its exit status. -/
def runCommand (args : List String) : IO UInt32 := do
  let around ← findAround args
  let (report, journal) := Journal.closed.command .withoutColours args around
  writeJournal journal report.records
  putOut report.output
  IO.eprint report.errors
  finish report.ending

end BusCycle

/-- The command line. -/
def main (args : List String) : IO UInt32 := BusCycle.runCommand args
