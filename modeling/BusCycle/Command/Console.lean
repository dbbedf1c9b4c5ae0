-- The command: it loads a program file, runs it, prints every step and the tables asked for on a
-- display, and ends with a status that says whether every line was executed.
import BusCycle.Command.Arguments
import BusCycle.Command.Path
import BusCycle.Command.Table
import BusCycle.Config.File
import BusCycle.Session.Journal

namespace BusCycle

/-! ## Outcomes -/

/-- What the command puts out, in order. -/
inductive Output
  | print (text : String)
  | pause (delay : Quantity)

/-- Why a directory cannot be made, and at which path. -/
inductive DirectoryFault
  | isFile (path : String)
  | throughFile (path : String)
  | tooLong (path : String)

/-- The path at which a directory cannot be made. -/
def DirectoryFault.path : DirectoryFault → String
  | isFile path | throughFile path | tooLong path => path

/-- A fault that the command has no message for. -/
inductive Breakdown
  | zeroInPath
  | notText
  | tooDeep (n : Document.Nest)
  | delayTooGreat
  | run (fault : RunFault)
  | noLogDirectory
  | logDirectory (fault : DirectoryFault)

/-- How the command ends. -/
inductive Ending
  | status (code : Nat)
  | refused
  | broken (b : Breakdown)

/-- All that a command does: what it puts out, what it says about errors, how it ends, and the
records for the journal. -/
structure Report where
  output : List Output
  errors : String
  ending : Ending
  records : List Record

namespace Report

def text (r : Report) : String :=
  String.join (r.output.filterMap fun
    | .print text => some text
    | .pause _ => none)

/-- A report of nothing but an ending. -/
def ofEnding (e : Ending) : Report := ⟨[], "", e, []⟩

/-- A command that ends with one line about an error. -/
def failed (message : String) : Report := ⟨[], message ++ "\n", .status 1, []⟩

/-- The report with a record before all others. -/
def withRecord (r : Report) (record : Record) : Report := { r with records := record :: r.records }

end Report

/-! ## Settings -/

namespace Options

/-- The settings of the file that is named, if one is. -/
def fileConfig (o : Options) (look : String → Entry) : Except ConfigFault (Option Config) :=
  match o.config with
  | .absent | .nothing | .value "" => .ok Option.none
  | .value path =>
    if Path.hasZero path then .error .zeroInPath
    else (Config.load (Path.normal path) (look (Path.normal path))).map some

/-- The settings with what the options say in place of what a file says. Without a file the steps of
a run follow each other without a pause. A width or a pause that is given nothing is refused, a
preset that is given nothing is left as it is. -/
def merge (o : Options) (file : Option Config) : Except ConfigError Config := do
  let base := file.getD { Config.default with delay := .real (.zero false) }
  let width ← match o.width with
    | .absent => pure base.width
    | .nothing => throw (.busWidth (.list []))
    | .value n => pure (.ofInt n)
  let delay ← match o.delay with
    | .absent => pure base.delay
    | .nothing => throw (.delayNotNumber (.list []))
    | .value x => delayOfDatum (.number (.real x))
  return ⟨width, o.preset.value?.getD base.preset, delay⟩

/-- The settings of the command. -/
def settings (o : Options) (look : String → Entry) : Except ConfigFault Config := do
  let file ← o.fileConfig look
  (o.merge file).mapError .config

/-! ## Running -/

/-- What is put out for an event of a run. Only executed steps are shown: the line with its place in
bold, the log of the bus, and an empty line. -/
def eventOutput (d : Display) : RunEvent → List Output
  | .stepped (.executed index line log) =>
    [.print (d.marked ("[bold]" ++ d.escape (stepTitle index line) ++ "[/bold]")),
      .print (d.plain log), .print d.blank]
  | .paused delay => [.pause delay]
  | _ => []

def tables (o : Options) (d : Display) (s : Snapshot) : List Output :=
  (if o.showRegisters then [.print (d.table s.registerTable)] else []) ++
    (if o.showMemory then [.print (d.table s.memoryTable)] else [])

/-- The run of a session that was loaded, up to the end of the command. Nobody asks for a stop. -/
def runLoaded (o : Options) (d : Display) (s : Session) : Report :=
  let run := s.run Option.none .unlimited
  let records := s.runRecords Option.none .unlimited
  let shown := run.events.flatMap (eventOutput d)
  match run.answer with
  | .error fault => ⟨shown, "", .broken (.run fault), records⟩
  | .ok results =>
    let output := shown ++ o.tables d run.session.snapshot
    match results.getLast?.bind StepResult.error? with
    | some e => ⟨output, "Parse error: " ++ e.message ++ "\n", .status 1, records⟩
    | Option.none => ⟨output, "", .status 0, records⟩

/-- The command for a program text and its settings. -/
def runText (o : Options) (d : Display) (text : String) (config : Config) : Report :=
  let s := Session.new config
  let records := s.loadRecords text Option.none
  let report := match s.load text Option.none with
    | .error e => Report.failed ("Error: " ++ e.message)
    | .ok loaded => o.runLoaded d loaded
  { report with records := records ++ report.records }

/-- The command for the bytes of a program file. -/
def runFile (o : Options) (d : Display) (bytes : ByteArray) (look : String → Entry) : Report :=
  match String.fromUTF8? bytes with
  | Option.none => .ofEnding (.broken .notText)
  | some text =>
    match o.settings look with
    | .error (.config e) => .failed ("Config error: " ++ e.message)
    | .error .zeroInPath => .ofEnding (.broken .zeroInPath)
    | .error .notText => .ofEnding (.broken .notText)
    | .error (.tooDeep n) => .ofEnding (.broken (.tooDeep n))
    | .error .delayTooGreat => .ofEnding (.broken .delayTooGreat)
    | .ok config => o.runText d text config

/-- The command for what is found at the paths that it names. -/
def perform (o : Options) (d : Display) (look : String → Entry) : Report :=
  let path := o.program.getD ""
  if Path.hasZero path then .ofEnding (.broken .zeroInPath)
  else
    match look path with
    | .unreadable .missing => .failed ("Error: File not found: " ++ path)
    | .unreadable fault => .failed ("Error reading " ++ path ++ ": " ++ fault.message path)
    | .file bytes => o.runFile d bytes look

end Options

/-! ## The console -/

/-- What a command finds around it: what stands at a path, and what stands there once a directory was
made, or why that cannot be done. A directory is made together with those that it stands in. -/
structure Surroundings where
  look : String → Entry
  make : String → Except DirectoryFault (String → Entry)

/-- The journal of a process: it is set up once, by the first command that gets that far, with or
without a file in a directory. -/
inductive Journal
  | closed
  | opened (directory : Option String)

/-- The source of the records of the journal itself. -/
def journalSource : String := "x86_bus_sim"

/-- The record of a journal that was set up. -/
def setupRecord (verbose : Bool) : Record :=
  ⟨.debug, journalSource, "setup_logging", "Logger initialized: " ++ journalSource ++
    " (console level " ++ (if verbose then Level.debug else Level.warning).name ++ ")"⟩

def versionText : String := "x86sim 0.2.0\n"

namespace Journal

/-- One command with its options, and the journal after it. -/
def perform (j : Journal) (o : Options) (d : Display) (around : Surroundings) : Report × Journal :=
  let opening (directory : Option String) (look : String → Entry) : Report × Journal :=
    ((o.perform d look).withRecord (setupRecord o.verbose), .opened directory)
  let broken (b : Breakdown) : Report × Journal := (.ofEnding (.broken b), .closed)
  match j, o.logDirectory with
  | .opened _, _ => (o.perform d around.look, j)
  | .closed, .absent => opening none around.look
  | .closed, .nothing => broken .noLogDirectory
  | .closed, .value path =>
    let directory := Path.normal path
    if Path.hasZero directory then broken .zeroInPath
    else
      match around.make directory with
      | .error fault => broken (.logDirectory fault)
      | .ok look => opening (some directory) look

/-- One command line, and the journal after it. -/
def command (j : Journal) (d : Display) (args : List String) (around : Surroundings) :
    Report × Journal :=
  match Request.ofArguments args with
  | .perform o => j.perform o d around
  | .showVersion => (⟨[.print versionText], "", .status 0, []⟩, j)
  | .showHelp => (.ofEnding (.status 0), j)
  | .refuse => (.ofEnding .refused, j)

end Journal

end BusCycle
