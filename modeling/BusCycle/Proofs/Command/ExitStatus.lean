-- The exit status of the command. Scripts rely on it: it is to be zero exactly if the settings are
-- accepted and every line of the program was executed, and otherwise one line is to say what is wrong.
-- Neither depends on anything but the program text, once the settings are accepted. One kind of line
-- breaks the command instead: a first line at fault with a literal of too many digits.
import BusCycle.Command.PlainDisplay
import BusCycle.Proofs.Command.Showing
import BusCycle.Proofs.Text.Unbroken

namespace BusCycle

open Text

/-! ## What a program text comes to -/

/-- A fault in a line that is counted from one is told with the number of the line in front. -/
theorem Instruction.message_of_parse {line : String} {n : Int} {e : LineError}
    (h : parse line n = .error (.fault e)) (counted : n ≠ 0) :
    e.message = "Line " ++ decimal n ++ ": " ++ e.fault.message := by
  have number : e.lineNumber = n := congrArg LineError.lineNumber (eq_of_parse_fault h)
  unfold LineError.message
  rw [number, if_neg counted]

namespace Program

/-- What keeps the first line that is no instruction from being read, if there is such a line. -/
def firstFailure? (program : List String) : Option (ReadFailure LineError) :=
  program[firstFault program]?.bind fun line =>
    match Instruction.parse line (firstFault program + 1) with
    | .error failure => some failure
    | .ok _ => none

/-- How a command ends for a program text and what it says about it, whatever settings it is run
with. -/
def verdict (text : String) : Ending × String :=
  if (clean text).isEmpty then (.status 1, "Error: " ++ LoadError.emptyProgram.message ++ "\n")
  else Report.verdict (firstFailure? (clean text))

/-- The first line of a program that is no instruction has a literal of so many digits that they are not
converted. -/
def BreaksOff (program : List String) (count : Nat) : Prop :=
  ∃ inside : firstFault program < program.length,
    Instruction.parse program[firstFault program] (firstFault program + 1) =
      .error (.conversion (.tooManyDigits count))

/-- The four ways in which a command can end that runs a program text. -/
inductive Judged (text : String) : Ending × String → Prop
  | bare (unusable : clean text = []) :
      Judged text (.status 1, "Error: " ++ LoadError.emptyProgram.message ++ "\n")
  | all (usable : clean text ≠ []) (whole : firstFault (clean text) = (clean text).length) :
      Judged text (.status 0, "")
  | rejected {e : LineError} (inside : firstFault (clean text) < (clean text).length)
      (fault : Instruction.parse (clean text)[firstFault (clean text)]
        (firstFault (clean text) + 1) = .error (.fault e)) :
      Judged text (.status 1, "Parse error: " ++ e.message ++ "\n")
  | broken {count : Nat} (breaks : BreaksOff (clean text) count) :
      Judged text (.broken (.run (.conversion (.tooManyDigits count))), "")

theorem firstFailure?_of_parse {program : List String} {failure : ReadFailure LineError}
    (inside : firstFault program < program.length)
    (h : Instruction.parse program[firstFault program] (firstFault program + 1) =
      .error failure) : firstFailure? program = some failure := by
  unfold firstFailure?
  rw [List.getElem?_eq_getElem inside, Option.bind_some, h]

theorem firstFailure?_eq_none {program : List String} (h : firstFault program = program.length) :
    firstFailure? program = none := by
  unfold firstFailure?
  rw [h, List.getElem?_eq_none (Nat.le_refl _)]
  rfl

theorem firstFault_eq_length_iff {program : List String} :
    firstFault program = program.length ↔
      ∀ line ∈ program, ∀ n, ∃ i, Instruction.parse line n = .ok i := by
  unfold firstFault
  rw [List.findIdx_eq_length]
  refine forall₂_congr fun line _ => ?_
  rw [Bool.not_eq_false']
  refine ⟨Instruction.parse_of_isLine, fun h => ?_⟩
  obtain ⟨i, hi⟩ := h 0
  exact Instruction.isLine_of_parse hi

theorem verdict_of_clean_eq_nil {text : String} (h : clean text = []) :
    verdict text = (.status 1, "Error: " ++ LoadError.emptyProgram.message ++ "\n") := by
  rw [verdict, h]
  rfl

theorem verdict_of_clean_ne_nil {text : String} (h : clean text ≠ []) :
    verdict text = Report.verdict (firstFailure? (clean text)) :=
  if_neg (by simpa using h)

theorem BreaksOff.verdict_eq {text : String} {count : Nat} (h : BreaksOff (clean text) count) :
    verdict text = (.broken (.run (.conversion (.tooManyDigits count))), "") := by
  obtain ⟨inside, failure⟩ := h
  have usable : clean text ≠ [] := List.length_pos_iff.mp (Nat.zero_lt_of_lt inside)
  rw [verdict_of_clean_ne_nil usable, firstFailure?_of_parse inside failure]
  rfl

theorem judged_verdict (text : String) : Judged text (verdict text) := by
  by_cases unusable : clean text = []
  · rw [verdict_of_clean_eq_nil unusable]
    exact .bare unusable
  obtain ⟨last, fault, ends⟩ := exists_endsWith (clean text)
  rw [verdict_of_clean_ne_nil unusable]
  cases ends with
  | all whole =>
    rw [firstFailure?_eq_none whole]
    exact .all unusable whole
  | rejected inside fault =>
    rw [firstFailure?_of_parse inside fault]
    exact .rejected inside fault
  | broken inside failure =>
    rw [firstFailure?_of_parse inside failure]
    exact .broken ⟨inside, failure⟩

/-- The status is zero, and nothing is said, exactly if there are lines and all are instructions. -/
theorem verdict_eq_zero_iff (text : String) :
    verdict text = (.status 0, "") ↔
      clean text ≠ [] ∧ ∀ line ∈ clean text, ∀ n, ∃ i, Instruction.parse line n = .ok i := by
  rw [← firstFault_eq_length_iff]
  have judged := judged_verdict text
  generalize verdict text = v at judged ⊢
  cases judged with
  | bare unusable => simp [unusable]
  | all usable whole => simp [usable, whole]
  | rejected inside => simp [Nat.ne_of_lt inside]
  | broken breaks => simp [Nat.ne_of_lt breaks.1]

/-- In every other case the status is one, and one line is said, unless the run breaks off. -/
theorem verdict_of_ne_zero {text : String} (h : verdict text ≠ (.status 0, ""))
    (converts : ∀ count, ¬BreaksOff (clean text) count) :
    (verdict text).1 = .status 1 ∧
      ∃ message, (verdict text).2 = message ++ "\n" ∧ Unbroken message.toList := by
  have judged := judged_verdict text
  generalize verdict text = v at judged h
  cases judged with
  | bare => exact ⟨rfl, _, rfl, by decide⟩
  | all => exact absurd rfl h
  | rejected inside fault =>
    have line := unbroken_of_mem_clean (List.getElem_mem inside)
    exact ⟨rfl, _, rfl, unbroken_after (by decide) (Instruction.unbroken_of_parse line fault)⟩
  | broken breaks => exact absurd breaks (converts _)

/-- What is said about a line that is rejected. -/
theorem verdict_of_firstFault {text : String}
    (inside : firstFault (clean text) < (clean text).length)
    (converts : ∀ count, ¬BreaksOff (clean text) count) :
    ∃ e, Instruction.parse (clean text)[firstFault (clean text)] (firstFault (clean text) + 1) =
        .error (.fault e) ∧ verdict text = (.status 1, "Parse error: " ++ e.message ++ "\n") := by
  have judged := judged_verdict text
  generalize verdict text = v at judged
  cases judged with
  | bare unusable =>
    rw [unusable] at inside
    cases inside
  | all _ whole => exact absurd whole (Nat.ne_of_lt inside)
  | rejected _ fault => exact ⟨_, fault, rfl⟩
  | broken breaks => exact absurd breaks (converts _)

/-! ## What a run of it shows -/

/-- Lines that are executed are no faults. -/
theorem error?_of_mem_results {program : List String} {m : Machine} {k : Nat} {r : StepResult}
    (h : r ∈ results program m k) : r.error? = none := by
  obtain ⟨i, hi, rfl⟩ := List.mem_mapIdx.mp h
  rfl

namespace EndsWith

variable {program : List String} {last : List StepResult} {fault : Option ConversionFault}

/-- A run is broken off by digits just if the first line that is no instruction has too many. -/
theorem breaksOff_iff (ends : EndsWith program last fault) {count : Nat} :
    BreaksOff program count ↔ fault = some (.tooManyDigits count) := by
  cases ends with
  | all whole => simp [BreaksOff, whole]
  | rejected inside fault => simp [BreaksOff, inside, fault]
  | broken inside failure => simp [BreaksOff, inside, failure]

theorem exists_tooManyDigits {c : ConversionFault} (ends : EndsWith program last (some c)) :
    ∃ count, c = .tooManyDigits count := by
  cases ends with
  | broken => exact ⟨_, rfl⟩

/-- The last result of a run that comes back tells the first fault of the program. -/
theorem getLast?_results (ends : EndsWith program last none) (m : Machine) :
    ((results program m (firstFault program) ++ last).getLast?.bind StepResult.error?).map .fault =
      firstFailure? program := by
  cases ends with
  | all whole =>
    rw [List.append_nil, firstFailure?_eq_none whole, Option.map_eq_none_iff,
      Option.bind_eq_none_iff]
    exact fun r hr => error?_of_mem_results (List.mem_of_getLast? hr)
  | rejected inside fault =>
    rw [List.getLast?_concat, firstFailure?_of_parse inside fault]
    rfl

/-- Nothing is printed for a line at fault. -/
theorem shownAll_results (ends : EndsWith program last fault) (d : Display) (m : Machine) :
    StepResult.shownAll d (results program m (firstFault program) ++ last) =
      StepResult.shownAll d (results program m (firstFault program)) := by
  have silent : StepResult.shownAll d last = "" := by
    cases ends with
    | all | rejected | broken => rfl
  rw [StepResult.shownAll_append, silent, String.append_empty]

end EndsWith

end Program

namespace Report

/-- A report that shows the first `k` lines of a program, executed on a machine one after another, and
then the tables that are asked for, of a session that has executed these lines and no others. -/
def Shows (r : Report) (o : Options) (d : Display) (program : List String) (m : Machine)
    (k : Nat) : Prop :=
  ∃ t : Session, t.program = program ∧ t.pc = k ∧ t.machine = m.runLines (program.take k) ∧
    r.text = StepResult.shownAll d (Program.results program m k) ++
      Output.joined (o.tables d t.snapshot)

/-- A report on a program text that was run with settings that were accepted, from a machine. -/
structure Tells (r : Report) (o : Options) (d : Display) (text : String) (m : Machine) : Prop where
  ending : r.ending = (Program.verdict text).1
  errors : r.errors = (Program.verdict text).2
  unusable : Program.clean text = [] → r.text = ""
  shown : Program.clean text ≠ [] → (∀ count, ¬Program.BreaksOff (Program.clean text) count) →
    r.Shows o d (Program.clean text) m (Program.firstFault (Program.clean text))
  broken : ∀ count, Program.BreaksOff (Program.clean text) count →
    r.text = StepResult.shownAll d
      (Program.results (Program.clean text) m (Program.firstFault (Program.clean text)))

/-- Two reports that end alike and print the same text. -/
structure Agrees (r r' : Report) : Prop where
  ending : r.ending = r'.ending
  errors : r.errors = r'.errors
  text : r.text = r'.text

variable {r r' : Report} {o : Options} {d : Display} {text : String} {m : Machine}

/-- The tables show the registers and the memory of the machine only. -/
theorem tables_congr (o : Options) (d : Display) {t t' : Session} (h : t.machine = t'.machine) :
    o.tables d t.snapshot = o.tables d t'.snapshot := by
  unfold Options.tables Snapshot.registerTable Snapshot.memoryTable Session.snapshot
  dsimp only
  rw [h]

theorem Tells.of_agrees (h : r'.Tells o d text m) (alike : r.Agrees r') : r.Tells o d text m := by
  refine ⟨alike.ending.trans h.ending, alike.errors.trans h.errors,
    fun unusable => alike.text.trans (h.unusable unusable), fun usable converts => ?_,
    fun count breaks => alike.text.trans (h.broken count breaks)⟩
  obtain ⟨t, program, pc, machine, shown⟩ := h.shown usable converts
  exact ⟨t, program, pc, machine, alike.text.trans shown⟩

theorem Tells.agrees (h : r.Tells o d text m) (h' : r'.Tells o d text m) : r.Agrees r' := by
  refine ⟨h.ending.trans h'.ending.symm, h.errors.trans h'.errors.symm, ?_⟩
  by_cases unusable : Program.clean text = []
  · rw [h.unusable unusable, h'.unusable unusable]
  by_cases breaks : ∃ count, Program.BreaksOff (Program.clean text) count
  · obtain ⟨count, breaks⟩ := breaks
    rw [h.broken count breaks, h'.broken count breaks]
  · have converts := not_exists.mp breaks
    obtain ⟨t, -, -, machine, shown⟩ := h.shown unusable converts
    obtain ⟨t', -, -, machine', shown'⟩ := h'.shown unusable converts
    rw [shown, shown', tables_congr o d (machine.trans machine'.symm)]

end Report

/-- A text without a line is not run. -/
theorem Options.runText_of_clean_eq_nil (o : Options) (d : Display) {text : String}
    (h : Program.clean text = []) (config : Config) : (o.runText d text config).Agrees
      (.failed ("Error: " ++ LoadError.emptyProgram.message)) := by
  have refused : (Session.new config).load text Option.none = .error .emptyProgram := by
    rw [Session.load_none, h]
    rfl
  unfold runText
  dsimp only
  rw [refused]
  exact ⟨rfl, rfl, rfl⟩

theorem Options.runText_of_clean_ne_nil (o : Options) (d : Display) {text : String}
    (usable : Program.clean text ≠ []) (config : Config) : (o.runText d text config).Agrees
      (o.runLoaded d ((Session.new config).start config.width (Program.clean text))) := by
  have loaded := (Session.new config).load_of_clean_ne_nil usable
  unfold runText
  dsimp only
  rw [loaded]
  exact ⟨rfl, rfl, rfl⟩

/-- What a run that covers a program up to the line that it cannot read is told as. -/
theorem Options.runLoaded_tells (o : Options) (d : Display) {text : String} {s : Session}
    {m : Machine} {last : List StepResult} {fault : Option ConversionFault}
    (usable : Program.clean text ≠ []) (ends : Program.EndsWith (Program.clean text) last fault)
    (covers : (s.run Option.none .unlimited).Covers m (Program.clean text) 0
      (Program.firstFault (Program.clean text)) last)
    (failure : (s.run Option.none .unlimited).fault = fault.map .conversion) :
    (o.runLoaded d s).Tells o d text m := by
  obtain ⟨program, place, results⟩ := covers
  replace results : (s.run Option.none .unlimited).results =
      Program.results (Program.clean text) m (Program.firstFault (Program.clean text)) ++ last :=
    results
  cases fault with
  | none =>
    obtain ⟨ending, errors, shown⟩ := o.runLoaded_of_back d failure
    rw [results, ends.getLast?_results, ← Program.verdict_of_clean_ne_nil usable] at ending errors
    rw [results, ends.shownAll_results] at shown
    refine ⟨ending, errors, fun unusable => absurd unusable usable, fun _ _ => ?_,
      fun count breaks => ?_⟩
    · exact ⟨_, program, place.pc, by rw [place.machine, program], shown⟩
    · cases ends.breaksOff_iff.mp breaks
  | some c =>
    obtain ⟨ending, errors, shown⟩ := o.runLoaded_of_fault d failure
    rw [results, ends.shownAll_results] at shown
    obtain ⟨count, rfl⟩ := ends.exists_tooManyDigits
    have breaks := ends.breaksOff_iff.mpr rfl
    refine ⟨?_, ?_, fun unusable => absurd unusable usable,
      fun _ converts => absurd breaks (converts count), fun _ _ => shown⟩
    · rw [ending, breaks.verdict_eq]
    · rw [errors, breaks.verdict_eq]

/-- What the command does with a program text and settings: it tells the text, unless the pause of
the settings is too long to be waited for. -/
theorem Options.runText_cases (o : Options) (d : Display) (text : String) (config : Config) :
    (o.runText d text config).Tells o d text (.fresh config.preset.registers config.width) ∨
      ((o.runText d text config).ending = .broken (.run .pauseTooLong) ∧
        config.delay.fitsClock = false) := by
  by_cases unusable : Program.clean text = []
  · have verdict := Program.verdict_of_clean_eq_nil unusable
    have tells : (Report.failed ("Error: " ++ LoadError.emptyProgram.message)).Tells o d text
        (.fresh config.preset.registers config.width) := by
      refine ⟨?_, ?_, fun _ => rfl, fun usable => absurd unusable usable, fun _ ⟨inside, _⟩ => ?_⟩
      · rw [verdict]
        rfl
      · rw [verdict]
        rfl
      · rw [unusable] at inside
        cases inside
    exact Or.inl (tells.of_agrees (o.runText_of_clean_eq_nil d unusable config))
  · have report := o.runText_of_clean_ne_nil d unusable config
    obtain ⟨last, fault, ends⟩ := Program.exists_endsWith (Program.clean text)
    cases (Session.new config).run_start_endsFrom unusable Option.none ends with
    | stuck endless _ _ _ failure =>
      obtain ⟨ending, -⟩ := o.runLoaded_of_fault d failure
      exact Or.inr ⟨report.ending.trans ending, endless⟩
    | through _ covers failure =>
      exact Or.inl ((o.runLoaded_tells d unusable ends covers failure).of_agrees report)

/-! ## Settings -/

namespace Options

/-- The options for a run that makes no pauses. -/
def withoutPause (o : Options) : Options := { o with delay := .value (.zero false) }

/-- Settings are refused with one line, for a width or a pause that is given nothing or for a pause
below zero. Those that are accepted are accepted without their pause too. -/
theorem merge_cases (o : Options) (file : Option Config) :
    (∃ e, o.merge file = .error e ∧ Unbroken e.message.toList) ∨
      ∃ config, o.merge file = .ok config ∧
        o.withoutPause.merge file = .ok { config with delay := .real (.zero false) } := by
  obtain ⟨program, width, preset, path, delay, registers, memory, directory, verbose⟩ := o
  cases width with
  | nothing => exact Or.inl ⟨_, rfl, by decide⟩
  | absent | value =>
    cases delay with
    | nothing => exact Or.inl ⟨_, rfl, by decide⟩
    | absent => exact Or.inr ⟨_, rfl, rfl⟩
    | value x =>
      by_cases negative : x.isNegative = true
      · have refused : delayOfDatum (.number (.real x)) = .error (.delayNegative (.real x)) :=
          if_pos negative
        refine Or.inl ⟨.delayNegative (.real x), ?_,
          unbroken_after (by decide) (Quantity.unbroken_display (.real x))⟩
        unfold merge
        dsimp only
        rw [refused]
        rfl
      · have accepted : delayOfDatum (.number (.real x)) = .ok (.real x) := if_neg negative
        refine Or.inr ⟨⟨_, _, .real x⟩, ?_, rfl⟩
        unfold merge
        dsimp only
        rw [accepted]
        rfl

theorem merge_withoutPause {o : Options} {file : Option Config} {config : Config}
    (h : o.merge file = .ok config) :
    o.withoutPause.merge file = .ok { config with delay := .real (.zero false) } := by
  obtain ⟨e, refused, -⟩ | ⟨config', accepted, without⟩ := o.merge_cases file
  · cases refused.symm.trans h
  · cases accepted.symm.trans h
    exact without

theorem unbroken_of_merge {o : Options} {file : Option Config} {e : ConfigError}
    (h : o.merge file = .error e) : Unbroken e.message.toList := by
  obtain ⟨e', refused, unbroken⟩ | ⟨config, accepted, -⟩ := o.merge_cases file
  · cases refused.symm.trans h
    exact unbroken
  · cases accepted.symm.trans h

end Options

/-! ## What a command finds -/

/-- A command finds a program file that is a text, and the settings file is left out or read without a
fault. -/
structure Options.Finds (o : Options) (look : String → Entry) (text : String)
    (file : Option Config) : Prop where
  named : Path.hasZero (o.program.getD "") = false
  program : ∃ bytes, look (o.program.getD "") = .file bytes ∧ String.fromUTF8? bytes = some text
  settings : o.fileConfig look = .ok file

namespace Options.Finds

variable {o : Options} {look : String → Entry} {text : String} {file : Option Config}

/-- The settings of a command, as they are merged from its options and its file. -/
theorem settings_eq (h : o.Finds look text file) :
    o.settings look = (o.merge file).mapError .config := by
  unfold Options.settings
  rw [h.settings]
  rfl

theorem perform_of_error (h : o.Finds look text file) (d : Display) {e : ConfigError}
    (refused : o.merge file = .error e) :
    o.perform d look = .failed ("Config error: " ++ e.message) := by
  obtain ⟨bytes, found, decoded⟩ := h.program
  have settings : o.settings look = .error (.config e) := by
    rw [h.settings_eq, refused]
    rfl
  unfold perform runFile
  dsimp only
  rw [h.named, found]
  dsimp only
  rw [decoded, settings]
  rfl

theorem perform_of_ok (h : o.Finds look text file) (d : Display) {config : Config}
    (accepted : o.merge file = .ok config) : o.perform d look = o.runText d text config := by
  obtain ⟨bytes, found, decoded⟩ := h.program
  have settings : o.settings look = .ok config := by
    rw [h.settings_eq, accepted]
    rfl
  unfold perform runFile
  dsimp only
  rw [h.named, found]
  dsimp only
  rw [decoded, settings]
  rfl

theorem withoutPause (h : o.Finds look text file) : o.withoutPause.Finds look text file :=
  ⟨h.named, h.program, h.settings⟩

end Options.Finds

namespace Journal

/-- What a command finds at paths once its journal is set up. Nothing, if the directory for the
journal cannot be made. -/
def view? (j : Journal) (o : Options) (around : Surroundings) : Option (String → Entry) :=
  match j, o.logDirectory with
  | .opened _, _ | .closed, .absent => some around.look
  | .closed, .nothing => none
  | .closed, .value path =>
    if Path.hasZero (Path.normal path) then none else (around.make (Path.normal path)).toOption

/-- Arguments that are accepted, with a directory for the journal that is left out or can be made, and
with files that are found. -/
structure Readable (j : Journal) (args : List String) (around : Surroundings) (o : Options)
    (text : String) (file : Option Config) : Prop where
  accepted : Request.ofArguments args = .perform o
  found : ∃ look, j.view? o around = some look ∧ o.Finds look text file

/-- What a command line does if no time passes in its pauses. Settings are checked as they were given,
and those that are accepted are run without a pause. -/
def commandAtOnce (j : Journal) (d : Display) (args : List String) (around : Surroundings) : Report :=
  match Request.ofArguments args with
  | .perform o =>
    match (j.view? o around).map o.settings with
    | some (.ok _) => (j.perform o.withoutPause d around).1
    | _ => (j.perform o d around).1
  | _ => (j.command d args around).1

/-- The journal adds records to what a command does, and nothing else. -/
theorem perform_of_view? {j : Journal} {o : Options} {around : Surroundings} {look : String → Entry}
    (h : j.view? o around = some look) (d : Display) :
    (j.perform o d around).1.Agrees (o.perform d look) := by
  cases j with
  | opened =>
    cases h
    exact ⟨rfl, rfl, rfl⟩
  | closed =>
    unfold view? at h
    unfold perform
    dsimp only at h ⊢
    generalize o.logDirectory = directory at h ⊢
    cases directory with
    | absent =>
      cases h
      exact ⟨rfl, rfl, rfl⟩
    | nothing => cases h
    | value path =>
      dsimp only at h ⊢
      by_cases zero : Path.hasZero (Path.normal path) = true
      · rw [if_pos zero] at h
        cases h
      · rw [if_neg zero] at h ⊢
        rcases made : around.make (Path.normal path) with fault | found
        · rw [made] at h
          cases h
        · rw [made] at h
          cases h
          exact ⟨rfl, rfl, rfl⟩

/-! ## The exit status -/

namespace Readable

variable {j : Journal} {args : List String} {around : Surroundings} {o : Options} {text : String}
  {file : Option Config}

theorem command_of_error (h : j.Readable args around o text file) (d : Display) {e : ConfigError}
    (refused : o.merge file = .error e) :
    (j.command d args around).1.Agrees (.failed ("Config error: " ++ e.message)) := by
  obtain ⟨look, view, finds⟩ := h.found
  unfold command
  rw [h.accepted, ← finds.perform_of_error d refused]
  exact perform_of_view? view d

theorem command_of_ok (h : j.Readable args around o text file) (d : Display) {config : Config}
    (accepted : o.merge file = .ok config) :
    (j.command d args around).1.Agrees (o.runText d text config) := by
  obtain ⟨look, view, finds⟩ := h.found
  unfold command
  rw [h.accepted, ← finds.perform_of_ok d accepted]
  exact perform_of_view? view d

theorem commandAtOnce_of_error (h : j.Readable args around o text file) (d : Display)
    {e : ConfigError} (refused : o.merge file = .error e) :
    j.commandAtOnce d args around = (j.command d args around).1 := by
  obtain ⟨look, view, finds⟩ := h.found
  have settings : o.settings look = .error (.config e) := by
    rw [finds.settings_eq, refused]
    rfl
  unfold commandAtOnce command
  rw [h.accepted]
  dsimp only
  rw [view, Option.map_some, settings]

theorem commandAtOnce_of_ok (h : j.Readable args around o text file) (d : Display)
    {config : Config} (accepted : o.merge file = .ok config) :
    (j.commandAtOnce d args around).Tells o d text
      (.fresh config.preset.registers config.width) := by
  obtain ⟨look, view, finds⟩ := h.found
  have settings : o.settings look = .ok config := by
    rw [finds.settings_eq, accepted]
    rfl
  have report : j.commandAtOnce d args around = (j.perform o.withoutPause d around).1 := by
    unfold commandAtOnce
    rw [h.accepted]
    dsimp only
    rw [view, Option.map_some, settings]
  have same : j.view? o.withoutPause around = some look := view
  have performed := perform_of_view? same d
  rw [finds.withoutPause.perform_of_ok d (Options.merge_withoutPause accepted), ← report]
    at performed
  rcases o.withoutPause.runText_cases d text { config with delay := .real (.zero false) } with
    tells | ⟨-, long⟩
  · have told := tells.of_agrees performed
    exact ⟨told.ending, told.errors, told.unusable, told.shown, told.broken⟩
  · have positive := Quantity.isPositive_of_not_fitsClock long
    cases positive

end Readable

end Journal

namespace Report

/-- A command that executed every line. -/
def Succeeds (r : Report) : Prop := r.ending = .status 0 ∧ r.errors = ""

/-- How a command is meant to end, and what it is meant to say and show, for the settings in its options
and in a file, and for a program text. -/
structure Settles (r : Report) (o : Options) (d : Display) (file : Option Config)
    (text : String) : Prop where
  succeeds_iff : r.Succeeds ↔ (∃ config, o.merge file = .ok config) ∧ Program.clean text ≠ [] ∧
    ∀ line ∈ Program.clean text, ∀ n, ∃ i, Instruction.parse line n = .ok i
  fails : ¬r.Succeeds →
    r.ending = .status 1 ∧ ∃ message, r.errors = message ++ "\n" ∧ Unbroken message.toList
  refused : ∀ e, o.merge file = .error e → r.errors = "Config error: " ++ e.message ++ "\n"
  unusable : ∀ config, o.merge file = .ok config → Program.clean text = [] →
    r.errors = "Error: " ++ LoadError.emptyProgram.message ++ "\n"
  rejected : ∀ config, o.merge file = .ok config →
    let program := Program.clean text
    let k := Program.firstFault program
    ∀ inside : k < program.length, ∃ e,
      Instruction.parse program[k] (k + 1) = .error (.fault e) ∧
        r.errors =
          "Parse error: " ++ ("Line " ++ decimal (k + 1) ++ ": " ++ e.fault.message) ++ "\n"
  shown : ∀ config, o.merge file = .ok config → Program.clean text ≠ [] →
    r.Shows o d (Program.clean text) (.fresh config.preset.registers config.width)
      (Program.firstFault (Program.clean text))
  independent : ∀ config, o.merge file = .ok config →
    r.ending = (Program.verdict text).1 ∧ r.errors = (Program.verdict text).2

/-- How a command ends that cannot read a line of a program because of its digits: it is broken, with
no status and not a word about errors. The lines before that one were executed and shown. There
are no tables. -/
structure StopsShort (r : Report) (d : Display) (program : List String) (m : Machine)
    (count : Nat) : Prop where
  beyond : digitLimit < count
  ending : r.ending = .broken (.run (.conversion (.tooManyDigits count)))
  errors : r.errors = ""
  text : r.text = StepResult.shownAll d (Program.results program m (Program.firstFault program))

variable {r : Report} {o : Options} {d : Display} {file : Option Config} {text : String}

theorem settles_of_error {e : ConfigError} (refused : o.merge file = .error e)
    (alike : r.Agrees (.failed ("Config error: " ++ e.message))) : r.Settles o d file text := by
  have ending : r.ending = .status 1 := alike.ending
  have errors : r.errors = "Config error: " ++ e.message ++ "\n" := alike.errors
  have not_ok (config : Config) (accepted : o.merge file = .ok config) : False := by
    rw [refused] at accepted
    cases accepted
  refine ⟨⟨fun success => ?_, fun ⟨⟨config, accepted⟩, _⟩ => (not_ok config accepted).elim⟩,
    fun _ => ⟨ending, _, errors, ?_⟩, fun e' other => ?_,
    fun config accepted => (not_ok config accepted).elim,
    fun config accepted => (not_ok config accepted).elim,
    fun config accepted => (not_ok config accepted).elim,
    fun config accepted => (not_ok config accepted).elim⟩
  · have zero := ending.symm.trans success.1
    cases zero
  · exact unbroken_after (by decide) (Options.unbroken_of_merge refused)
  · rw [refused] at other
    cases other
    exact errors

theorem settles_of_tells {config : Config} (accepted : o.merge file = .ok config)
    (tells : r.Tells o d text (.fresh config.preset.registers config.width))
    (converts : ∀ count, ¬Program.BreaksOff (Program.clean text) count) :
    r.Settles o d file text := by
  obtain ⟨ending, errors, -, shown, -⟩ := tells
  have success : r.Succeeds ↔ Program.verdict text = (.status 0, "") := by
    rw [Succeeds, ending, errors, Prod.ext_iff]
  refine ⟨?_, fun failed => ?_, fun e refused => ?_, fun _ _ unusable => ?_, fun _ _ => ?_,
    fun config' same usable => ?_, fun _ _ => ⟨ending, errors⟩⟩
  · rw [success, Program.verdict_eq_zero_iff]
    exact ⟨fun all => ⟨⟨config, accepted⟩, all⟩, fun all => all.2⟩
  · rw [success] at failed
    rw [ending, errors]
    exact Program.verdict_of_ne_zero failed converts
  · rw [accepted] at refused
    cases refused
  · rw [errors, Program.verdict_of_clean_eq_nil unusable]
  · intro program k inside
    obtain ⟨e, he, told⟩ := Program.verdict_of_firstFault inside converts
    refine ⟨e, he, ?_⟩
    rw [errors, told, Instruction.message_of_parse he (by omega)]
  · rw [accepted] at same
    cases same
    exact shown usable converts

theorem stopsShort_of_tells {m : Machine} {count : Nat} (tells : r.Tells o d text m)
    (breaks : Program.BreaksOff (Program.clean text) count) :
    r.StopsShort d (Program.clean text) m count := by
  obtain ⟨inside, failure⟩ := breaks
  obtain ⟨_, same, beyond⟩ := Instruction.tooManyDigits_of_parse failure
  cases same
  refine ⟨beyond, ?_, ?_, tells.broken count ⟨inside, failure⟩⟩
  · rw [tells.ending, Program.BreaksOff.verdict_eq ⟨inside, failure⟩]
  · rw [tells.errors, Program.BreaksOff.verdict_eq ⟨inside, failure⟩]

/-- A command that stops short does not end with a status, as it is meant to. -/
theorem StopsShort.not_settles {program : List String} {m : Machine} {count : Nat}
    (short : r.StopsShort d program m count) : ¬r.Settles o d file text := by
  intro settles
  by_cases success : r.Succeeds
  · cases short.ending.symm.trans success.1
  · cases short.ending.symm.trans (settles.fails success).1

end Report

/-- How a command line ends. With arguments that are accepted and files that can be read, it is meant to
end with the status zero and without a word about errors exactly if the settings are accepted, the
program has a line, and each of its lines is an instruction. Otherwise the status is to be one, and one
line to tell what is wrong. The lines in front of the first one at fault, and no others, are executed and
shown, and the tables show the state after them. Once the settings are accepted, the status and what is
said about errors depend on the program text alone. All this holds, if no time passes in the pauses,
with one exception: a first line at fault whose literal has too many digits breaks the command. The
command itself does the same as one without pauses, unless it comes to a pause that is too long to be
waited for. -/
theorem Journal.command_settles {j : Journal} {d : Display} {args : List String}
    {around : Surroundings} {o : Options} {text : String} {file : Option Config}
    (h : j.Readable args around o text file) :
    let program := Program.clean text
    ((j.commandAtOnce d args around).Settles o d file text ↔
      ¬((∃ config, o.merge file = .ok config) ∧ ∃ count, Program.BreaksOff program count)) ∧
    (∀ config count, o.merge file = .ok config → Program.BreaksOff program count →
      (j.commandAtOnce d args around).StopsShort d program
        (.fresh config.preset.registers config.width) count) ∧
    ((j.command d args around).1.Agrees (j.commandAtOnce d args around) ∨
      ∃ config, o.merge file = .ok config ∧ config.delay.fitsClock = false ∧
        (j.command d args around).1.ending = .broken (.run .pauseTooLong)) := by
  rcases merged : o.merge file with e | config
  · rw [h.commandAtOnce_of_error d merged]
    refine ⟨⟨fun _ ⟨⟨_, accepted⟩, _⟩ => ?_, fun _ => ?_⟩, fun _ _ accepted => ?_,
      Or.inl ⟨rfl, rfl, rfl⟩⟩
    · cases accepted
    · exact Report.settles_of_error merged (h.command_of_error d merged)
    · cases accepted
  · have tells := h.commandAtOnce_of_ok d merged
    have performed := h.command_of_ok d merged
    refine ⟨⟨fun settles ⟨_, count, breaks⟩ => ?_, fun reads => ?_⟩,
      fun config' count same breaks => ?_, ?_⟩
    · exact (Report.stopsShort_of_tells tells breaks).not_settles settles
    · refine Report.settles_of_tells merged tells fun count breaks => ?_
      exact reads ⟨⟨config, rfl⟩, count, breaks⟩
    · cases same
      exact Report.stopsShort_of_tells tells breaks
    · rcases o.runText_cases d text config with told | ⟨broken, long⟩
      · exact Or.inl ((told.of_agrees performed).agrees tells)
      · exact Or.inr ⟨config, rfl, long, performed.ending.trans broken⟩

/-- A place where a text stands at every path. -/
def Surroundings.ofText (text : String) : Surroundings :=
  ⟨fun _ => .file text.toUTF8, fun path => .error (.isFile path)⟩

/-- Arguments that ask for a program with two seconds between the steps. -/
def slowArguments : List String := ["demo.asm", "--delay", "2"]

/-- The options that they come to. -/
def slowOptions : Options :=
  { Options.none with program := some "demo.asm", delay := .value (.ofDecimal false 2 0) }

/-- The settings that these come to. -/
def slowConfig : Config := ⟨.ofInt 16, .classic, .real (.ofDecimal false 2 0)⟩

theorem merge_slowOptions : slowOptions.merge none = .ok slowConfig := rfl

theorem readable_ofText (text : String) :
    Journal.closed.Readable slowArguments (.ofText text) slowOptions text none := by
  have decoded : String.fromUTF8? text.toUTF8 = some text := dif_pos text.isValidUTF8
  exact ⟨rfl, _, rfl, by decide, ⟨_, rfl, decoded⟩, rfl⟩

/-- A program whose second line is no instruction. -/
def faultyText : String := "NOP\n?\nNOP"

/-- The command says what is wrong with the second line. -/
theorem faultyText_settled :
    Journal.closed.Readable slowArguments (.ofText faultyText) slowOptions faultyText none ∧
      let report := (Journal.closed.command .withoutColours slowArguments (.ofText faultyText)).1
      report.ending = .status 1 ∧ report.errors = "Parse error: Line 2: Cannot parse '?'\n" := by
  have readable := readable_ofText faultyText
  have usable : Program.clean faultyText ≠ [] := by decide +kernel
  have failure : Program.firstFailure? (Program.clean faultyText) =
      some (.fault ⟨.unreadable "?", 2, "?"⟩) := by
    decide +kernel
  have verdict : Program.verdict faultyText =
      (.status 1, "Parse error: Line 2: Cannot parse '?'\n") := by
    rw [Program.verdict_of_clean_ne_nil usable, failure]
    rfl
  refine ⟨readable, ?_⟩
  obtain ⟨settles, -, alike | ⟨config, accepted, long, -⟩⟩ :=
    Journal.command_settles (d := .withoutColours) readable
  · have told := settles.mpr fun ⟨_, count, breaks⟩ => by
      have broken := breaks.verdict_eq
      rw [verdict] at broken
      cases congrArg Prod.fst broken
    obtain ⟨ending, errors⟩ := told.independent _ merge_slowOptions
    rw [verdict] at ending errors
    exact ⟨alike.ending.trans ending, alike.errors.trans errors⟩
  · rw [merge_slowOptions] at accepted
    cases accepted
    have fits : slowConfig.delay.fitsClock = true := by decide +kernel
    rw [fits] at long
    cases long

/-- Not every command ends as it is meant to: one whose program has a literal of too many digits has no
status at all. -/
theorem commands_break_off_at_long_literals :
    ¬ ∀ (j : Journal) (d : Display) (args : List String) (around : Surroundings) (o : Options)
      (text : String) (file : Option Config), j.Readable args around o text file →
        (j.commandAtOnce d args around).Settles o d file text := by
  intro all
  have readable := readable_ofText longJump
  have settles := all .closed .withoutColours slowArguments _ slowOptions longJump none readable
  have tells := readable.commandAtOnce_of_ok .withoutColours merge_slowOptions
  have breaks : Program.BreaksOff (Program.clean longJump) 4301 := by
    rw [clean_longJump]
    exact Session.endsWith_longJump.breaksOff_iff.mpr rfl
  exact (Report.stopsShort_of_tells tells breaks).not_settles settles

end BusCycle
