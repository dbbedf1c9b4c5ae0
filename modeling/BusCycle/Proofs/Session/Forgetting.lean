-- What a session forgets. Nothing outlives a load or a reset but the settings of the session and the
-- bus width that is set, whatever was asked before. A width may be spelled as a real number and is
-- still the same width: of two sessions that differ in the spelling only, nothing tells which is which.
import BusCycle.Proofs.Session.Failure
import BusCycle.Session.Snapshot

namespace BusCycle

/-! ## Apart from the spelling of widths -/

/-- The width spelled as a whole number. -/
def BusWidth.plain (w : BusWidth) : BusWidth := .ofInt w.lines

def Machine.plain (m : Machine) : Machine := { m with width := m.width.plain }

/-- The session with its two widths spelled as whole numbers. -/
def Session.plain (s : Session) : Session :=
  { s with width := s.width.plain, machine := s.machine.plain }

def Snapshot.plain (s : Snapshot) : Snapshot := { s with width := s.width.plain }

def RunReport.plain (r : RunReport) : RunReport := { r with session := r.session.plain }

theorem Session.plain_snapshot (s : Session) : s.plain.snapshot = s.snapshot.plain := rfl

/-- A width that was checked is spelled as a whole number. -/
theorem BusWidth.plain_of_check {d : Datum} {w : BusWidth} (h : BusWidth.check d = .ok w) :
    w.plain = w := by
  unfold BusWidth.check at h
  rcases hd : BusWidth.ofDatum d with e | v
  · rw [hd] at h
    cases h
  · rw [hd] at h
    cases h
    rfl

namespace Machine

theorem plain_fetch (m : Machine) (code : List CodeByte) :
    m.plain.fetch code = (m.fetch code).plain := rfl

theorem plain_computeBinary (m : Machine) (op : BinaryOp) (dest : General) (right : Int) :
    m.plain.computeBinary op dest right = (m.computeBinary op dest right).plain := by
  unfold computeBinary
  cases op.stores <;> rfl

theorem plain_branch (m : Machine) (condition : Condition) (target : Word) :
    m.plain.branch condition target = (m.branch condition target).plain := by
  unfold branch
  by_cases taken : condition.holds m.registers.flags = true
  · rw [if_pos taken]
    exact if_pos taken
  · rw [if_neg taken]
    exact if_neg taken

theorem plain_loop (m : Machine) (target : Word) :
    m.plain.loop target = (m.loop target).plain := by
  unfold loop
  by_cases spent : m.registers.cx - 1 = 0
  · simp only [if_pos spent]
    exact if_pos spent
  · simp only [if_neg spent]
    exact if_neg spent

theorem plain_executeForm (m : Machine) (f : Form) :
    m.plain.executeForm f = (m.executeForm f).plain := by
  cases f with
  | binary op dest src => exact m.plain_computeBinary op dest _
  | binaryImmediate op dest value => exact m.plain_computeBinary op dest value
  | branch condition target => exact m.plain_branch condition _
  | loop target => exact m.plain_loop _
  | _ => rfl

theorem plain_cycle (m : Machine) (a : Assembled) : m.plain.cycle a = (m.cycle a).plain := by
  unfold cycle execute
  rw [plain_fetch]
  cases a.form with
  | none => rfl
  | some f => exact (m.fetch a.code).plain_executeForm f

end Machine

namespace Session

/-! ## Operations do not heed the spelling -/

theorem plain_nextLine? (s : Session) : s.plain.nextLine? = s.nextLine? := rfl

theorem plain_advance (s : Session) (line : String) (i : Instruction) :
    s.plain.advance line i = (s.advance line i).plain := by
  have cycle : s.plain.ready.cycle (s.plain.assemble i) = (s.ready.cycle (s.assemble i)).plain :=
    s.ready.plain_cycle (s.assemble i)
  unfold advance
  rw [cycle]
  rfl

theorem plain_step (s : Session) : s.plain.step = (s.step.1, s.step.2.plain) := by
  rcases s.step_cases with hl | ⟨line, e, hl, he⟩ | ⟨line, i, hl, hi⟩
  · rw [step_of_none hl, step_of_none (s.plain_nextLine?.trans hl)]
    rfl
  · rw [step_of_error hl he, step_of_error (s.plain_nextLine?.trans hl) he]
    rfl
  · rw [step_of_ok hl hi, step_of_ok (s.plain_nextLine?.trans hl) hi, plain_advance]
    rfl

theorem plain_runFrom (s : Session) (pause : Quantity) (limits : RunLimits) (fuel count : Nat) :
    s.plain.runFrom pause limits fuel count = (s.runFrom pause limits fuel count).plain := by
  induction fuel generalizing s count with
  | zero => rfl
  | succ fuel ih =>
    unfold runFrom
    rw [plain_step]
    by_cases stop : limits.stopped count = true
    · rw [if_pos stop, if_pos stop]
      rfl
    rw [if_neg stop, if_neg stop]
    by_cases reached : limits.reached count = true
    · rw [if_pos reached, if_pos reached]
      rfl
    rw [if_neg reached, if_neg reached]
    rcases s.step with ⟨fault | result, next⟩
    · rfl
    have phase : next.plain.phase = next.phase := rfl
    dsimp only
    rw [phase]
    by_cases ends : (!result.ok || decide (next.phase = .halted)) = true
    · rw [if_pos ends, if_pos ends]
      rfl
    rw [if_neg ends, if_neg ends]
    by_cases endless : breaksOff pause limits (count + 1) = true
    · rw [if_pos endless, if_pos endless]
      rfl
    · rw [if_neg endless, if_neg endless, ih]
      rfl

theorem plain_run (s : Session) (delay : Option Quantity) (limits : RunLimits) :
    s.plain.run delay limits = (s.run delay limits).plain :=
  s.plain_runFrom _ limits _ 0

theorem plain_start (s : Session) (w : BusWidth) (program : List String) :
    s.plain.start w.plain program = (s.start w program).plain := rfl

theorem plain_load (s : Session) (text : String) (width : Option Datum) :
    s.plain.load text width = (s.load text width).map plain := by
  cases width with
  | none =>
    have start := s.plain_start s.width (Program.clean text)
    rw [load_none, load_none]
    by_cases empty : (Program.clean text).isEmpty = true
    · rw [if_pos empty, if_pos empty]
      rfl
    · rw [if_neg empty, if_neg empty]
      exact congrArg Except.ok start
  | some d =>
    rcases checked : BusWidth.check d with e | w
    · rw [load_of_check_error checked, load_of_check_error checked]
      rfl
    · have start := s.plain_start w (Program.clean text)
      rw [BusWidth.plain_of_check checked] at start
      rw [load_of_check checked, load_of_check checked]
      by_cases empty : (Program.clean text).isEmpty = true
      · rw [if_pos empty, if_pos empty]
        rfl
      · rw [if_neg empty, if_neg empty]
        exact congrArg Except.ok start

theorem plain_setWidth (s : Session) (width : Datum) :
    s.plain.setWidth width = (s.setWidth width).map plain := by
  rcases checked : BusWidth.check width with e | w
  · rw [setWidth_of_check_error checked, setWidth_of_check_error checked]
    rfl
  · have set : { s.plain with width := w.plain } = { s with width := w }.plain := rfl
    rw [BusWidth.plain_of_check checked] at set
    rw [setWidth_of_check checked, setWidth_of_check checked]
    exact congrArg Except.ok set

theorem plain_perform (s : Session) (op : Operation) :
    s.plain.perform op = ((s.perform op).1, (s.perform op).2.plain) := by
  cases op with
  | load text width =>
    simp only [perform, plain_load]
    cases s.load text width <;> rfl
  | reset => rfl
  | step =>
    simp only [perform, plain_step]
  | run delay limits =>
    simp only [perform, plain_run]
    rfl
  | setWidth width =>
    simp only [perform, plain_setWidth]
    cases s.setWidth width <;> rfl

theorem plain_answersTo (s : Session) (ops : List Operation) :
    s.plain.answersTo ops = (s.answersTo ops).map fun a => (a.1, a.2.plain) := by
  induction ops generalizing s with
  | nil => rfl
  | cons op rest ih => rw [answersTo, answersTo, plain_perform, ih, List.map_cons]

/-! ## Sessions that nothing tells apart -/

/-- The answers to operations in their order, each with what there is to see after it. -/
def showsTo (s : Session) (ops : List Operation) : List (Answer × Snapshot) :=
  (s.answersTo ops).map fun a => (a.1, a.2.snapshot.plain)

/-- Nothing tells the two sessions apart, neither now nor whatever is asked for later. -/
structure Alike (s t : Session) : Prop where
  shows : s.snapshot.plain = t.snapshot.plain
  later : ∀ ops, s.showsTo ops = t.showsTo ops

/-- Both sessions give the operation the same answer, and if it succeeds, nothing tells them apart
after it. -/
structure AnswerAlike (s t : Session) (op : Operation) : Prop where
  answer : (s.perform op).1 = (t.perform op).1
  after : (s.perform op).1.isFailure = false → (s.perform op).2.Alike (t.perform op).2

variable {s t : Session}

theorem showsTo_plain (s : Session) (ops : List Operation) :
    s.plain.showsTo ops = s.showsTo ops := by
  unfold showsTo
  rw [plain_answersTo, List.map_map]
  rfl

theorem Alike.of_plain (same : s.plain = t.plain) : s.Alike t where
  shows := by rw [← plain_snapshot, same, plain_snapshot]
  later ops := by rw [← showsTo_plain, same, showsTo_plain]

/-! ## What is forgotten -/

theorem plain_reset_eq (config : s.config = t.config) (width : s.width.plain = t.width.plain) :
    s.reset.plain = t.reset.plain := by
  simp only [plain, reset, Machine.plain, Machine.fresh, config, width]

theorem plain_start_eq (config : s.config = t.config) (width : s.width.plain = t.width.plain)
    (program : List String) :
    (s.start s.width program).plain = (t.start t.width program).plain := by
  simp only [plain, start, Machine.plain, Machine.fresh, config, width]

theorem load_some_eq (config : s.config = t.config) (text : String) (d : Datum) :
    s.load text (some d) = t.load text (some d) := by
  rcases checked : BusWidth.check d with e | w
  · rw [load_of_check_error checked, load_of_check_error checked]
  · rw [load_of_check checked, load_of_check checked, start, start, config]

theorem load_eq (config : s.config = t.config) (same : s.width = t.width) (text : String)
    (width : Option Datum) : s.load text width = t.load text width := by
  cases width with
  | none => rw [load_none, load_none, start, start, config, same]
  | some d => exact load_some_eq config text d

theorem answerAlike_load (config : s.config = t.config) (width : s.width.plain = t.width.plain)
    (text : String) : s.AnswerAlike t (.load text none) := by
  by_cases empty : (Program.clean text).isEmpty = true
  · have answer (u : Session) : u.perform (.load text none) = (.loaded (some .emptyProgram), u) := by
      simp only [perform, load_none, if_pos empty]
    exact ⟨by rw [answer, answer], by rw [answer]; intro ok; cases ok⟩
  · have answer (u : Session) :
        u.perform (.load text none) = (.loaded none, u.start u.width (Program.clean text)) := by
      simp only [perform, load_none, if_neg empty]
    refine ⟨by rw [answer, answer], fun _ => ?_⟩
    rw [answer, answer]
    exact .of_plain (plain_start_eq config width _)

/-- A load succeeds exactly if the text has a line of use and a width that is given is one. -/
theorem load_ok_iff (s : Session) (text : String) (width : Option Datum) :
    (∃ next, s.load text width = .ok next) ↔
      Program.clean text ≠ [] ∧ ∀ d ∈ width, d.IsBusWidth := by
  rw [← List.isEmpty_eq_false_iff]
  cases width with
  | none =>
    rw [load_none]
    cases (Program.clean text).isEmpty <;> simp
  | some d =>
    rcases BusWidth.check_cases d with ⟨good, w, checked⟩ | ⟨refused, checked⟩
    · rw [load_of_check checked]
      cases (Program.clean text).isEmpty <;> simp [good]
    · rw [load_of_check_error checked]
      simp [refused]

/-- What there is to see of a session whose machine is fresh. -/
def freshSnapshot (c : Config) (width : BusWidth) (phase : Phase) (program : List String) :
    Snapshot where
  phase
  pc := 0
  program
  width
  busStep := 1
  registers := c.preset.registers
  memory := []
  history := []
  transactions := []
  stepLog := ""
  flow := []

theorem snapshot_of_load {text : String} {width : Option Datum} {next : Session}
    (h : s.load text width = .ok next) :
    next.snapshot = freshSnapshot s.config next.width .loaded (Program.clean text) := by
  obtain ⟨w, -, -, rfl⟩ := load_eq_ok h
  rfl

theorem config_performAll (c : Config) (ops : List Operation) :
    ((new c).performAll ops).config = c := by
  rw [← Account.session_ofOperations]
  exact (Account.sound_ofOperations c ops).config

/-- A load and a reset forget all that was asked before them. Whatever operations two sessions with
the same settings have behind them: if the widths that are set are the same number, nothing tells them
apart after a load or a reset, and if they are also spelled the same or a width is given, the sessions
are equal. A reset is not noticed by a reset or a load after it. What can be seen after a reset or a
load is a fresh machine. -/
theorem load_and_reset_forget (c : Config) (past past' : List Operation) :
    let s := (new c).performAll past
    let t := (new c).performAll past'
    (s.width.lines = t.width.lines →
      s.reset.Alike t.reset ∧ ∀ text, s.AnswerAlike t (.load text none)) ∧
    (s.width = t.width →
      s.reset = t.reset ∧ ∀ text width, s.load text width = t.load text width) ∧
    (∀ text d, s.load text (some d) = t.load text (some d)) ∧
    (∀ text width, s.reset.load text width = s.load text width) ∧
    (∀ text width, (∃ next, s.load text width = .ok next) ↔
      Program.clean text ≠ [] ∧ ∀ d ∈ width, d.IsBusWidth) ∧
    (∀ text width next, s.load text width = .ok next →
      next.snapshot = freshSnapshot c next.width .loaded (Program.clean text)) ∧
    s.reset.reset = s.reset ∧ s.reset.snapshot = freshSnapshot c s.width .idle [] := by
  intro s t
  have settings : s.config = c := config_performAll c past
  have config : s.config = t.config := settings.trans (config_performAll c past').symm
  refine ⟨fun lines => ?_, fun width => ⟨?_, load_eq config width⟩, load_some_eq config,
    load_eq rfl rfl, s.load_ok_iff, fun text width next loaded => ?_, rfl, ?_⟩
  · have width : s.width.plain = t.width.plain := congrArg BusWidth.ofInt lines
    exact ⟨.of_plain (plain_reset_eq config width), answerAlike_load config width⟩
  · rw [reset, reset, config, width]
  · rw [← settings]
    exact snapshot_of_load loaded
  · rw [← settings]
    rfl

/-- Settings with a width spelled as a real number. -/
def realEight : Config := ⟨⟨8, true⟩, .classic, .whole 0⟩

/-- A new session and one that was used, with the width set to the whole number 8, show the same after
one text was loaded into both. -/
theorem realEight_loads_alike :
    let used := (new realEight).performAll [.setWidth (.number (.whole 8)), .load "PUSH AX" none, .step]
    (new realEight).width ≠ used.width ∧
      (new realEight).AnswerAlike used (.load "POP BX\nNOP" none) := by
  intro used
  have width : used.width = .ofInt 8 := by decide +kernel
  have eight : used.width.lines = 8 := congrArg BusWidth.lines width
  obtain ⟨same, -⟩ := load_and_reset_forget realEight []
    [.setWidth (.number (.whole 8)), .load "PUSH AX" none, .step]
  refine ⟨?_, (same eight.symm).2 _⟩
  rw [width]
  decide

end Session

end BusCycle
