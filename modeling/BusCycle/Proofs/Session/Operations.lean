-- What can be asked of a session, and the sessions that a sequence of operations leads to.
-- A step is told apart here into its three ways, so that no other proof has to open it.
import BusCycle.Session.Run

namespace BusCycle

/-! ## Operations -/

/-- Something that is asked of a session. -/
inductive Operation
  | load (text : String) (width : Option Datum)
  | reset
  | step
  | run (delay : Option Quantity) (limits : RunLimits)
  | setWidth (width : Datum)

/-- What a session answers to an operation. -/
inductive Answer
  | loaded (fault : Option LoadError)
  | reset
  | stepped (result : Except ConversionFault StepResult)
  | ran (results : Except RunFault (List StepResult))
  | widthSet (fault : Option ConfigError)

/-- The answer to an operation, and the session after it. Where an operation ends with a fault, the
session goes on as it was. -/
def Session.perform (s : Session) : Operation → Answer × Session
  | .load text width =>
    match s.load text width with
    | .ok next => (.loaded none, next)
    | .error e => (.loaded (some e), s)
  | .reset => (.reset, s.reset)
  | .step => (.stepped s.step.1, s.step.2)
  | .run delay limits => (.ran (s.run delay limits).answer, (s.run delay limits).session)
  | .setWidth width =>
    match s.setWidth width with
    | .ok next => (.widthSet none, next)
    | .error e => (.widthSet (some e), s)

/-- Settings that passed their checks. -/
def Config.Accepted (c : Config) : Prop :=
  ∃ width preset delay, Config.ofData width preset delay = .ok c

theorem Config.accepted_default : Config.default.Accepted :=
  ⟨Config.defaultWidth, Config.defaultPreset, .number (.real Config.defaultDelay), by rfl⟩

/-- The sessions that operations lead to, from a new one with settings `c`. -/
inductive Session.Reachable (c : Config) : Session → Prop
  | new : Reachable c (.new c)
  | perform {s : Session} (op : Operation) (h : Reachable c s) : Reachable c (s.perform op).2

namespace Session

/-! ## The three ways of a step -/

theorem step_of_none {s : Session} (h : s.nextLine? = none) :
    s.step = (.ok (if s.phase = .idle then .noProgram else .halted), s) := by
  simp only [step, h]

theorem step_of_error {s : Session} {line : String} {failure : ReadFailure LineError}
    (h : s.nextLine? = some line) (he : Instruction.parse line (s.pc + 1) = .error failure) :
    s.step = (StepResult.ofFailure s.pc line failure, s) := by
  simp only [step, h, he]

theorem step_of_ok {s : Session} {line : String} {i : Instruction}
    (h : s.nextLine? = some line) (hi : Instruction.parse line (s.pc + 1) = .ok i) :
    s.step =
      (.ok (.executed s.pc line (s.advance line i).machine.bus.text), s.advance line i) := by
  simp only [step, h, hi]

/-- There is no line, or the line is not read, or it is executed. -/
theorem step_cases (s : Session) :
    s.nextLine? = none ∨
    (∃ line failure,
      s.nextLine? = some line ∧ Instruction.parse line (s.pc + 1) = .error failure) ∨
    ∃ line i, s.nextLine? = some line ∧ Instruction.parse line (s.pc + 1) = .ok i := by
  rcases hl : s.nextLine? with _ | line
  · exact Or.inl rfl
  · rcases hp : Instruction.parse line (s.pc + 1) with failure | i
    · exact Or.inr (Or.inl ⟨line, failure, rfl, hp⟩)
    · exact Or.inr (Or.inr ⟨line, i, rfl, hp⟩)

/-- A step that executed a line found it, and it is an instruction. -/
theorem step_eq_executed {s next : Session} {index : Nat} {line log : String}
    (h : s.step = (.ok (.executed index line log), next)) :
    ∃ i, s.nextLine? = some line ∧ Instruction.parse line (s.pc + 1) = .ok i ∧
      next = s.advance line i := by
  rcases s.step_cases with hn | ⟨l, failure, hl, he⟩ | ⟨l, i, hl, hi⟩
  · rw [step_of_none hn] at h
    split at h <;> cases h
  · rw [step_of_error hl he] at h
    cases failure <;> cases h
  · rw [step_of_ok hl hi] at h
    cases h
    exact ⟨i, hl, hi, rfl⟩

/-! ## Whether a step executes a line -/

/-- A step that executes no line changes nothing. -/
theorem step_of_not_executes {s : Session} (h : s.executes = false) : s.step.2 = s := by
  rcases s.step_cases with hn | ⟨_, _, hl, he⟩ | ⟨_, _, hl, hi⟩
  · rw [step_of_none hn]
  · rw [step_of_error hl he]
  · rw [executes, step_of_ok hl hi] at h
    cases h

/-- A step that executes a line has one, and the line is an instruction. -/
theorem line_of_executes {s : Session} (h : s.executes = true) :
    ∃ line i, s.nextLine? = some line ∧ Instruction.parse line (s.pc + 1) = .ok i := by
  rcases s.step_cases with hn | ⟨_, failure, hl, he⟩ | executed
  · rw [executes, step_of_none hn] at h
    split at h <;> cases h
  · rw [executes, step_of_error hl he] at h
    cases failure <;> cases h
  · exact executed

/-- A step gives a result of an executed line just if it executes one. -/
theorem executes_of_ok {s : Session} {result : StepResult} (h : s.step.1 = .ok result) :
    s.executes = result.ok := by
  rw [executes, h]
  rfl

theorem not_executes_of_error {s : Session} {fault : ConversionFault}
    (h : s.step.1 = .error fault) : s.executes = false := by
  rw [executes, h]
  rfl

/-! ## What a step keeps -/

theorem width_step (s : Session) : s.step.2.width = s.width := by
  rcases s.step_cases with h | ⟨_, _, h, he⟩ | ⟨_, _, h, hi⟩
  · rw [step_of_none h]
  · rw [step_of_error h he]
  · rw [step_of_ok h hi]
    rfl

theorem config_step (s : Session) : s.step.2.config = s.config := by
  rcases s.step_cases with h | ⟨_, _, h, he⟩ | ⟨_, _, h, hi⟩
  · rw [step_of_none h]
  · rw [step_of_error h he]
  · rw [step_of_ok h hi]
    rfl

/-- What every step keeps, every run keeps. -/
theorem run_keeps {P : Session → Prop} (keeps : ∀ s, P s → P s.step.2) {s : Session} (h : P s)
    (delay : Option Quantity) (limits : RunLimits) : P (s.run delay limits).session := by
  unfold run
  generalize delay.getD s.config.delay = pause
  generalize s.remaining + 1 = fuel
  generalize 0 = count
  induction fuel generalizing s count with
  | zero => exact h
  | succ fuel ih =>
    have next := keeps s h
    unfold runFrom
    split
    · exact h
    split
    · exact h
    split
    · rename_i broken
      rw [broken] at next
      exact next
    · rename_i given
      rw [given] at next
      split
      · exact next
      split
      · exact next
      · exact ih next (count + 1)

end Session

/-! ## Bus widths that are checked -/

theorem BusWidth.isOffered_of_ofDatum {d : Datum} {w : BusWidth}
    (h : BusWidth.ofDatum d = .ok w) : w.IsOffered := by
  unfold BusWidth.ofDatum at h
  cases d with
  | number q =>
    dsimp only at h
    split at h
    · cases h
      exact Or.inl rfl
    · split at h
      · cases h
        exact Or.inr rfl
      · cases h
  | _ => cases h

theorem BusWidth.isOffered_of_check {d : Datum} {w : BusWidth} (h : BusWidth.check d = .ok w) :
    w.IsOffered := by
  unfold BusWidth.check at h
  rcases hd : BusWidth.ofDatum d with e | v
  · rw [hd] at h
    cases h
  · rw [hd] at h
    cases h
    have offered : v.IsOffered := BusWidth.isOffered_of_ofDatum hd
    exact offered

namespace Config

/-! ## Settings -/

variable {width preset : Datum}

theorem ofData_of_ok {w : BusWidth} {p : Preset} (hw : BusWidth.ofDatum width = .ok w)
    (hp : Preset.ofDatum preset = .ok p) (delay : Datum) :
    ofData width preset delay = (delayOfDatum delay).map fun q => ⟨w, p, q⟩ := by
  unfold ofData
  rw [hw, hp]
  cases delayOfDatum delay <;> rfl

theorem ofData_of_width_error {e : ConfigError} (hw : BusWidth.ofDatum width = .error e)
    (delay : Datum) : ofData width preset delay = .error e := by
  unfold ofData
  rw [hw]
  rfl

theorem ofData_of_preset_error {w : BusWidth} {e : ConfigError}
    (hw : BusWidth.ofDatum width = .ok w) (hp : Preset.ofDatum preset = .error e) (delay : Datum) :
    ofData width preset delay = .error e := by
  unfold ofData
  rw [hw, hp]
  rfl

theorem Accepted.isOffered_width {c : Config} (h : c.Accepted) : c.width.IsOffered := by
  obtain ⟨width, preset, delay, h⟩ := h
  rcases hw : BusWidth.ofDatum width with e | w
  · rw [ofData_of_width_error hw] at h
    cases h
  · rcases hp : Preset.ofDatum preset with e | p
    · rw [ofData_of_preset_error hw hp] at h
      cases h
    · rw [ofData_of_ok hw hp] at h
      rcases hd : delayOfDatum delay with e | q
      · rw [hd] at h
        cases h
      · rw [hd] at h
        cases h
        exact BusWidth.isOffered_of_ofDatum hw

end Config

namespace Session

/-! ## Loading -/

theorem load_none (s : Session) (text : String) :
    s.load text none =
      if (Program.clean text).isEmpty then .error .emptyProgram
      else .ok (s.start s.width (Program.clean text)) := rfl

theorem load_of_check {d : Datum} {w : BusWidth} (h : BusWidth.check d = .ok w) (s : Session)
    (text : String) :
    s.load text (some d) =
      if (Program.clean text).isEmpty then .error .emptyProgram
      else .ok (s.start w (Program.clean text)) := by
  simp only [load, h]
  rfl

theorem load_of_check_error {d : Datum} {e : ConfigError} (h : BusWidth.check d = .error e)
    (s : Session) (text : String) : s.load text (some d) = .error (.config e) := by
  simp only [load, h]
  rfl

theorem setWidth_of_check {d : Datum} {w : BusWidth} (h : BusWidth.check d = .ok w)
    (s : Session) : s.setWidth d = .ok { s with width := w } := by
  simp only [setWidth, h]
  rfl

theorem setWidth_of_check_error {d : Datum} {e : ConfigError} (h : BusWidth.check d = .error e)
    (s : Session) : s.setWidth d = .error e := by
  simp only [setWidth, h]
  rfl

/-! ## The width of a session that operations lead to -/

theorem isOffered_width_load {s next : Session} {text : String} {width : Option Datum}
    (h : s.width.IsOffered) (hl : s.load text width = .ok next) : next.width.IsOffered := by
  rcases width with _ | d
  · rw [load_none] at hl
    split at hl
    · cases hl
    · cases hl
      exact h
  · rcases hd : BusWidth.check d with e | w
    · rw [load_of_check_error hd] at hl
      cases hl
    · rw [load_of_check hd] at hl
      split at hl
      · cases hl
      · cases hl
        exact BusWidth.isOffered_of_check hd

theorem isOffered_width_perform {s : Session} (h : s.width.IsOffered) (op : Operation) :
    (s.perform op).2.width.IsOffered := by
  cases op with
  | load text width =>
    unfold perform
    dsimp only
    split
    · rename_i next hl
      exact isOffered_width_load h hl
    · exact h
  | reset => exact h
  | step =>
    rw [← s.width_step] at h
    exact h
  | run delay limits =>
    have keeps : ∀ t : Session, t.width.IsOffered → t.step.2.width.IsOffered :=
      fun t ht => t.width_step ▸ ht
    exact run_keeps keeps h delay limits
  | setWidth d =>
    rcases hd : BusWidth.check d with e | w
    · simp only [perform, setWidth_of_check_error hd]
      exact h
    · simp only [perform, setWidth_of_check hd]
      exact BusWidth.isOffered_of_check hd

/-- Every session that accepted settings and operations lead to has one of the two widths. -/
theorem Reachable.isOffered_width {c : Config} {s : Session} (h : Reachable c s)
    (accepted : c.Accepted) : s.width.IsOffered := by
  induction h with
  | new => exact accepted.isOffered_width
  | perform op _ ih => exact isOffered_width_perform ih op

end Session

end BusCycle
