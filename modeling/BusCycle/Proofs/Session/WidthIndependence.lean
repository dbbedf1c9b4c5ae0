-- The width of the bus is a matter of the bus alone. Two sessions with one preset that are asked for
-- the same things stay the same in all that a program can tell, whatever bus widths they are given
-- on the way.
import BusCycle.Proofs.Machine.Effect
import BusCycle.Proofs.Session.Operations
import Mathlib.Data.List.Forall2

namespace BusCycle

/-! ## Machines -/

namespace Machine

/-- Two machines that differ at most in their bus: its width, its steps and its log. -/
structure SameInside (m n : Machine) : Prop where
  registers : m.registers = n.registers
  memory : m.memory = n.memory
  history : m.history = n.history

variable {m n : Machine}

theorem SameInside.fetch (h : SameInside m n) (code : List CodeByte) :
    SameInside (m.fetch code) (n.fetch code) := by
  refine ⟨?_, ?_, ?_⟩
  · simp only [registers_fetch, h.registers]
  · simp only [memory_fetch, h.registers, h.memory]
  · simp only [history_fetch, fetchReference, h.registers, h.history]

/-- The word that crosses the bus is chosen by the registers and comes from the memory. -/
theorem SameInside.execute (h : SameInside m n) (a : Assembled) :
    SameInside (m.execute a) (n.execute a) := by
  have hm := m.did_execute a
  have hn := n.did_execute a
  refine ⟨?_, ?_, ?_⟩
  · rw [hm.registers, hn.registers, wordRead, wordRead, h.registers, h.memory]
  · rw [hm.memory, hn.memory, h.registers, h.memory]
  · rw [hm.history, hn.history, h.registers, h.history]

theorem SameInside.cycle (h : SameInside m n) (a : Assembled) :
    SameInside (m.cycle a) (n.cycle a) :=
  (h.fetch a.code).execute a

end Machine

/-! ## What there is to see apart from the bus -/

/-- All that can be seen of a session but its bus: no bus width, no bus steps, no transactions and no
text of a log. -/
structure View where
  phase : Phase
  pc : Nat
  program : List String
  registers : Registers
  memory : Memory
  history : List Reference
  flow : List (Nat × String)

namespace Session

/-- The view of a session. -/
def view (s : Session) : View where
  phase := s.phase
  pc := s.pc
  program := s.program
  registers := s.machine.registers
  memory := s.machine.memory
  history := s.machine.history
  flow := s.flow.map fun e => (e.index, e.instruction)

/-- Two sessions that differ at most in their bus, now and after a load or a reset. -/
structure SameView (s t : Session) : Prop where
  preset : s.config.preset = t.config.preset
  phase : s.phase = t.phase
  pc : s.pc = t.pc
  program : s.program = t.program
  machine : s.machine.SameInside t.machine
  flow : s.flow.map (fun e => (e.index, e.instruction)) =
    t.flow.map fun e => (e.index, e.instruction)

end Session

/-- A result without its log. -/
def StepResult.withoutLog : StepResult → StepResult
  | executed index line _ => executed index line ""
  | r => r

/-- An answer without the log of a step. -/
def Answer.withoutLog : Answer → Answer
  | stepped r => stepped (r.map StepResult.withoutLog)
  | a => a

namespace Session

variable {s t : Session}

theorem SameView.view_eq (h : SameView s t) : s.view = t.view := by
  simp only [view, h.phase, h.pc, h.program, h.machine.registers, h.machine.memory,
    h.machine.history, h.flow]

theorem sameView_new {c d : Config} (same : c.preset = d.preset) :
    SameView (.new c) (.new d) :=
  ⟨same, rfl, rfl, rfl, ⟨congrArg Preset.registers same, rfl, rfl⟩, rfl⟩

/-! ## Operations keep the view -/

theorem SameView.setWidth (h : SameView s t) (v w : BusWidth) :
    SameView { s with width := v } { t with width := w } :=
  ⟨h.preset, h.phase, h.pc, h.program, h.machine, h.flow⟩

theorem SameView.start (h : SameView s t) (v w : BusWidth) (program : List String) :
    SameView (s.start v program) (t.start w program) :=
  ⟨h.preset, rfl, rfl, rfl, ⟨congrArg Preset.registers h.preset, rfl, rfl⟩, rfl⟩

theorem SameView.reset (h : SameView s t) : SameView s.reset t.reset :=
  ⟨h.preset, rfl, rfl, rfl, ⟨congrArg Preset.registers h.preset, rfl, rfl⟩, rfl⟩

theorem SameView.nextLine? (h : SameView s t) : s.nextLine? = t.nextLine? := by
  simp only [Session.nextLine?, h.phase, h.pc, h.program]

theorem SameView.advance (h : SameView s t) (line : String) (i : Instruction) :
    SameView (s.advance line i) (t.advance line i) := by
  have ready : s.ready.SameInside t.ready :=
    ⟨h.machine.registers, h.machine.memory, h.machine.history⟩
  have assembled : s.assemble i = t.assemble i := by
    simp only [Session.assemble, h.machine.registers]
  refine ⟨h.preset, ?_, ?_, h.program, ?_, ?_⟩
  · simp only [Session.advance, h.pc, h.program]
  · simp only [Session.advance, h.pc]
  · simp only [Session.advance, assembled]
    exact ready.cycle _
  · simp only [Session.advance, List.map_append, List.map_cons, List.map_nil, h.flow, h.pc]

theorem SameView.step (h : SameView s t) :
    s.step.1.map StepResult.withoutLog = t.step.1.map StepResult.withoutLog ∧
      SameView s.step.2 t.step.2 := by
  rcases s.step_cases with hl | ⟨line, e, hl, he⟩ | ⟨line, i, hl, hi⟩
  · rw [step_of_none hl, step_of_none (h.nextLine? ▸ hl), h.phase]
    exact ⟨rfl, h⟩
  · rw [step_of_error hl he, step_of_error (h.nextLine? ▸ hl) (h.pc ▸ he), h.pc]
    exact ⟨rfl, h⟩
  · rw [step_of_ok hl hi, step_of_ok (h.nextLine? ▸ hl) (h.pc ▸ hi), h.pc]
    exact ⟨rfl, h.advance line i⟩

end Session

/-! ## Schedules of bus widths -/

/-- A bus width in any spelling that is accepted. -/
structure OfferedWidth where
  given : Datum
  width : BusWidth
  accepted : BusWidth.check given = .ok width

/-- What is asked of a session if bus widths are left open. -/
inductive Action
  | load (text : String)
  | reset
  | step

/-- The bus widths that come with one action: those that are set before it, in order, and the one
that a load is given. -/
structure Widths where
  before : List OfferedWidth
  atLoad : Option OfferedWidth

/-- The operation that an action becomes. -/
def Action.operation (atLoad : Option OfferedWidth) : Action → Operation
  | load text => .load text (atLoad.map OfferedWidth.given)
  | reset => .reset
  | step => .step

namespace Session

/-- The session after bus widths were set. -/
def setWidths (s : Session) (widths : List OfferedWidth) : Session :=
  widths.foldl (fun s w => (s.perform (.setWidth w.given)).2) s

/-- The answer to an action that comes with bus widths, and the session after it. -/
def answer (s : Session) (action : Action) (widths : Widths) : Answer × Session :=
  (s.setWidths widths.before).perform (action.operation widths.atLoad)

/-- The answers to actions in their order, each with the session after it. -/
def answers (s : Session) : List (Action × Widths) → List (Answer × Session)
  | [] => []
  | (action, widths) :: rest =>
    let next := s.answer action widths
    next :: next.2.answers rest

variable {s t : Session}

theorem SameView.setWidths_left (h : SameView s t) (widths : List OfferedWidth) :
    SameView (s.setWidths widths) t := by
  induction widths generalizing s with
  | nil => exact h
  | cons w rest ih =>
    apply ih
    simp only [perform, setWidth_of_check w.accepted]
    exact h.setWidth w.width t.width

theorem SameView.symm (h : SameView s t) : SameView t s :=
  ⟨h.preset.symm, h.phase.symm, h.pc.symm, h.program.symm,
    ⟨h.machine.registers.symm, h.machine.memory.symm, h.machine.history.symm⟩, h.flow.symm⟩

/-- Any two widths with which a text is loaded give the same answer. -/
theorem SameView.load (h : SameView s t) (text : String) (v w : Option OfferedWidth) :
    (s.perform (.load text (v.map OfferedWidth.given))).1 =
        (t.perform (.load text (w.map OfferedWidth.given))).1 ∧
      SameView (s.perform (.load text (v.map OfferedWidth.given))).2
        (t.perform (.load text (w.map OfferedWidth.given))).2 := by
  have loaded : ∀ (u : Session) (o : Option OfferedWidth), ∃ x,
      u.load text (o.map OfferedWidth.given) =
        if (Program.clean text).isEmpty then .error .emptyProgram
        else .ok (u.start x (Program.clean text)) := by
    intro u o
    cases o with
    | none => exact ⟨u.width, u.load_none text⟩
    | some x => exact ⟨x.width, load_of_check x.accepted u text⟩
  obtain ⟨x, hs⟩ := loaded s v
  obtain ⟨y, ht⟩ := loaded t w
  by_cases empty : (Program.clean text).isEmpty = true
  · simp only [perform, hs, ht, if_pos empty]
    exact ⟨trivial, h⟩
  · simp only [perform, hs, ht, if_neg empty]
    exact ⟨trivial, h.start x y _⟩

theorem SameView.answer (h : SameView s t) (action : Action) (v w : Widths) :
    (s.answer action v).1.withoutLog = (t.answer action w).1.withoutLog ∧
      SameView (s.answer action v).2 (t.answer action w).2 := by
  have set := ((h.setWidths_left v.before).symm.setWidths_left w.before).symm
  cases action with
  | load text =>
    obtain ⟨ha, hv⟩ := set.load text v.atLoad w.atLoad
    exact ⟨congrArg Answer.withoutLog ha, hv⟩
  | reset => exact ⟨rfl, set.reset⟩
  | step =>
    obtain ⟨ha, hv⟩ := set.step
    exact ⟨congrArg Answer.stepped ha, hv⟩

theorem SameView.answers (h : SameView s t) (actions : List (Action × Widths × Widths)) :
    List.Forall₂ (fun x y => x.1.withoutLog = y.1.withoutLog ∧ x.2.view = y.2.view)
      (s.answers (actions.map fun r => (r.1, r.2.1)))
      (t.answers (actions.map fun r => (r.1, r.2.2))) := by
  induction actions generalizing s t with
  | nil => exact .nil
  | cons r rest ih =>
    obtain ⟨ha, hv⟩ := h.answer r.1 r.2.1 r.2.2
    exact .cons ⟨ha, hv.view_eq⟩ (ih hv)

/-- Two sessions with one preset are given the same actions, and each its own bus widths: one at the
start, any number between actions, one with any load. After every action their answers are the
same but for the log, and so are phase, program, place in it, registers, memory, history and flow. -/
theorem bus_width_is_invisible (preset : Preset) (v w : BusWidth) (delay delay' : Quantity)
    (actions : List (Action × Widths × Widths)) :
    (new ⟨v, preset, delay⟩).view = (new ⟨w, preset, delay'⟩).view ∧
      List.Forall₂ (fun x y => x.1.withoutLog = y.1.withoutLog ∧ x.2.view = y.2.view)
        ((new ⟨v, preset, delay⟩).answers (actions.map fun r => (r.1, r.2.1)))
        ((new ⟨w, preset, delay'⟩).answers (actions.map fun r => (r.1, r.2.2))) := by
  have start : SameView (new ⟨v, preset, delay⟩) (new ⟨w, preset, delay'⟩) := sameView_new rfl
  exact ⟨start.view_eq, start.answers actions⟩

end Session

end BusCycle
