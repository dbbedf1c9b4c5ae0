-- What a command shows of a run, on any display. Pauses leave no trace in what is printed. The tables
-- follow if the run comes back; a run that breaks off takes the command with it.
import BusCycle.Command.Console
import BusCycle.Proofs.Session.LinearFlow

namespace BusCycle

/-! ## Printed text -/

/-- The text of what is put out, without the pauses. -/
def Output.joined (output : List Output) : String :=
  String.join (output.filterMap fun
    | .print text => some text
    | .pause _ => none)

theorem Output.joined_append (first second : List Output) :
    joined (first ++ second) = joined first ++ joined second := by
  unfold joined
  rw [List.filterMap_append, String.join_append]

/-- What is printed for a step, if it executed a line: the line with its place in bold, the log of the
bus as it is, and an empty line. -/
def StepResult.shown (d : Display) : StepResult → String
  | executed index line log =>
    d.marked ("[bold]" ++ d.escape (stepTitle index line) ++ "[/bold]") ++ d.plain log ++ d.blank
  | _ => ""

/-- What is printed for steps, one after another. -/
def StepResult.shownAll (d : Display) (results : List StepResult) : String :=
  String.join (results.map (shown d))

namespace StepResult

theorem shownAll_cons (d : Display) (r : StepResult) (rest : List StepResult) :
    shownAll d (r :: rest) = r.shown d ++ shownAll d rest := by
  unfold shownAll
  rw [List.map_cons, String.join_cons]

theorem shownAll_append (d : Display) (first second : List StepResult) :
    shownAll d (first ++ second) = shownAll d first ++ shownAll d second := by
  unfold shownAll
  rw [List.map_append, String.join_append]

theorem joined_stepped (d : Display) (r : StepResult) :
    Output.joined (Options.eventOutput d (.stepped r)) = r.shown d := by
  cases r with
  | executed index line log =>
    simp [Output.joined, Options.eventOutput, shown, String.append_assoc]
  | halted | rejected | noProgram => rfl

end StepResult

/-- Of the events of a run only the steps are printed. -/
theorem RunReport.joined_events (r : RunReport) (d : Display) :
    Output.joined (r.events.flatMap (Options.eventOutput d)) = StepResult.shownAll d r.results := by
  obtain ⟨events, fault, s⟩ := r
  unfold results
  dsimp only
  induction events with
  | nil => rfl
  | cons event rest ih =>
    rw [List.flatMap_cons, Output.joined_append, ih]
    cases event with
    | stepped r =>
      rw [r.joined_stepped]
      exact (StepResult.shownAll_cons d r _).symm
    | paused | cancelled => exact String.empty_append

/-! ## A loaded session -/

/-- How a command ends whose run met a line that is not read, or none, and what it says about it. -/
def Report.verdict : Option (ReadFailure LineError) → Ending × String
  | some (.fault e) => (.status 1, "Parse error: " ++ e.message ++ "\n")
  | some (.conversion c) => (.broken (.run (.conversion c)), "")
  | none => (.status 0, "")

namespace Options

variable {s : Session}

/-- A run that comes back is shown step by step, then the tables of the session after it. How the
command ends is up to the last step. -/
theorem runLoaded_of_back (o : Options) (d : Display)
    (back : (s.run Option.none .unlimited).fault = Option.none) :
    let whole := s.run Option.none .unlimited
    let verdict := Report.verdict ((whole.results.getLast?.bind StepResult.error?).map .fault)
    (o.runLoaded d s).ending = verdict.1 ∧ (o.runLoaded d s).errors = verdict.2 ∧
      (o.runLoaded d s).text = StepResult.shownAll d whole.results ++
        Output.joined (o.tables d whole.session.snapshot) := by
  have answer := RunReport.answer_eq_ok_iff.mpr ⟨back, rfl⟩
  have shown : Output.joined
      ((s.run Option.none .unlimited).events.flatMap (eventOutput d) ++
        o.tables d (s.run Option.none .unlimited).session.snapshot) =
      StepResult.shownAll d (s.run Option.none .unlimited).results ++
        Output.joined (o.tables d (s.run Option.none .unlimited).session.snapshot) := by
    rw [Output.joined_append, RunReport.joined_events]
  unfold runLoaded
  dsimp only
  rw [answer]
  dsimp only
  rcases (s.run Option.none .unlimited).results.getLast?.bind StepResult.error? with _ | e
  · exact ⟨rfl, rfl, shown⟩
  · exact ⟨rfl, rfl, shown⟩

/-- A run that breaks off is shown up to there, and the command breaks off with it. -/
theorem runLoaded_of_fault (o : Options) (d : Display) {fault : RunFault}
    (failure : (s.run Option.none .unlimited).fault = some fault) :
    (o.runLoaded d s).ending = .broken (.run fault) ∧ (o.runLoaded d s).errors = "" ∧
      (o.runLoaded d s).text = StepResult.shownAll d (s.run Option.none .unlimited).results := by
  have answer : (s.run Option.none .unlimited).answer = .error fault := by
    unfold RunReport.answer
    rw [failure]
  unfold runLoaded
  dsimp only
  rw [answer]
  exact ⟨rfl, rfl, RunReport.joined_events _ d⟩

end Options

end BusCycle
