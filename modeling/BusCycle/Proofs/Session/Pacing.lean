-- Pauses of a run that comes back. They stand between its steps and nowhere else if its last step ends
-- it. A run that is cut short by its limits makes one pause more, behind the last step, because the
-- limits are looked at only when the next step is due.
import BusCycle.Proofs.Session.LimitedRuns

namespace BusCycle

/-! ## Steps with pauses between them -/

namespace RunEvent

/-- Steps one after another with a pause between each two of them. -/
def paced (pause : Quantity) (results : List StepResult) : List RunEvent :=
  (results.map stepped).intersperse (paused pause)

/-- How long a pause is. -/
def pause? : RunEvent → Option Quantity
  | paused delay => some delay
  | _ => none

/-- Whether an event is a step or a pause. -/
def takesTime : RunEvent → Bool
  | stepped _ | paused _ => true
  | cancelled _ => false

theorem paced_cons {results : List StepResult} (filled : results ≠ []) (pause : Quantity)
    (result : StepResult) :
    paced pause (result :: results) = stepped result :: paused pause :: paced pause results := by
  obtain ⟨next, rest, rfl⟩ := List.exists_cons_of_ne_nil filled
  rfl

end RunEvent

namespace RunReport

/-- The steps and the pauses of a run, in order. -/
def timeline (r : RunReport) : List RunEvent := r.events.filter RunEvent.takesTime

/-- Whether the last step of a run ended it: one that executed nothing, or the last of the program. -/
def endsItself (r : RunReport) : Bool :=
  r.results.getLast?.any fun result => !result.ok || r.session.phase = .halted

/-- Whether limits ended a run that had made steps. -/
def isCutShort (r : RunReport) : Bool := !r.results.isEmpty && !r.endsItself

/-- The pauses that a run made behind its last step. -/
def overhang (pause : Quantity) (r : RunReport) : List Quantity :=
  if r.isCutShort then [pause] else []

/-- The steps of a run with one pause between each two of them, and no other. -/
def IsPaced (pause : Quantity) (r : RunReport) : Prop := r.timeline = RunEvent.paced pause r.results

theorem pauses_eq (r : RunReport) : r.pauses = r.timeline.filterMap RunEvent.pause? := by
  unfold pauses timeline
  rw [List.filterMap_filter]
  congr 1
  funext event
  cases event <;> rfl

/-- Between steps there is one pause less than there are steps. -/
theorem pauses_paced (pause : Quantity) (results : List StepResult) :
    (RunEvent.paced pause results).filterMap RunEvent.pause? =
      List.replicate (results.length - 1) pause := by
  induction results with
  | nil => rfl
  | cons result rest ih =>
    by_cases last : rest = []
    · rw [last]
      rfl
    · have more : (result :: rest).length - 1 = rest.length - 1 + 1 := by
        have := List.length_pos_iff.mpr last
        rw [List.length_cons]
        omega
      rw [RunEvent.paced_cons last, more, List.replicate_succ, ← ih]
      rfl

end RunReport

/-! ## The turns of a run -/

namespace Session.LoopsTo

variable {s : Session} {pause : Quantity} {limits : RunLimits} {count : Nat} {report : RunReport}

/-- A run that makes no step leaves the session where it was. -/
theorem session_of_no_results (loop : s.LoopsTo pause limits count report)
    (unmade : report.results = []) : report.session = s := by
  cases loop with
  | cancelled | enough | broken => rfl
  | last | stuck => cases unmade
  | again =>
    rw [RunReport.results_after_step] at unmade
    cases unmade

theorem timeline_of_no_results (loop : s.LoopsTo pause limits count report)
    (unmade : report.results = []) : report.timeline = [] := by
  cases loop with
  | cancelled | enough | broken => rfl
  | last | stuck => cases unmade
  | again =>
    rw [RunReport.results_after_step] at unmade
    cases unmade

theorem endsItself_last {result : StepResult} {fault : Option RunFault}
    (ends : result.ok = false ∨ s.phase = .halted) :
    (RunReport.mk [.stepped result] fault s).endsItself = true := by
  rcases ends with failed | halted
  · simp [RunReport.endsItself, RunReport.results, failed]
  · simp [RunReport.endsItself, RunReport.results, halted]

/-- After a step that did not end the run, what follows it does or does not. -/
theorem endsItself_after_step {result : StepResult}
    (loop : s.step.2.LoopsTo pause limits count report) (ok : result.ok = true)
    (goes : s.step.2.phase ≠ .halted) :
    (report.after (.stepped result :: Session.pauseEvents pause)).endsItself =
      report.endsItself := by
  have after : (report.after (.stepped result :: Session.pauseEvents pause)).session =
      report.session := rfl
  unfold RunReport.endsItself
  rw [RunReport.results_after_step, after]
  rcases made : report.results with _ | ⟨next, rest⟩
  · simp [ok, loop.session_of_no_results made, goes]
  · rw [List.getLast?_cons_cons]

/-- The steps of a run that comes back are paced, and behind the last of them there is a pause if the
run was cut short. -/
theorem timeline_eq (positive : pause.isPositive = true)
    (loop : s.LoopsTo pause limits count report) (back : report.fault = none) :
    report.timeline =
      RunEvent.paced pause report.results ++ (report.overhang pause).map .paused := by
  have paused : Session.pauseEvents pause = [.paused pause] := if_pos positive
  induction loop with
  | cancelled | enough => rfl
  | broken | stuck => cases back
  | @last count s result on more given ends =>
    rw [RunReport.overhang, RunReport.isCutShort, endsItself_last ends, Bool.not_true,
      Bool.and_false]
    rfl
  | @again count s result report on more given ok goes _ rest ih =>
    have first : (report.after (.stepped result :: Session.pauseEvents pause)).timeline =
        .stepped result :: .paused pause :: report.timeline := by
      rw [paused]
      rfl
    rw [first, RunReport.results_after_step]
    have cut := rest.endsItself_after_step ok goes
    unfold RunReport.overhang RunReport.isCutShort
    rw [cut, RunReport.results_after_step]
    by_cases unmade : report.results = []
    · rw [rest.timeline_of_no_results unmade, RunReport.endsItself, unmade]
      rfl
    · have filled : report.results.isEmpty = false := by simpa using unmade
      rw [ih back, RunEvent.paced_cons unmade, RunReport.overhang, RunReport.isCutShort, filled]
      rfl

/-- A pause of no length is not made. -/
theorem pauses_eq_nil (loop : s.LoopsTo pause limits count report)
    (instant : pause.isPositive = false) : report.pauses = [] := by
  have unpaused : Session.pauseEvents pause = [] := if_neg (by simp [instant])
  induction loop with
  | cancelled | enough | broken | last | stuck => rfl
  | again _ _ _ _ _ _ _ ih =>
    unfold RunReport.pauses RunReport.after
    rw [unpaused]
    exact ih

/-- A pause breaks a run off only if it is too long to be waited for. -/
theorem fitsClock_of_fault (loop : s.LoopsTo pause limits count report)
    (fault : report.fault = some .pauseTooLong) : pause.fitsClock = false := by
  induction loop with
  | cancelled | enough | broken | last => cases fault
  | stuck _ _ _ _ _ endless =>
    unfold Session.breaksOff at endless
    simp only [Bool.and_eq_true, Bool.not_eq_true'] at endless
    exact endless.1.2
  | again _ _ _ _ _ _ _ ih => exact ih fault

/-- A run with limits is ended by its last step just if it makes as many steps as it would without
them. -/
theorem endsItself_iff {pause' : Quantity} {count' : Nat} {whole : RunReport}
    (loop : s.LoopsTo pause limits count report) (back : report.fault = none)
    (free : s.LoopsTo pause' .unlimited count' whole) (whole_back : whole.fault = none) :
    report.endsItself = true ↔ report.results.length = whole.results.length := by
  induction loop generalizing whole count' with
  | cancelled | enough =>
    have positive := free.length_results_pos whole_back
    constructor
    · intro ended
      cases ended
    · intro unmade
      rw [← unmade] at positive
      cases positive
  | broken | stuck => cases back
  | last _ _ given ends =>
    obtain rfl := free.eq_of_ends whole_back given ends
    exact ⟨fun _ => rfl, fun _ => endsItself_last ends⟩
  | again _ _ given ok goes _ rest ih =>
    obtain ⟨_, later, comes, rfl⟩ := free.exists_rest whole_back given ok goes
    rw [rest.endsItself_after_step ok goes, RunReport.results_after_step,
      RunReport.results_after_step, List.length_cons, List.length_cons, Nat.add_right_cancel_iff]
    exact ih back later comes

end Session.LoopsTo

namespace RunReport

variable {r : RunReport} {pause : Quantity}

theorem overhang_eq_nil_iff (pause : Quantity) (r : RunReport) :
    r.overhang pause = [] ↔ r.isCutShort = false := by
  unfold overhang
  split
  · rename_i cut
    simp [cut]
  · rename_i whole
    simp [whole]

theorem isPaced_iff (told : r.timeline = RunEvent.paced pause r.results ++
    (r.overhang pause).map .paused) : r.IsPaced pause ↔ r.isCutShort = false := by
  rw [IsPaced, told, List.append_right_eq_self, List.map_eq_nil_iff, overhang_eq_nil_iff]

theorem length_pauses_iff (told : r.timeline = RunEvent.paced pause r.results ++
    (r.overhang pause).map .paused) :
    r.pauses.length = r.results.length - 1 ↔ r.isCutShort = false := by
  have behind : ((r.overhang pause).map RunEvent.paused).filterMap RunEvent.pause? =
      r.overhang pause := by
    rw [List.filterMap_map]
    exact List.filterMap_some
  rw [pauses_eq, told, List.filterMap_append, pauses_paced, behind, List.length_append,
    List.length_replicate, Nat.add_eq_left, List.length_eq_zero_iff, overhang_eq_nil_iff]

end RunReport

namespace Session

/-- For a pause that is longer than none, there is just one between each two steps of a run that comes
back. Unless the run is cut short by its limits these are all; there is one more behind the last step
if it is. For any other pause there is none at all. A run breaks off at a pause only if that is too
long to be waited for, and where the run without limits comes back, every run does: it is cut short if
the limits leave room for some but not for all of the steps that there are to make. -/
theorem runs_pause_between_steps (s : Session) (delay : Option Quantity) (limits : RunLimits) :
    let pause := delay.getD s.config.delay
    let r := s.run delay limits
    let whole := s.run delay .unlimited
    let total := whole.results.length
    (r.fault = none → pause.isPositive = true →
      r.timeline = RunEvent.paced pause r.results ++ (r.overhang pause).map .paused ∧
        (r.IsPaced pause ↔ r.isCutShort = false) ∧
        (r.pauses.length = r.results.length - 1 ↔ r.isCutShort = false)) ∧
      (pause.isPositive = false → r.pauses = []) ∧
      (r.fault = some .pauseTooLong → pause.fitsClock = false) ∧
      (whole.fault = none → r.fault = none ∧
        (r.isCutShort = true ↔ 0 < limits.room total ∧ limits.room total < total)) := by
  have loop := s.loopsTo_run delay limits
  refine ⟨fun back positive => ?paced, loop.pauses_eq_nil, loop.fitsClock_of_fault,
    fun whole_back => ?whole⟩
  case paced =>
    have told := loop.timeline_eq positive back
    exact ⟨told, RunReport.isPaced_iff told, RunReport.length_pauses_iff told⟩
  case whole =>
    have free := s.loopsTo_run delay .unlimited
    have runs := runsTo_run whole_back
    have allowed := free.allows_own whole_back
    have back := (runs.run_eq_take allowed limits).1
    have ended := loop.endsItself_iff back free whole_back
    have made := runs.length_results_run allowed limits
    have within := limits.room_le (s.run delay .unlimited).results.length
    refine ⟨back, ?_⟩
    rw [RunReport.isCutShort, Bool.and_eq_true, Bool.not_eq_true', Bool.not_eq_true',
      ← Bool.not_eq_true, ← Bool.not_eq_true, ended, List.isEmpty_iff, ← List.length_eq_zero_iff,
      made]
    omega

/-- A run that may make one step of two makes a pause behind it. -/
theorem cut_short_run_pauses_at_its_end :
    ¬ ∀ (c : Config) (ops : List Operation) (delay : Quantity) (limits : RunLimits),
      c.Accepted → delay.isPositive = true →
        let r := ((new c).performAll ops).run (some delay) limits
        r.pauses.length = r.results.length - 1 := by
  intro all
  have one := all .default [.load "NOP\nNOP" none] (.whole 1) ⟨some 1, none⟩
    Config.accepted_default rfl
  revert one
  decide +kernel

end Session

end BusCycle
