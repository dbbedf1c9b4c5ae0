-- Runs: steps one after another, until the program ends or a line is rejected, or until a limit or
-- a stop request ends the run early. A run breaks off in a step that does, and at a pause that is too
-- long for any clock.
import BusCycle.Session.Basic

namespace BusCycle

/-! ## What a run is asked for -/

/-- Limits of a run. A stop request takes effect once `stopAfter` steps have been made; without a
number there is nothing that could request a stop. -/
structure RunLimits where
  maxSteps : Option Int
  stopAfter : Option Int

namespace RunLimits

def unlimited : RunLimits := ⟨none, none⟩

/-- Whether a stop was requested by the time so many steps have been made. -/
def stopped (l : RunLimits) (count : Nat) : Bool := l.stopAfter.any (· ≤ (count : Int))

def reached (l : RunLimits) (count : Nat) : Bool := l.maxSteps.any (· ≤ (count : Int))

end RunLimits

/-! ## What a run does -/

/-- Something that happens in a run. -/
inductive RunEvent
  | stepped (result : StepResult)
  | paused (delay : Quantity)
  | cancelled (count : Nat)

/-- Why a run breaks off. -/
inductive RunFault
  | conversion (fault : ConversionFault)
  | pauseTooLong
  deriving DecidableEq

/-- The events of a run, why it broke off if it did, and the session after it. -/
structure RunReport where
  events : List RunEvent
  fault : Option RunFault
  session : Session

namespace RunReport

/-- The report with events before its own. -/
def after (r : RunReport) (events : List RunEvent) : RunReport :=
  { r with events := events ++ r.events }

/-- The results of the steps, as they are told one after another. -/
def results (r : RunReport) : List StepResult :=
  r.events.filterMap fun
    | .stepped result => some result
    | _ => none

/-- The pauses, in order. -/
def pauses (r : RunReport) : List Quantity :=
  r.events.filterMap fun
    | .paused delay => some delay
    | _ => none

/-- What the run gives back: its results, unless it broke off. -/
def answer (r : RunReport) : Except RunFault (List StepResult) :=
  match r.fault with
  | none => .ok r.results
  | some fault => .error fault

end RunReport

namespace Session

/-- The number of lines that are left. -/
def remaining (s : Session) : Nat := s.program.length - s.pc

/-- The events between a step that executed a line and the next one. -/
def pauseEvents (delay : Quantity) : List RunEvent := if delay.isPositive then [.paused delay] else []

/-- Whether a run breaks off at the pause behind so many steps. A stop that was requested by then wakes
it from any pause, so that it does not matter how long that is. -/
def breaksOff (delay : Quantity) (limits : RunLimits) (count : Nat) : Bool :=
  delay.isPositive && !delay.fitsClock && !limits.stopped count

/-- Steps until the run ends. Each executed line brings the end nearer, so the lines that are left
bound the steps; `fuel` is one more than they are. -/
def runFrom (delay : Quantity) (limits : RunLimits) : Nat → Nat → Session → RunReport
  | 0, _, s => ⟨[], none, s⟩
  | fuel + 1, count, s =>
    if limits.stopped count then ⟨[.cancelled count], none, s⟩
    else if limits.reached count then ⟨[], none, s⟩
    else
      match s.step with
      | (.error fault, next) => ⟨[], some (.conversion fault), next⟩
      | (.ok result, next) =>
        if !result.ok || next.phase = .halted then ⟨[.stepped result], none, next⟩
        else if breaksOff delay limits (count + 1) then
          ⟨[.stepped result], some .pauseTooLong, next⟩
        else
          (runFrom delay limits fuel (count + 1) next).after (.stepped result :: pauseEvents delay)

/-- A run. Without a pause of its own it uses that of the settings. -/
def run (s : Session) (delay : Option Quantity) (limits : RunLimits) : RunReport :=
  runFrom (delay.getD s.config.delay) limits (s.remaining + 1) 0 s

end Session

end BusCycle
