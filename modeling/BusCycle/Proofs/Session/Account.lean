-- An account of a session: the session itself, and beside it what the session does not remember. That
-- is the sessions in which its executed steps began, back to the last load or reset, and the bus width
-- that was set when its machine was last given one.
import BusCycle.Proofs.Session.LinearFlow

namespace BusCycle

namespace Session

variable {s next : Session}

/-! ## What an operation does if it succeeds -/

/-- A load that succeeds starts the lines of its text, in the width that is set or in one that was given
and checked. -/
theorem load_eq_ok {text : String} {width : Option Datum} (h : s.load text width = .ok next) :
    ∃ w, (w = s.width ∨ w.IsOffered) ∧ Program.clean text ≠ [] ∧
      next = s.start w (Program.clean text) := by
  have usable (w : BusWidth)
      (h : (if (Program.clean text).isEmpty then (.error .emptyProgram : Except LoadError Session)
        else .ok (s.start w (Program.clean text))) = .ok next) :
      Program.clean text ≠ [] ∧ next = s.start w (Program.clean text) := by
    split at h
    · cases h
    · rename_i filled
      cases h
      exact ⟨by simpa using filled, rfl⟩
  cases width with
  | none =>
    rw [load_none] at h
    exact ⟨_, Or.inl rfl, usable _ h⟩
  | some d =>
    rcases hd : BusWidth.check d with e | w
    · rw [load_of_check_error hd] at h
      cases h
    · rw [load_of_check hd] at h
      exact ⟨_, Or.inr (BusWidth.isOffered_of_check hd), usable _ h⟩

/-- Such a program has a line. -/
theorem start_of_load {text : String} {width : Option Datum} (h : s.load text width = .ok next) :
    ∃ w program, program ≠ [] ∧ (w = s.width ∨ w.IsOffered) ∧ next = s.start w program := by
  obtain ⟨w, offered, filled, rfl⟩ := load_eq_ok h
  exact ⟨w, _, filled, offered, rfl⟩

theorem width_of_setWidth {d : Datum} (h : s.setWidth d = .ok next) :
    ∃ w, w.IsOffered ∧ next = { s with width := w } := by
  rcases hd : BusWidth.check d with e | w
  · rw [setWidth_of_check_error hd] at h
    cases h
  · rw [setWidth_of_check hd] at h
    cases h
    exact ⟨w, BusWidth.isOffered_of_check hd, rfl⟩

/-! ## Operations one after another -/

/-- The session after operations, from the first one to the last one. -/
def performAll (s : Session) (ops : List Operation) : Session :=
  ops.foldl (fun s op => (s.perform op).2) s

/-- Operations on a new session lead to a session that is reachable. -/
theorem reachable_performAll (c : Config) (ops : List Operation) :
    Reachable c ((new c).performAll ops) := by
  have go (s : Session) (h : Reachable c s) : Reachable c (s.performAll ops) := by
    induction ops generalizing s with
    | nil => exact h
    | cons op rest ih => exact ih _ (h.perform op)
  exact go _ .new

end Session

/-! ## The account -/

/-- A session with the sessions in which its executed steps began, since the last load or reset, and
with the width that was set at the last of these, or when its last step was executed. -/
structure Account where
  session : Session
  begun : List Session
  inForce : BusWidth

namespace Account

/-- The account of a new session. -/
def opening (c : Config) : Account := ⟨.new c, [], c.width⟩

/-- The account after a step. A step that executes no line leaves it as it is. -/
def step (a : Account) : Account :=
  if a.session.executes then ⟨a.session.step.2, a.begun ++ [a.session], a.session.width⟩ else a

def steps (a : Account) : Nat → Account
  | 0 => a
  | count + 1 => a.step.steps count

/-- The account after an operation. A run makes as many steps as it has results. -/
def perform (a : Account) : Operation → Account
  | .load text width =>
    match a.session.load text width with
    | .ok next => ⟨next, [], next.width⟩
    | .error _ => a
  | .reset => ⟨a.session.reset, [], a.session.width⟩
  | .step => a.step
  | .run delay limits => a.steps (a.session.run delay limits).results.length
  | .setWidth width =>
    match a.session.setWidth width with
    | .ok next => { a with session := next }
    | .error _ => a

/-- The account of operations on a new session. -/
def ofOperations (c : Config) (ops : List Operation) : Account := ops.foldl perform (opening c)

/-! ## The session of an account -/

variable {a : Account}

theorem session_step (a : Account) : a.step.session = a.session.step.2 := by
  unfold step
  by_cases executes : a.session.executes = true
  · rw [if_pos executes]
  · rw [if_neg executes]
    exact (Session.step_of_not_executes (by simpa using executes)).symm

/-- The steps of a run lead to the session that the run ends with. -/
theorem session_steps {pause : Quantity} {limits : RunLimits} {count : Nat} {s : Session}
    {report : RunReport} (loop : s.LoopsTo pause limits count report) (same : a.session = s) :
    (a.steps report.results.length).session = report.session := by
  induction loop generalizing a with
  | cancelled | enough | broken => exact same
  | last | stuck =>
    rw [← same]
    exact a.session_step
  | again _ _ _ _ _ _ _ ih =>
    rw [RunReport.results_after_step]
    refine ih ?_
    rw [session_step, same]

theorem session_perform (a : Account) (op : Operation) :
    (a.perform op).session = (a.session.perform op).2 := by
  cases op with
  | load text width =>
    unfold perform Session.perform
    dsimp only
    cases a.session.load text width <;> rfl
  | reset => rfl
  | step => exact a.session_step
  | run delay limits => exact session_steps (a.session.loopsTo_run delay limits) rfl
  | setWidth width =>
    unfold perform Session.perform
    dsimp only
    cases a.session.setWidth width <;> rfl

/-- An account is of the session that the operations lead to. -/
theorem session_ofOperations (c : Config) (ops : List Operation) :
    (ofOperations c ops).session = (Session.new c).performAll ops := by
  have from_any (a : Account) :
      (ops.foldl perform a).session = a.session.performAll ops := by
    induction ops generalizing a with
    | nil => rfl
    | cons op rest ih =>
      refine (ih (a.perform op)).trans ?_
      rw [session_perform]
      rfl
  exact from_any (opening c)

/-- Every session that operations lead to has an account. -/
theorem exists_of_reachable {c : Config} {s : Session} (h : Session.Reachable c s) :
    ∃ ops, (ofOperations c ops).session = s := by
  induction h with
  | new => exact ⟨[], rfl⟩
  | perform op _ ih =>
    obtain ⟨ops, rfl⟩ := ih
    refine ⟨ops ++ [op], ?_⟩
    rw [ofOperations, List.foldl_append]
    exact session_perform _ op

/-! ## What holds of every account -/

/-- Something that the four ways keep in which an account can change: a load that succeeds, a reset,
an executed step, and a width that is set. -/
structure Kept (P : Account → Prop) : Prop where
  start : ∀ (a : Account) (w : BusWidth) (program : List String), P a → program ≠ [] →
    (w = a.session.width ∨ w.IsOffered) → P ⟨a.session.start w program, [], w⟩
  reset : ∀ a : Account, P a → P ⟨a.session.reset, [], a.session.width⟩
  advance : ∀ (a : Account) (line : String) (i : Instruction), P a →
    a.session.nextLine? = some line → Instruction.parse line (a.session.pc + 1) = .ok i →
      P ⟨a.session.advance line i, a.begun ++ [a.session], a.session.width⟩
  setWidth : ∀ (a : Account) (w : BusWidth), P a → w.IsOffered →
    P { a with session := { a.session with width := w } }

namespace Kept

variable {P : Account → Prop}

theorem step (kept : Kept P) (h : P a) : P a.step := by
  unfold Account.step
  by_cases executes : a.session.executes = true
  · obtain ⟨line, i, hl, hi⟩ := Session.line_of_executes executes
    rw [if_pos executes, Session.step_of_ok hl hi]
    exact kept.advance a line i h hl hi
  · rw [if_neg executes]
    exact h

theorem steps (kept : Kept P) (h : P a) (count : Nat) : P (a.steps count) := by
  induction count generalizing a with
  | zero => exact h
  | succ count ih => exact ih (kept.step h)

theorem perform (kept : Kept P) (h : P a) (op : Operation) : P (a.perform op) := by
  cases op with
  | load text width =>
    unfold Account.perform
    dsimp only
    rcases hl : a.session.load text width with e | next
    · exact h
    · obtain ⟨w, program, filled, offered, rfl⟩ := Session.start_of_load hl
      exact kept.start a w program h filled offered
  | reset => exact kept.reset a h
  | step => exact kept.step h
  | run delay limits => exact kept.steps h _
  | setWidth width =>
    unfold Account.perform
    dsimp only
    rcases hw : a.session.setWidth width with e | next
    · exact h
    · obtain ⟨w, offered, rfl⟩ := Session.width_of_setWidth hw
      exact kept.setWidth a w h offered

/-- What holds of a new session and is kept holds of every account. -/
theorem ofOperations (kept : Kept P) {c : Config} (opening : P (opening c)) (ops : List Operation) :
    P (ofOperations c ops) := by
  unfold Account.ofOperations
  generalize Account.opening c = a at opening ⊢
  induction ops generalizing a with
  | nil => exact opening
  | cons op rest ih => exact ih (a.perform op) (kept.perform opening op)

end Kept

end Account

end BusCycle
