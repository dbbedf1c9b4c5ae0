-- Operations that fail change nothing, neither now nor for anything that is asked later. The ways to
-- fail are listed by what is wrong with the operation, and there are no others.
import BusCycle.Proofs.Session.Consistency
import BusCycle.Proofs.Session.InPlace
import BusCycle.Proofs.Text.Cleaning

namespace BusCycle

/-! ## Bus widths that are refused -/

/-- A number that is equal to one of the two bus widths, however it is written. -/
def Datum.IsBusWidth : Datum → Prop
  | .number q => q.isNat 8 = true ∨ q.isNat 16 = true
  | _ => False

/-- A bus width passes its check exactly if it is one, and the fault names what was given. -/
theorem BusWidth.check_cases (d : Datum) :
    (d.IsBusWidth ∧ ∃ w, BusWidth.check d = .ok w) ∨
      (¬d.IsBusWidth ∧ BusWidth.check d = .error (.busWidth d)) := by
  unfold BusWidth.check BusWidth.ofDatum Datum.IsBusWidth
  cases d with
  | number q =>
    by_cases eight : q.isNat 8 = true
    · exact Or.inl ⟨Or.inl eight, by simp [eight, Except.map]⟩
    · by_cases sixteen : q.isNat 16 = true
      · exact Or.inl ⟨Or.inr sixteen, by simp [eight, sixteen, Except.map]⟩
      · exact Or.inr ⟨by simp [eight, sixteen], by simp [eight, sixteen, Except.map]⟩
  | _ => exact Or.inr ⟨id, rfl⟩

theorem BusWidth.check_of_isBusWidth {d : Datum} (h : d.IsBusWidth) :
    ∃ w, BusWidth.check d = .ok w := by
  rcases BusWidth.check_cases d with ⟨-, checked⟩ | ⟨other, -⟩
  · exact checked
  · exact absurd h other

theorem BusWidth.check_of_not_isBusWidth {d : Datum} (h : ¬d.IsBusWidth) :
    BusWidth.check d = .error (.busWidth d) := by
  rcases BusWidth.check_cases d with ⟨good, -⟩ | ⟨-, refused⟩
  · exact absurd good h
  · exact refused

/-! ## Failures -/

/-- Whether an answer reports a failure: a fault, or a step that executed nothing. A run that breaks off
is none, for the steps in front of that were made. -/
def Answer.isFailure : Answer → Bool
  | loaded fault => fault.isSome
  | widthSet fault => fault.isSome
  | stepped result => !result.toOption.any StepResult.ok
  | reset | ran _ => false

namespace Session

/-- The ways in which an operation fails, each with its answer. A text is told to be of no use by its
own lines, and a width by being neither 8 nor 16. -/
inductive Fails (s : Session) : Operation → Answer → Prop
  | emptyProgram {text : String} {width : Option Datum}
      (unused : ∀ line ∈ Text.lines text.toList, Program.IsUnused line)
      (offered : ∀ d ∈ width, d.IsBusWidth) :
      Fails s (.load text width) (.loaded (some .emptyProgram))
  | loadWidth {text : String} {d : Datum} (refused : ¬d.IsBusWidth) :
      Fails s (.load text (some d)) (.loaded (some (.config (.busWidth d))))
  | setWidth {d : Datum} (refused : ¬d.IsBusWidth) :
      Fails s (.setWidth d) (.widthSet (some (.busWidth d)))
  | noProgram (idle : s.phase = .idle) : Fails s .step (.stepped (.ok .noProgram))
  | halted (ended : s.phase = .halted) : Fails s .step (.stepped (.ok .halted))
  | rejected {line : String} {e : LineError} (going : s.phase = .loaded ∨ s.phase = .running)
      (next : s.program[s.pc]? = some line)
      (fault : Instruction.parse line (s.pc + 1) = .error (.fault e)) :
      Fails s .step (.stepped (.ok (.rejected s.pc line e)))
  | broken {line : String} {c : ConversionFault} (going : s.phase = .loaded ∨ s.phase = .running)
      (next : s.program[s.pc]? = some line)
      (failure : Instruction.parse line (s.pc + 1) = .error (.conversion c)) :
      Fails s .step (.stepped (.error c))

variable {s : Session} {op : Operation} {answer : Answer}

/-- An operation that fails gives its answer and leaves the session as it was. -/
theorem Fails.perform (h : s.Fails op answer) : s.perform op = (answer, s) := by
  cases h with
  | @emptyProgram text width unused offered =>
    have empty : (Program.clean text).isEmpty = true :=
      List.isEmpty_iff.mpr ((Program.clean_eq_nil_iff text).mpr unused)
    cases width with
    | none => simp only [Session.perform, load_none, if_pos empty]
    | some d =>
      obtain ⟨w, checked⟩ := BusWidth.check_of_isBusWidth (offered d rfl)
      simp only [Session.perform, load_of_check checked, if_pos empty]
  | loadWidth refused =>
    simp only [Session.perform, load_of_check_error (BusWidth.check_of_not_isBusWidth refused)]
  | setWidth refused =>
    simp only [Session.perform, setWidth_of_check_error (BusWidth.check_of_not_isBusWidth refused)]
  | noProgram idle =>
    have ended : s.nextLine? = none := by rw [nextLine?, idle]
    simp only [Session.perform, step_of_none ended, if_pos idle]
  | halted ended =>
    have behind : s.nextLine? = none := by rw [nextLine?, ended]
    have started : s.phase ≠ .idle := by rw [ended]; decide
    simp only [Session.perform, step_of_none behind, if_neg started]
  | rejected going next fault =>
    simp only [Session.perform, step_of_error ((Session.nextLine?_of_going going).trans next) fault]
    rfl
  | broken going next failure =>
    simp only [Session.perform,
      step_of_error ((Session.nextLine?_of_going going).trans next) failure]
    rfl

theorem Fails.step_fst {result : Except ConversionFault StepResult}
    (h : s.Fails .step (.stepped result)) :
    s.step.1 = result :=
  Answer.stepped.inj (congrArg Prod.fst h.perform)

theorem Fails.isFailure (h : s.Fails op answer) : answer.isFailure = true := by
  cases h <;> rfl

/-! ## There are no other failures -/

/-- A session that operations lead to has a next line unless it is idle or halted. -/
theorem Reachable.nextLine?_of_going {c : Config} (reachable : Reachable c s)
    (going : s.phase = .loaded ∨ s.phase = .running) : ∃ line, s.program[s.pc]? = some line := by
  obtain ⟨ops, rfl⟩ := Account.exists_of_reachable reachable
  have sound := Account.sound_ofOperations c ops
  obtain ⟨-, loaded, running, -⟩ := Phase.iff_of_after sound.inside sound.phase
  refine ⟨_, List.getElem?_eq_getElem ?_⟩
  rcases going with phase | phase
  · obtain ⟨filled, first⟩ := loaded.mp phase
    rw [first]
    exact List.length_pos_iff.mpr filled
  · exact (running.mp phase).2

theorem Reachable.fails_step {c : Config} (reachable : Reachable c s)
    (failed : s.executes = false) : s.Fails .step (.stepped s.step.1) := by
  by_cases going : s.phase = .loaded ∨ s.phase = .running
  · obtain ⟨line, next⟩ := reachable.nextLine?_of_going going
    have hl : s.nextLine? = some line := (Session.nextLine?_of_going going).trans next
    rcases hp : Instruction.parse line (s.pc + 1) with failure | i
    · rw [step_of_error hl hp]
      cases failure with
      | fault e => exact .rejected going next hp
      | conversion c => exact .broken going next hp
    · rw [executes, step_of_ok hl hp] at failed
      cases failed
  · rcases phase : s.phase with _ | _ | _ | _
    · have noProgram := Fails.noProgram phase
      rw [noProgram.step_fst]
      exact noProgram
    · exact absurd (Or.inl phase) going
    · exact absurd (Or.inr phase) going
    · have halted := Fails.halted phase
      rw [halted.step_fst]
      exact halted

theorem fails_load {text : String} {width : Option Datum} {e : LoadError}
    (failed : s.load text width = .error e) :
    s.Fails (.load text width) (.loaded (some e)) := by
  have unused (empty : (Program.clean text).isEmpty = true) :
      ∀ line ∈ Text.lines text.toList, Program.IsUnused line :=
    (Program.clean_eq_nil_iff text).mp (List.isEmpty_iff.mp empty)
  cases width with
  | none =>
    rw [load_none] at failed
    split at failed
    · rename_i empty
      cases failed
      exact .emptyProgram (unused empty) (by simp)
    · cases failed
  | some d =>
    rcases BusWidth.check_cases d with ⟨good, w, checked⟩ | ⟨refused, checked⟩
    · rw [load_of_check checked] at failed
      split at failed
      · rename_i empty
        cases failed
        exact .emptyProgram (unused empty) (by simpa using good)
      · cases failed
    · rw [load_of_check_error checked] at failed
      cases failed
      exact .loadWidth refused

theorem fails_setWidth {d : Datum} {e : ConfigError} (failed : s.setWidth d = .error e) :
    s.Fails (.setWidth d) (.widthSet (some e)) := by
  rcases BusWidth.check_cases d with ⟨-, w, checked⟩ | ⟨refused, checked⟩
  · rw [setWidth_of_check checked] at failed
    cases failed
  · rw [setWidth_of_check_error checked] at failed
    cases failed
    exact .setWidth refused

/-- A session that operations lead to answers with a failure in the listed ways only. -/
theorem Reachable.fails_of_isFailure {c : Config} (reachable : Reachable c s)
    (failed : (s.perform op).1.isFailure = true) : s.Fails op (s.perform op).1 := by
  cases op with
  | load text width =>
    rcases loaded : s.load text width with e | next
    · simp only [Session.perform, loaded]
      exact fails_load loaded
    · simp only [Session.perform, loaded] at failed
      cases failed
  | reset => cases failed
  | step =>
    exact reachable.fails_step (by simpa [Session.perform, Answer.isFailure, executes] using failed)
  | run delay limits => cases failed
  | setWidth d =>
    rcases set : s.setWidth d with e | next
    · simp only [Session.perform, set]
      exact fails_setWidth set
    · simp only [Session.perform, set] at failed
      cases failed

/-! ## What comes after a failure -/

/-- The answers to operations in their order, each with the session after it. -/
def answersTo (s : Session) : List Operation → List (Answer × Session)
  | [] => []
  | op :: rest => s.perform op :: (s.perform op).2.answersTo rest

/-- Those of the operations that do not fail when it is their turn. -/
def succeeding (s : Session) : List Operation → List Operation
  | [] => []
  | op :: rest =>
    if (s.perform op).1.isFailure then s.succeeding rest
    else op :: (s.perform op).2.succeeding rest

theorem Fails.answersTo_cons (h : s.Fails op answer) (later : List Operation) :
    s.answersTo (op :: later) = (answer, s) :: s.answersTo later := by
  rw [answersTo, h.perform]

/-- An operation that fails does so again, as often as it is asked for. -/
theorem Fails.answersTo_replicate (h : s.Fails op answer) (count : Nat) :
    s.answersTo (List.replicate count op) = List.replicate count (answer, s) := by
  induction count with
  | zero => rfl
  | succ count ih => rw [List.replicate_succ, h.answersTo_cons, ih, List.replicate_succ]

/-- Without the operations that fail, all others are answered as with them, and lead to the same
sessions. -/
theorem Reachable.answersTo_succeeding {c : Config} (reachable : Reachable c s)
    (ops : List Operation) :
    s.answersTo (s.succeeding ops) = (s.answersTo ops).filter fun a => !a.1.isFailure := by
  induction ops generalizing s with
  | nil => rfl
  | cons op rest ih =>
    rw [succeeding, answersTo, List.filter_cons]
    by_cases failed : (s.perform op).1.isFailure = true
    · have same : (s.perform op).2 = s :=
        congrArg Prod.snd (reachable.fails_of_isFailure failed).perform
      rw [if_pos failed, same, ih reachable]
      simp [failed]
    · rw [if_neg failed, answersTo, ih (reachable.perform op)]
      simp [failed]

/-- In any session that operations lead to, an operation fails exactly if it is one of those listed:
a text without a line of use, a width that is neither 8 nor 16, a step with no program or after its
end, a step on a line that is no instruction, or one on a line with a literal that breaks it off. Then the whole session is as before, also if it is
changed in place, the answer stays the same however often it is tried, and whatever is asked for
later is answered as if it had not been tried. -/
theorem failed_operations_change_nothing {c : Config} {s : Session} (reachable : Reachable c s)
    (op : Operation) :
    ((s.perform op).1.isFailure = true ↔ ∃ answer, s.Fails op answer) ∧
      ∀ answer, s.Fails op answer →
        s.perform op = (answer, s) ∧ (InPlace.perform op).run s = (answer, s) ∧
        (∀ later, s.answersTo (op :: later) = (answer, s) :: s.answersTo later) ∧
        ∀ count, s.answersTo (List.replicate count op) = List.replicate count (answer, s) := by
  refine ⟨⟨fun failed => ⟨_, reachable.fails_of_isFailure failed⟩, ?_⟩, ?_⟩
  · rintro ⟨answer, h⟩
    rw [h.perform]
    exact h.isFailure
  · intro answer h
    refine ⟨h.perform, ?_, h.answersTo_cons, h.answersTo_replicate⟩
    rw [InPlace.run_perform, h.perform]

/-- A session that executed one line and stands at one that is no instruction. -/
def atBadLine : Session := (new .default).performAll [.load "NOP\n?" none, .step]

/-- The line is rejected again and again, and the session stays as it is. -/
theorem atBadLine_step :
    let rejection := Answer.stepped (.ok (.rejected 1 "?" ⟨.unreadable "?", 2, "?"⟩))
    atBadLine.perform .step = (rejection, atBadLine) ∧
      ∀ count, atBadLine.answersTo (List.replicate count .step) =
        List.replicate count (rejection, atBadLine) := by
  have reachable : Reachable .default atBadLine := reachable_performAll .default _
  have pc : atBadLine.pc = 1 := by decide +kernel
  have fault : Instruction.parse "?" (atBadLine.pc + 1) =
      .error (.fault ⟨.unreadable "?", 2, "?"⟩) := by rfl
  have fails := Fails.rejected (s := atBadLine) (Or.inr (by decide +kernel)) (by decide +kernel) fault
  rw [pc] at fails
  obtain ⟨same, -, -, again⟩ := (failed_operations_change_nothing reachable .step).2 _ fails
  exact ⟨same, again⟩

end Session

end BusCycle
