-- A run takes the lines of a program one after another, whatever the instructions on them do to the
-- instruction pointer. It ends at the first line that is no instruction or behind the last line, and
-- the machine is then the one that the lines in front of that place make of a fresh machine. Two things
-- break a run off: a pause that is too long for any clock, and a literal of too many digits.
import BusCycle.Proofs.Instruction.Overlong
import BusCycle.Proofs.Instruction.Reading
import BusCycle.Proofs.Machine.Effect
import BusCycle.Proofs.Session.Operations

namespace BusCycle

/-! ## The loop without a bound -/

/-- The loop of a run as a relation. Nothing bounds its turns, so a report stands in it only if the
loop comes to an end by itself. -/
inductive Session.LoopsTo (pause : Quantity) (limits : RunLimits) :
    Nat → Session → RunReport → Prop
  | cancelled {count : Nat} {s : Session} (stop : limits.stopped count = true) :
      LoopsTo pause limits count s ⟨[.cancelled count], none, s⟩
  | enough {count : Nat} {s : Session} (on : limits.stopped count = false)
      (reached : limits.reached count = true) : LoopsTo pause limits count s ⟨[], none, s⟩
  | broken {count : Nat} {s : Session} {fault : ConversionFault} (on : limits.stopped count = false)
      (more : limits.reached count = false) (breaks : s.step.1 = .error fault) :
      LoopsTo pause limits count s ⟨[], some (.conversion fault), s⟩
  | last {count : Nat} {s : Session} {result : StepResult} (on : limits.stopped count = false)
      (more : limits.reached count = false) (given : s.step.1 = .ok result)
      (ends : result.ok = false ∨ s.step.2.phase = .halted) :
      LoopsTo pause limits count s ⟨[.stepped result], none, s.step.2⟩
  | stuck {count : Nat} {s : Session} {result : StepResult} (on : limits.stopped count = false)
      (more : limits.reached count = false) (given : s.step.1 = .ok result)
      (ok : result.ok = true) (goes : s.step.2.phase ≠ .halted)
      (endless : Session.breaksOff pause limits (count + 1) = true) :
      LoopsTo pause limits count s ⟨[.stepped result], some .pauseTooLong, s.step.2⟩
  | again {count : Nat} {s : Session} {result : StepResult} {report : RunReport}
      (on : limits.stopped count = false) (more : limits.reached count = false)
      (given : s.step.1 = .ok result) (ok : result.ok = true) (goes : s.step.2.phase ≠ .halted)
      (waits : Session.breaksOff pause limits (count + 1) = false)
      (rest : LoopsTo pause limits (count + 1) s.step.2 report) :
      LoopsTo pause limits count s (report.after (.stepped result :: Session.pauseEvents pause))

namespace Session

/-- A step that executed a line leaves one line less. -/
theorem remaining_step {s : Session} (h : s.executes = true) :
    s.step.2.remaining + 1 = s.remaining := by
  obtain ⟨line, i, hl, hi⟩ := line_of_executes h
  have inside : s.pc < s.program.length := by
    unfold nextLine? at hl
    split at hl
    · exact (List.getElem?_eq_some_iff.mp hl).1
    · exact (List.getElem?_eq_some_iff.mp hl).1
    · cases hl
    · cases hl
  rw [step_of_ok hl hi]
  unfold remaining
  dsimp only [advance]
  omega

theorem loopsTo_runFrom {pause : Quantity} {limits : RunLimits} {fuel : Nat} {s : Session}
    (enough : s.remaining < fuel) (count : Nat) :
    LoopsTo pause limits count s (runFrom pause limits fuel count s) := by
  induction fuel generalizing s count with
  | zero => omega
  | succ fuel ih =>
    unfold runFrom
    by_cases stop : limits.stopped count = true
    · rw [if_pos stop]
      exact .cancelled stop
    have on : limits.stopped count = false := by simpa using stop
    rw [if_neg stop]
    by_cases reached : limits.reached count = true
    · rw [if_pos reached]
      exact .enough on reached
    have more : limits.reached count = false := by simpa using reached
    rw [if_neg reached]
    rcases step : s.step with ⟨fault | result, next⟩
    · have breaks : s.step.1 = .error fault := congrArg Prod.fst step
      have same : next = s := by
        rw [← step_of_not_executes (not_executes_of_error breaks), step]
      dsimp only
      rw [same]
      exact .broken on more breaks
    · have given : s.step.1 = .ok result := congrArg Prod.fst step
      obtain rfl : s.step.2 = next := congrArg Prod.snd step
      dsimp only
      by_cases ends : (!result.ok || decide (s.step.2.phase = .halted)) = true
      · rw [if_pos ends]
        exact .last on more given (by simpa using ends)
      rw [if_neg ends]
      simp only [Bool.or_eq_true, Bool.not_eq_true', decide_eq_true_eq, not_or,
        Bool.not_eq_false] at ends
      obtain ⟨ok, goes⟩ := ends
      by_cases endless : breaksOff pause limits (count + 1) = true
      · rw [if_pos endless]
        exact .stuck on more given ok goes endless
      · rw [if_neg endless]
        have fewer := remaining_step ((executes_of_ok given).trans ok)
        exact .again on more given ok goes (Bool.eq_false_iff.mpr endless)
          (ih (by omega) (count + 1))

/-- Every run comes to an end by itself, whatever limits it has: the bound that its definition puts
on the turns of the loop is never what ends it. -/
theorem loopsTo_run (s : Session) (delay : Option Quantity) (limits : RunLimits) :
    LoopsTo (delay.getD s.config.delay) limits 0 s (s.run delay limits) :=
  loopsTo_runFrom (Nat.lt_succ_self _) 0

end Session

theorem RunReport.results_after_step (r : RunReport) (result : StepResult) (pause : Quantity) :
    (r.after (.stepped result :: Session.pauseEvents pause)).results = result :: r.results := by
  unfold RunReport.after RunReport.results Session.pauseEvents
  split
  · rfl
  · rfl

/-! ## Lines without a session -/

namespace Machine

/-- The machine after a line was read, assembled where the instruction pointer stands, fetched and
executed. A line that is no instruction changes nothing. -/
def runLine (m : Machine) (line : String) : Machine :=
  match Assembled.ofLine line m.registers.ip 0 with
  | .ok a => { m with bus := m.bus.beginStep }.cycle a
  | .error _ => m

/-- The machine after lines were run, from the first one to the last one. -/
def runLines (m : Machine) (lines : List String) : Machine := lines.foldl runLine m

theorem runLines_take_succ (m : Machine) {lines : List String} {k : Nat} (h : k < lines.length) :
    m.runLines (lines.take (k + 1)) = (m.runLines (lines.take k)).runLine lines[k] := by
  unfold runLines
  rw [List.take_succ_eq_append_getElem h, List.foldl_append]
  rfl

/-- A cycle does not depend on the number of the line. -/
theorem cycle_renumber (m : Machine) (i : Instruction) (ip : Word) (k : Int) :
    m.cycle (.ofInstruction { i with lineNumber := k } ip) = m.cycle (.ofInstruction i ip) := by
  rw [Assembled.ofInstruction_renumber]
  unfold cycle execute Assembled.ofInstruction
  cases Form.ofInstruction? i with
  | none => rfl
  | some f => rfl

theorem runLine_of_parse {line : String} {n : Int} {i : Instruction}
    (h : Instruction.parse line n = .ok i) (m : Machine) :
    m.runLine line =
      { m with bus := m.bus.beginStep }.cycle (.ofInstruction i m.registers.ip) := by
  unfold runLine Assembled.ofLine
  rw [Instruction.parse_renumber h 0]
  exact cycle_renumber _ i _ 0

end Machine

namespace Program

/-- The index of the first line that is no instruction; the number of lines if there is none. -/
def firstFault (program : List String) : Nat :=
  program.findIdx fun line => !Instruction.isLine line

theorem isLine_of_lt_firstFault {program : List String} {k : Nat} (h : k < firstFault program)
    (hk : k < program.length) : Instruction.isLine program[k] = true := by
  have := List.not_of_lt_findIdx h
  simpa using this

theorem not_isLine_firstFault {program : List String}
    (h : firstFault program < program.length) :
    Instruction.isLine program[firstFault program] = false := by
  have found := List.findIdx_getElem (w := h)
  rw [Bool.not_eq_true'] at found
  exact found

theorem firstFault_le_length (program : List String) : firstFault program ≤ program.length :=
  List.findIdx_le_length

/-- The result of a line that is executed after all lines in front of it were. -/
def lineResult (program : List String) (m : Machine) (i : Nat) (line : String) : StepResult :=
  .executed i line (m.runLines (program.take (i + 1))).bus.text

/-- The results of the first `k` lines of a program. -/
def results (program : List String) (m : Machine) (k : Nat) : List StepResult :=
  (program.take k).mapIdx (lineResult program m)

theorem results_succ {program : List String} {k : Nat} (h : k < program.length) (m : Machine) :
    results program m (k + 1) = results program m k ++ [lineResult program m k program[k]] := by
  unfold results
  rw [List.take_succ_eq_append_getElem h, List.mapIdx_concat, List.length_take,
    Nat.min_eq_left (Nat.le_of_lt h)]

/-- How a run ends that comes to the first line that is no instruction. There is nothing to tell if all
lines are instructions. A fault of the line is told with its place, and a literal of too many digits
breaks the run off. -/
inductive EndsWith (program : List String) : List StepResult → Option ConversionFault → Prop
  | all (whole : firstFault program = program.length) : EndsWith program [] none
  | rejected {e : LineError} (inside : firstFault program < program.length)
      (fault : Instruction.parse program[firstFault program] (firstFault program + 1) =
        .error (.fault e))
      (place : e.lineNumber = firstFault program + 1) :
      EndsWith program [.rejected (firstFault program) program[firstFault program] e] none
  | broken {count : Nat} (inside : firstFault program < program.length)
      (failure : Instruction.parse program[firstFault program] (firstFault program + 1) =
        .error (.conversion (.tooManyDigits count)))
      (beyond : Text.digitLimit < count) : EndsWith program [] (some (.tooManyDigits count))

theorem exists_endsWith (program : List String) : ∃ last fault, EndsWith program last fault := by
  rcases Nat.lt_or_eq_of_le (firstFault_le_length program) with inside | whole
  · obtain ⟨failure, failed⟩ :=
      Instruction.parse_of_not_isLine (not_isLine_firstFault inside) (firstFault program + 1)
    cases failure with
    | fault e =>
      have place := congrArg LineError.lineNumber (Instruction.eq_of_parse_fault failed)
      exact ⟨_, _, .rejected inside failed place⟩
    | conversion c =>
      obtain ⟨count, rfl, beyond⟩ := Instruction.tooManyDigits_of_parse failed
      exact ⟨_, _, .broken inside failed beyond⟩
  · exact ⟨_, _, .all whole⟩

end Program

/-! ## The invariant of a run -/

/-- The phase after the first `k` of `total` lines. -/
def Phase.after (k total : Nat) : Phase :=
  if k = total then .halted else if k = 0 then .loaded else .running

theorem Phase.after_of_lt {k total : Nat} (h : k < total) :
    after k total = if k = 0 then .loaded else .running :=
  if_neg (Nat.ne_of_lt h)

theorem Phase.after_succ {k total : Nat} (h : k < total) :
    after (k + 1) total = if k + 1 < total then .running else .halted := by
  unfold after
  by_cases more : k + 1 < total
  · rw [if_pos more, if_neg (Nat.ne_of_lt more), if_neg (Nat.succ_ne_zero k)]
  · rw [if_neg more, if_pos (by omega)]

theorem Phase.after_eq_halted {k total : Nat} : after k total = .halted ↔ k = total := by
  unfold after
  by_cases all : k = total
  · simp [all]
  · rw [if_neg all]
    by_cases first : k = 0
    · simp [all, if_pos first]
    · simp [all, if_neg first]

namespace Session

/-- A session that has executed the first `k` lines of its program, from a machine. -/
structure AtLine (m : Machine) (k : Nat) (s : Session) : Prop where
  pc : s.pc = k
  machine : s.machine = m.runLines (s.program.take k)
  width : s.machine.width = s.width
  phase : s.phase = .after k s.program.length

theorem atLine_start (s : Session) (width : BusWidth) {program : List String}
    (usable : program ≠ []) :
    (s.start width program).AtLine (.fresh s.config.preset.registers width) 0 := by
  have filled : 0 < program.length := List.length_pos_iff.mpr usable
  exact ⟨rfl, rfl, rfl, (Phase.after_of_lt filled).symm⟩

namespace AtLine

variable {m : Machine} {k : Nat} {s : Session}

theorem nextLine?_eq (h : s.AtLine m k) (inside : k < s.program.length) :
    s.nextLine? = some s.program[k] := by
  have line : s.program[s.pc]? = some s.program[k] := by
    rw [h.pc]
    exact List.getElem?_eq_getElem inside
  have phase := h.phase
  rw [Phase.after_of_lt inside] at phase
  unfold nextLine?
  by_cases first : k = 0
  · rw [if_pos first] at phase
    rw [phase]
    exact line
  · rw [if_neg first] at phase
    rw [phase]
    exact line

theorem machine_advance (h : s.AtLine m k) (inside : k < s.program.length) {i : Instruction}
    (hi : Instruction.parse s.program[k] (s.pc + 1) = .ok i) :
    (s.advance s.program[k] i).machine = m.runLines (s.program.take (k + 1)) := by
  rw [Machine.runLines_take_succ m inside, ← h.machine, Machine.runLine_of_parse hi]
  unfold advance ready
  rw [← h.width]
  rfl

theorem advance (h : s.AtLine m k) (inside : k < s.program.length) {i : Instruction}
    (hi : Instruction.parse s.program[k] (s.pc + 1) = .ok i) :
    (s.advance s.program[k] i).AtLine m (k + 1) := by
  have phase : (if s.pc + 1 < s.program.length then Phase.running else .halted) =
      .after (k + 1) s.program.length := by
    rw [h.pc]
    exact (Phase.after_succ inside).symm
  exact ⟨congrArg (· + 1) h.pc, h.machine_advance inside hi, Machine.width_cycle _ _, phase⟩

/-- In front of the first fault a step executes the line it stands at. -/
theorem step_executes (h : s.AtLine m k) (before : k < Program.firstFault s.program)
    (inside : k < s.program.length) :
    s.step.1 = .ok (Program.lineResult s.program m k s.program[k]) ∧ s.step.2.AtLine m (k + 1) ∧
      s.step.2.program = s.program := by
  obtain ⟨i, hi⟩ :=
    Instruction.parse_of_isLine (Program.isLine_of_lt_firstFault before inside) (s.pc + 1)
  rw [step_of_ok (h.nextLine?_eq inside) hi]
  refine ⟨?_, h.advance inside hi, rfl⟩
  dsimp only
  rw [h.machine_advance inside hi, h.pc]
  rfl

/-- At the first fault a step changes nothing. It tells what is wrong, or it breaks off. -/
theorem step_fails (h : s.AtLine m (Program.firstFault s.program))
    (inside : Program.firstFault s.program < s.program.length) {last : List StepResult}
    {fault : Option ConversionFault} (ends : Program.EndsWith s.program last fault) :
    (∃ result, s.step = (.ok result, s) ∧ result.ok = false ∧ last = [result] ∧ fault = none) ∨
      ∃ c, s.step = (.error c, s) ∧ last = [] ∧ fault = some c := by
  have line := h.nextLine?_eq inside
  cases ends with
  | all whole => omega
  | rejected _ failed =>
    rw [step_of_error line (by rw [h.pc]; exact failed), h.pc]
    exact Or.inl ⟨_, rfl, rfl, rfl, rfl⟩
  | broken _ failed =>
    rw [step_of_error line (by rw [h.pc]; exact failed)]
    exact Or.inr ⟨_, rfl, rfl, rfl⟩

/-- A step that comes back executes the line it stands at, or it stands at the first fault, changes
nothing and gives the result that tells it. -/
theorem step_cases (h : s.AtLine m k) (before : k ≤ Program.firstFault s.program)
    (inside : k < s.program.length) {last : List StepResult} {fault : Option ConversionFault}
    (ends : Program.EndsWith s.program last fault) {result : StepResult}
    (given : s.step.1 = .ok result) :
    (k < Program.firstFault s.program ∧ result = Program.lineResult s.program m k s.program[k] ∧
        s.step.2.AtLine m (k + 1) ∧ s.step.2.program = s.program) ∨
      (k = Program.firstFault s.program ∧ result.ok = false ∧ s.step.2 = s ∧ last = [result] ∧
        fault = none) := by
  rcases Nat.lt_or_eq_of_le before with earlier | rfl
  · obtain ⟨executed, next, program⟩ := h.step_executes earlier inside
    exact Or.inl ⟨earlier, Except.ok.inj (given.symm.trans executed), next, program⟩
  · obtain ⟨_, step, failed, told, free⟩ | ⟨_, step, -⟩ := h.step_fails inside ends
    · rw [step] at given ⊢
      obtain rfl := Except.ok.inj given
      exact Or.inr ⟨rfl, failed, rfl, told, free⟩
    · rw [step] at given
      cases given

/-- A step that breaks off stands at the first fault. -/
theorem step_breaks (h : s.AtLine m k) (before : k ≤ Program.firstFault s.program)
    (inside : k < s.program.length) {last : List StepResult} {fault : Option ConversionFault}
    (ends : Program.EndsWith s.program last fault) {c : ConversionFault}
    (breaks : s.step.1 = .error c) :
    k = Program.firstFault s.program ∧ last = [] ∧ fault = some c := by
  rcases Nat.lt_or_eq_of_le before with earlier | rfl
  · rw [(h.step_executes earlier inside).1] at breaks
    cases breaks
  · obtain ⟨_, step, -⟩ | ⟨_, step, told, failed⟩ := h.step_fails inside ends
    · rw [step] at breaks
      cases breaks
    · rw [step] at breaks
      obtain rfl := Except.error.inj breaks
      exact ⟨rfl, told, failed⟩

end AtLine

end Session

/-- A run that starts at line `start` of a program and executes the lines from there up to line `stop`, and
that tells `last` after them. -/
structure RunReport.Covers (m : Machine) (program : List String) (start stop : Nat)
    (last : List StepResult) (r : RunReport) : Prop where
  kept : r.session.program = program
  place : r.session.AtLine m stop
  results : Program.results program m start ++ r.results = Program.results program m stop ++ last

/-- The first step of a run, in front of what comes after it. -/
theorem RunReport.Covers.after_step {m : Machine} {program : List String} {start stop : Nat}
    {last : List StepResult} {r : RunReport} (inside : start < program.length)
    (h : r.Covers m program (start + 1) stop last) (pause : Quantity) :
    (r.after (.stepped (Program.lineResult program m start program[start]) ::
      Session.pauseEvents pause)).Covers m program start stop last := by
  refine ⟨h.kept, h.place, ?_⟩
  rw [results_after_step, ← h.results, Program.results_succ inside, List.append_assoc]
  rfl

theorem RunReport.answer_eq_ok_iff {r : RunReport} {results : List StepResult} :
    r.answer = .ok results ↔ r.fault = none ∧ r.results = results := by
  unfold answer
  cases r.fault <;> simp

/-! ## Pauses that are too long -/

/-- A pause that is too long to be waited for is a pause. -/
theorem Quantity.isPositive_of_not_fitsClock {q : Quantity} (h : q.fitsClock = false) :
    q.isPositive = true := by
  cases q with
  | whole n =>
    simp only [fitsClock, decide_eq_false_iff_not, Int.not_lt] at h
    simp only [isPositive, decide_eq_true_eq]
    omega
  | real x =>
    cases x with
    | finite negative m e =>
      rw [fitsClock, Bool.or_eq_false_iff, decide_eq_false_iff_not] at h
      obtain ⟨rfl, long⟩ := h
      have nonzero : m ≠ 0 := by
        rintro rfl
        rw [Nat.zero_mul] at long
        exact long (Nat.mul_pos (by decide) (Nat.pow_pos (by decide)))
      simpa [isPositive, Binary64.isPositive] using nonzero
    | infinite negative =>
      have : negative = false := h
      subst this
      rfl
    | nan => cases h

/-- Without a stop that was requested, a run breaks off at every pause that is too long. -/
theorem Session.breaksOff_unlimited (pause : Quantity) (count : Nat) :
    breaksOff pause .unlimited count = !pause.fitsClock := by
  unfold breaksOff
  cases fits : pause.fitsClock with
  | false => rw [Quantity.isPositive_of_not_fitsClock fits]; rfl
  | true => simp

/-! ## Runs from the first line to the last -/

/-- How a run without limits ends that stands at line `k` of a program. -/
inductive RunReport.EndsFrom (pause : Quantity) (m : Machine) (program : List String)
    (last : List StepResult) (fault : Option ConversionFault) (k : Nat) (r : RunReport) : Prop
  | stuck (endless : pause.fitsClock = false) (before : k < Program.firstFault program)
      (more : k + 1 < program.length) (covers : r.Covers m program k (k + 1) [])
      (failure : r.fault = some .pauseTooLong)
  | through (free : pause.fitsClock = false → k < Program.firstFault program →
        k + 1 = program.length)
      (covers : r.Covers m program k (Program.firstFault program) last)
      (failure : r.fault = fault.map .conversion)

namespace Session

/-- What a loop without limits does from a line on: it executes the lines in front of the first
fault and ends there, or it breaks off behind the first of them. -/
theorem LoopsTo.from_line {pause : Quantity} {count : Nat} {s : Session} {report : RunReport}
    (loop : LoopsTo pause .unlimited count s report) {m : Machine} {k : Nat} (h : s.AtLine m k)
    (before : k ≤ Program.firstFault s.program) (inside : k < s.program.length)
    {last : List StepResult} {fault : Option ConversionFault}
    (ends : Program.EndsWith s.program last fault) :
    report.EndsFrom pause m s.program last fault k := by
  -- By the turns of the loop. Each turn that goes on moves the invariant one line further, so the
  -- results in front of it and those behind it stay the results of the lines.
  induction loop generalizing k with
  | cancelled stop => cases stop
  | enough _ reached => cases reached
  | @broken count s c _ _ breaks =>
    obtain ⟨rfl, rfl, rfl⟩ := h.step_breaks before inside ends breaks
    exact .through (fun _ earlier => absurd earlier (Nat.lt_irrefl _)) ⟨rfl, h, rfl⟩ rfl
  | @last count s result _ _ given ended =>
    obtain ⟨earlier, rfl, next, program⟩ | ⟨rfl, -, same, rfl, rfl⟩ :=
      h.step_cases before inside ends given
    · have halted := ended.resolve_left Bool.noConfusion
      rw [next.phase, Phase.after_eq_halted, program] at halted
      -- The session is halted only behind the last line, and then no line is at fault.
      have all : Program.firstFault s.program = k + 1 := by
        have := Program.firstFault_le_length s.program
        omega
      have covers : Program.results s.program m k ++
          [Program.lineResult s.program m k s.program[k]] =
            Program.results s.program m (Program.firstFault s.program) ++ [] := by
        rw [all, Program.results_succ inside, List.append_nil]
      cases ends with
      | all => exact .through (fun _ _ => halted) ⟨program, all ▸ next, covers⟩ rfl
      | rejected | broken => omega
    · rw [same]
      exact .through (fun _ earlier => absurd earlier (Nat.lt_irrefl _)) ⟨rfl, h, rfl⟩ rfl
  | @stuck count s result _ _ given ok goes endless =>
    rw [breaksOff_unlimited, Bool.not_eq_true'] at endless
    obtain ⟨earlier, rfl, next, program⟩ | ⟨-, failed, -⟩ := h.step_cases before inside ends given
    · rw [next.phase, Ne, Phase.after_eq_halted, program] at goes
      refine .stuck endless earlier (by omega) ⟨program, next, ?_⟩ rfl
      rw [Program.results_succ inside, List.append_nil]
      rfl
    · rw [failed] at ok
      cases ok
  | @again count s result report _ _ given ok goes waits rest ih =>
    rw [breaksOff_unlimited, Bool.not_eq_false'] at waits
    obtain ⟨earlier, rfl, next, program⟩ | ⟨-, failed, -⟩ := h.step_cases before inside ends given
    · rw [next.phase, Ne, Phase.after_eq_halted, program] at goes
      rw [← program] at earlier ends
      have later := ih next earlier (by rw [program]; omega) ends
      rw [program] at later
      cases later with
      | stuck endless =>
        rw [waits] at endless
        cases endless
      | through _ covers failure =>
        refine .through (fun endless => ?_) (covers.after_step inside pause) failure
        rw [waits] at endless
        cases endless
    · rw [failed] at ok
      cases ok

end Session

/-- What a run of a program is meant to be: it comes back with a result for each line in front of the
first that is no instruction, and with the fault of that one if there is one. The session stands
there, and its machine is the one that the lines in front make of `m`. -/
structure RunReport.IsLinear (m : Machine) (program : List String) (r : RunReport) : Prop where
  answer : ∃ last, Program.EndsWith program last none ∧
    r.answer = .ok (Program.results program m (Program.firstFault program) ++ last)
  kept : r.session.program = program
  place : r.session.AtLine m (Program.firstFault program)

theorem RunReport.IsLinear.fault_eq_none {m : Machine} {program : List String} {r : RunReport}
    (h : r.IsLinear m program) : r.fault = none := by
  obtain ⟨_, -, answer⟩ := h.answer
  exact (answer_eq_ok_iff.mp answer).1

namespace Session

theorem load_of_clean_ne_nil (s₀ : Session) {text : String} (usable : Program.clean text ≠ []) :
    s₀.load text none = .ok (s₀.start s₀.width (Program.clean text)) := by
  have filled : (Program.clean text).isEmpty = false := by simpa using usable
  rw [load_none, filled]
  rfl

/-- What a run without limits does in a session that was just loaded. -/
theorem run_start_endsFrom (s₀ : Session) {program : List String} (usable : program ≠ [])
    (delay : Option Quantity) {last : List StepResult} {fault : Option ConversionFault}
    (ends : Program.EndsWith program last fault) :
    ((s₀.start s₀.width program).run delay .unlimited).EndsFrom (delay.getD s₀.config.delay)
      (.fresh s₀.config.preset.registers s₀.width) program last fault 0 :=
  (loopsTo_run _ delay .unlimited).from_line (s₀.atLine_start s₀.width usable) (Nat.zero_le _)
    (List.length_pos_iff.mpr usable) ends

/-- After a text with at least one instruction line was loaded, a run without limits comes to an end
by itself. It executes the lines one after another, none twice and none left out, up to the first
that is no instruction, and tells what is wrong with that one. The machine is then the one that the
executed lines make of a fresh one. There are two exceptions, and the run does not come back in either of
them: the line that is no instruction has a literal of too many digits, or the pause is too long for
any clock and there is a second line to be reached, where the run breaks off behind the first one. -/
theorem run_linear (s₀ : Session) (text : String) (delay : Option Quantity)
    (usable : Program.clean text ≠ []) :
    ∃ s last fault, s₀.load text none = .ok s ∧
      let program := Program.clean text
      let fresh := Machine.fresh s₀.config.preset.registers s₀.width
      let j := Program.firstFault program
      let pause := delay.getD s₀.config.delay
      let report := s.run delay .unlimited
      let stuck := pause.fitsClock = false ∧ 0 < j ∧ 1 < program.length
      LoopsTo pause .unlimited 0 s report ∧
        Program.EndsWith program last fault ∧
        (report.IsLinear fresh program ↔ ¬stuck ∧ fault = none) ∧
        (¬stuck → report.Covers fresh program 0 j last ∧ report.fault = fault.map .conversion) ∧
        (stuck → report.Covers fresh program 0 1 [] ∧ report.fault = some .pauseTooLong) := by
  obtain ⟨last, fault, ends⟩ := Program.exists_endsWith (Program.clean text)
  have ended := s₀.run_start_endsFrom usable delay ends
  have loop := loopsTo_run (s₀.start s₀.width (Program.clean text)) delay .unlimited
  refine ⟨_, last, fault, s₀.load_of_clean_ne_nil usable, loop, ends, ?_⟩
  generalize (s₀.start s₀.width (Program.clean text)).run delay .unlimited = report at ended ⊢
  cases ended with
  | stuck endless before more covers failure =>
    refine ⟨⟨fun linear => ?_, fun ok => ?_⟩, fun free => ?_, fun _ => ⟨covers, failure⟩⟩
    · rw [linear.fault_eq_none] at failure
      cases failure
    · exact absurd ⟨endless, before, more⟩ ok.1
    · exact absurd ⟨endless, before, more⟩ free
  | through free covers failure =>
    have onward : ¬((delay.getD s₀.config.delay).fitsClock = false ∧
        0 < Program.firstFault (Program.clean text) ∧ 1 < (Program.clean text).length) := by
      rintro ⟨endless, before, more⟩
      exact absurd (free endless before) (Nat.ne_of_lt more)
    refine ⟨⟨fun linear => ⟨onward, ?_⟩, ?_⟩, fun _ => ⟨covers, failure⟩,
      fun stuck => absurd stuck onward⟩
    · rw [linear.fault_eq_none] at failure
      cases fault with
      | none => rfl
      | some c => cases failure
    · rintro ⟨-, rfl⟩
      exact ⟨⟨last, ends, RunReport.answer_eq_ok_iff.mpr ⟨failure, covers.results⟩⟩,
        covers.kept, covers.place⟩

/-- A program whose jumps lead away from their places in it, with a fault on its fourth line. -/
def jumpingText : String := "JMP 0000H\nMOV CX, 2\nLOOP 0100H\n?\nNOP"

/-- Three lines are executed in their order, and the fourth one is rejected. -/
theorem jumpingText_run :
    ∃ s, (new .default).load jumpingText none = .ok s ∧
      (s.run none .unlimited).results.map StepResult.line =
        ["JMP 0000H", "MOV CX, 2", "LOOP 0100H", "?"] ∧
      (s.run none .unlimited).session.pc = 3 ∧
      (s.run none .unlimited).session.phase = .running := by
  have program : Program.clean jumpingText = ["JMP 0000H", "MOV CX, 2", "LOOP 0100H", "?", "NOP"] :=
    by decide +kernel
  have fault : Program.firstFault ["JMP 0000H", "MOV CX, 2", "LOOP 0100H", "?", "NOP"] = 3 := by
    decide +kernel
  have short : (new .default).config.delay.fitsClock = true := by decide +kernel
  obtain ⟨s, last, _, loaded, _, ends, -, through, -⟩ :=
    run_linear (new .default) jumpingText none (by rw [program]; exact List.cons_ne_nil _ _)
  rw [program] at ends through
  obtain ⟨⟨kept, place, results⟩, -⟩ := through fun stuck => by simp [short] at stuck
  rw [fault] at place
  refine ⟨s, loaded, ?_, place.pc, ?_⟩
  · cases ends with
    | all whole =>
      rw [fault] at whole
      cases whole
    | rejected =>
      simp only [fault] at results
      exact congrArg (List.map StepResult.line) results
    | broken _ failure =>
      have unreadable : Instruction.parse "?" 4 = .error (.fault ⟨.unreadable "?", 4, "?"⟩) := by rfl
      simp only [fault] at failure
      cases unreadable.symm.trans failure
  · rw [place.phase, kept]
    rfl

/-- A run with settings and a program text that is as it is meant to be. -/
def RunsLinearly (c : Config) (text : String) : Prop :=
  ∃ s, (new c).load text none = .ok s ∧
    (s.run none .unlimited).IsLinear (.fresh c.preset.registers c.width) (Program.clean text)

theorem not_runsLinearly {c : Config} {text : String} (usable : Program.clean text ≠ [])
    (breaks : (((new c).start c.width (Program.clean text)).run none .unlimited).fault ≠ none) :
    ¬RunsLinearly c text := by
  rintro ⟨s, loaded, linear⟩
  rw [load_of_clean_ne_nil (new c) usable] at loaded
  cases loaded
  exact breaks linear.fault_eq_none

/-- Settings with a pause that never ends. They pass their checks. -/
def endlessPause : Config := { Config.default with delay := .real (.infinite false) }

theorem endlessPause_accepted : endlessPause.Accepted :=
  ⟨Config.defaultWidth, Config.defaultPreset, .number (.real (.infinite false)), by rfl⟩

theorem endsWith_longJump : Program.EndsWith [longJump] [] (some (.tooManyDigits 4301)) := by
  have first : Program.firstFault [longJump] = 0 := by
    simp [Program.firstFault, Instruction.isLine, parse_longJump, Except.isOk, Except.toBool]
  have inside : Program.firstFault [longJump] < [longJump].length := by
    rw [first]
    exact Nat.one_pos
  refine .broken inside ?_ digitLimit_lt
  simp only [first]
  exact parse_longJump _

/-- Two runs that are not as they are meant to be: one of a line with too many digits, and one of two
lines with a pause that never ends between them. -/
theorem runs_break_off :
    (Config.default.Accepted ∧ Program.clean longJump ≠ [] ∧ ¬RunsLinearly .default longJump) ∧
      endlessPause.Accepted ∧ Program.clean "NOP\nNOP" ≠ [] ∧
        ¬RunsLinearly endlessPause "NOP\nNOP" := by
  have digits : Program.clean longJump ≠ [] := by
    rw [clean_longJump]
    exact List.cons_ne_nil _ _
  have pause : Program.clean "NOP\nNOP" ≠ [] := by decide +kernel
  refine ⟨⟨Config.accepted_default, digits, not_runsLinearly digits ?_⟩,
    endlessPause_accepted, pause, not_runsLinearly pause (by decide +kernel)⟩
  rw [clean_longJump]
  cases (new .default).run_start_endsFrom (List.cons_ne_nil _ _) none endsWith_longJump with
  | stuck _ _ _ _ failure | through _ _ failure =>
    exact fun back => Option.some_ne_none _ (failure.symm.trans back)

end Session

end BusCycle
