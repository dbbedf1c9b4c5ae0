-- Runs that are ended early. Where the run without limits comes back, a limited run makes its first
-- steps and comes back too, and it can be taken up again where it ended: cut into any number of runs, a
-- run loses no step and makes none twice. Whoever is told the results as they come is told each of
-- them once and in order.
import BusCycle.Proofs.Session.Account

namespace BusCycle

/-! ## What limits leave of a run -/

namespace RunLimits

/-- How many of `total` steps a run makes: no more than the greatest number of steps, and no more than
have been made when a stop is requested. Below zero both are as good as zero. -/
def room (l : RunLimits) (total : Nat) : Nat :=
  min total (min (l.maxSteps.elim total Int.toNat) (l.stopAfter.elim total Int.toNat))

/-- The limits of what is left of a run after `count` steps. -/
def after (l : RunLimits) (count : Nat) : RunLimits :=
  ⟨l.maxSteps.map (· - count), l.stopAfter.map (· - count)⟩

variable {l : RunLimits} {count : Nat}

@[simp] theorem after_zero (l : RunLimits) : l.after 0 = l := by
  cases l
  simp [after]

@[simp] theorem after_unlimited (count : Nat) : unlimited.after count = unlimited := rfl

@[simp] theorem room_unlimited (total : Nat) : unlimited.room total = total := by
  simp [room, unlimited]

theorem room_le (l : RunLimits) (total : Nat) : l.room total ≤ total := Nat.min_le_left _ _

theorem room_of_stopped (h : l.stopped count = true) (total : Nat) :
    (l.after count).room total = 0 := by
  obtain ⟨max, _ | n⟩ := l
  · cases h
  · have reached : n ≤ (count : Int) := by simpa [stopped] using h
    have nothing : (n - count).toNat = 0 := by omega
    simp [room, after, nothing]

theorem room_of_reached (h : l.reached count = true) (total : Nat) :
    (l.after count).room total = 0 := by
  obtain ⟨_ | n, stop⟩ := l
  · cases h
  · have reached : n ≤ (count : Int) := by simpa [RunLimits.reached] using h
    have nothing : (n - count).toNat = 0 := by omega
    simp [room, after, nothing]

/-- As long as no limit is reached there is room for one more step. -/
theorem room_succ (on : l.stopped count = false) (more : l.reached count = false) (total : Nat) :
    (l.after count).room (total + 1) = (l.after (count + 1)).room total + 1 := by
  have counted (limit : Option Int) (h : limit.any (· ≤ (count : Int)) = false) :
      min (total + 1) ((limit.map (· - (count : Int))).elim (total + 1) Int.toNat) =
        min total ((limit.map (· - ((count + 1 : Nat) : Int))).elim total Int.toNat) + 1 := by
    cases limit with
    | none => simp
    | some n =>
      have above : (count : Int) < n := by simpa using h
      simp only [Option.map_some, Option.elim_some]
      omega
  have max := counted l.maxSteps more
  have stop := counted l.stopAfter on
  unfold room after
  dsimp only
  omega

end RunLimits

/-! ## Steps one after another -/

namespace Session

/-- The session after a number of steps. -/
def afterSteps (s : Session) (count : Nat) : Session :=
  s.performAll (List.replicate count .step)

theorem afterSteps_add (s : Session) (j k : Nat) :
    s.afterSteps (j + k) = (s.afterSteps j).afterSteps k := by
  unfold afterSteps performAll
  rw [← List.replicate_append_replicate, List.foldl_append]

theorem config_afterSteps (s : Session) (count : Nat) : (s.afterSteps count).config = s.config := by
  induction count generalizing s with
  | zero => rfl
  | succ count ih => exact (ih s.step.2).trans s.config_step

end Session

/-! ## A limited run and the run without limits -/

/-- Whether a run that makes the same steps can make a pause between them: one that can be waited for, if
there are two steps for it to stand between. -/
def RunReport.Allows (whole : RunReport) (pause : Quantity) : Prop :=
  1 < whole.results.length → pause.fitsClock = true

theorem RunReport.Allows.of_le {whole whole' : RunReport} {pause : Quantity}
    (h : whole.Allows pause) (fewer : whole'.results.length ≤ whole.results.length) :
    whole'.Allows pause :=
  fun more => h (Nat.lt_of_lt_of_le more fewer)

namespace Session.LoopsTo

variable {s : Session} {pause pause' : Quantity} {limits : RunLimits} {count count' : Nat}
  {part whole rest : RunReport}

theorem results_singleton (result : StepResult) (fault : Option RunFault) (s : Session) :
    (RunReport.mk [.stepped result] fault s).results = [result] := rfl

/-- A loop without limits that comes back has made a step. -/
theorem length_results_pos (loop : s.LoopsTo pause .unlimited count whole)
    (back : whole.fault = none) : 0 < whole.results.length := by
  cases loop with
  | cancelled stop => cases stop
  | enough _ reached => cases reached
  | broken | stuck => cases back
  | last => exact Nat.one_pos
  | again =>
    rw [RunReport.results_after_step]
    exact Nat.succ_pos _

/-- A loop without limits that comes back can make its own pause. -/
theorem allows_own (loop : s.LoopsTo pause .unlimited count whole) (back : whole.fault = none) :
    whole.Allows pause := by
  intro more
  cases loop with
  | cancelled stop => cases stop
  | enough _ reached => cases reached
  | broken | stuck => cases back
  | last => exact absurd more (Nat.lt_irrefl 1)
  | again _ _ _ _ _ waits => simpa [breaksOff_unlimited] using waits

/-- The first step of a loop without limits that comes back does not break off. -/
theorem exists_step (free : s.LoopsTo pause .unlimited count whole) (back : whole.fault = none) :
    ∃ result, s.step.1 = .ok result := by
  cases free with
  | cancelled stop => cases stop
  | enough _ reached => cases reached
  | broken => cases back
  | last _ _ given | stuck _ _ given | again _ _ given => exact ⟨_, given⟩

/-- A step that ends a run is all that a loop without limits makes. -/
theorem eq_of_ends (free : s.LoopsTo pause .unlimited count whole) (back : whole.fault = none)
    {result : StepResult} (given : s.step.1 = .ok result)
    (ends : result.ok = false ∨ s.step.2.phase = .halted) :
    whole = ⟨[.stepped result], none, s.step.2⟩ := by
  cases free with
  | cancelled stop => cases stop
  | enough _ reached => cases reached
  | broken | stuck => cases back
  | last _ _ given' =>
    obtain rfl := Except.ok.inj (given'.symm.trans given)
    rfl
  | again _ _ given' ok goes =>
    obtain rfl := Except.ok.inj (given'.symm.trans given)
    simp [ok, goes] at ends

/-- Behind a step that does not end a run, a loop without limits goes on. -/
theorem exists_rest (free : s.LoopsTo pause .unlimited count whole) (back : whole.fault = none)
    {result : StepResult} (given : s.step.1 = .ok result) (ok : result.ok = true)
    (goes : s.step.2.phase ≠ .halted) :
    ∃ rest, s.step.2.LoopsTo pause .unlimited (count + 1) rest ∧ rest.fault = none ∧
      whole = rest.after (.stepped result :: pauseEvents pause) := by
  cases free with
  | cancelled stop => cases stop
  | enough _ reached => cases reached
  | broken | stuck => cases back
  | last _ _ given' ends =>
    obtain rfl := Except.ok.inj (given'.symm.trans given)
    simp [ok, goes] at ends
  | again _ _ given' _ _ _ rest =>
    obtain rfl := Except.ok.inj (given'.symm.trans given)
    exact ⟨_, rest, back, rfl⟩

/-- A loop with limits makes the first steps of a loop without limits that comes back, as many as there
is room for, and comes back if its pause is one that can be made. -/
theorem eq_take (loop : s.LoopsTo pause limits count part)
    (free : s.LoopsTo pause' .unlimited count' whole) (back : whole.fault = none)
    (allowed : whole.Allows pause) :
    part.fault = none ∧
      part.results = whole.results.take ((limits.after count).room whole.results.length) ∧
      part.session = s.afterSteps ((limits.after count).room whole.results.length) := by
  -- By the turns of the limited loop. Where it makes a step, the other one makes the same step, and
  -- either both go on or both end.
  induction loop generalizing whole count' with
  | cancelled stop =>
    rw [RunLimits.room_of_stopped stop]
    exact ⟨rfl, rfl, rfl⟩
  | enough _ reached =>
    rw [RunLimits.room_of_reached reached]
    exact ⟨rfl, rfl, rfl⟩
  | broken _ _ breaks =>
    obtain ⟨_, given⟩ := free.exists_step back
    cases breaks.symm.trans given
  | last on more given ends =>
    obtain rfl := free.eq_of_ends back given ends
    rw [results_singleton, List.length_singleton, RunLimits.room_succ on more]
    exact ⟨rfl, rfl, rfl⟩
  | stuck _ _ given ok goes endless =>
    obtain ⟨rest, later, comes, rfl⟩ := free.exists_rest back given ok goes
    -- There is a second step, so the pause in front of it is one that can be waited for.
    have second := later.length_results_pos comes
    have fits := allowed (by
      rw [RunReport.results_after_step, List.length_cons]
      omega)
    simp [breaksOff, fits] at endless
  | again on more given ok goes _ _ ih =>
    obtain ⟨rest, later, comes, rfl⟩ := free.exists_rest back given ok goes
    rw [RunReport.Allows, RunReport.results_after_step, List.length_cons] at allowed
    obtain ⟨fault, results, session⟩ := ih later comes fun more => allowed (by omega)
    rw [RunReport.results_after_step, RunReport.results_after_step, List.length_cons,
      RunLimits.room_succ on more, results]
    exact ⟨fault, rfl, session⟩

/-- Two loops without limits make the same steps, whatever their pauses, as long as these can be
made. -/
theorem unlimited_unique (loop : s.LoopsTo pause .unlimited count part)
    (free : s.LoopsTo pause' .unlimited count' whole) (back : whole.fault = none)
    (allowed : whole.Allows pause) :
    part.fault = none ∧ part.results = whole.results ∧ part.session = whole.session := by
  obtain ⟨fault, results, session⟩ := loop.eq_take free back allowed
  obtain ⟨-, -, session'⟩ := free.eq_take free back (free.allows_own back)
  rw [RunLimits.after_unlimited, RunLimits.room_unlimited] at results session session'
  rw [results, session, session', List.take_length]
  exact ⟨fault, rfl, rfl⟩

/-- From the middle of a loop without limits, such a loop makes the steps that are left. -/
theorem eq_drop (loop : s.LoopsTo pause .unlimited count whole) (back : whole.fault = none) {k : Nat}
    (inside : k < whole.results.length)
    (later : (s.afterSteps k).LoopsTo pause' .unlimited count' rest) (allowed : whole.Allows pause') :
    rest.fault = none ∧ rest.results = whole.results.drop k ∧ rest.session = whole.session := by
  induction loop generalizing k with
  | cancelled stop => cases stop
  | enough _ reached => cases reached
  | broken | stuck => cases back
  | last on more given ends =>
    rw [results_singleton, List.length_singleton, Nat.lt_one_iff] at inside
    subst inside
    have loop : LoopsTo pause .unlimited _ _ _ := .last on more given ends
    exact later.unlimited_unique loop rfl allowed
  | again on more given ok goes waits free ih =>
    cases k with
    | zero => exact later.unlimited_unique (.again on more given ok goes waits free) back allowed
    | succ k =>
      rw [RunReport.Allows, RunReport.results_after_step, List.length_cons] at allowed
      rw [RunReport.results_after_step] at inside ⊢
      exact ih back (Nat.lt_of_succ_lt_succ inside) later fun more => allowed (by omega)

/-- Where a loop without limits has come back from, a step executes nothing and changes nothing. -/
theorem step_at_end (loop : s.LoopsTo pause .unlimited count whole) (back : whole.fault = none) :
    ∃ result, whole.session.step = (.ok result, whole.session) ∧ result.ok = false := by
  induction loop with
  | cancelled stop => cases stop
  | enough _ reached => cases reached
  | broken | stuck => cases back
  | @last _ s result _ _ given ends =>
    rcases ends with failed | halted
    · have same : s.step.2 = s :=
        step_of_not_executes ((executes_of_ok given).trans failed)
      rw [same]
      exact ⟨result, Prod.ext given same, failed⟩
    · have ended : s.step.2.nextLine? = none := by rw [nextLine?, halted]
      rw [step_of_none ended, halted]
      exact ⟨_, rfl, rfl⟩
  | again _ _ _ _ _ _ _ ih => exact ih back

end Session.LoopsTo

namespace Session

variable {s : Session} {whole : RunReport}

/-- A run without limits from `s` that came back. -/
structure RunsTo (s : Session) (whole : RunReport) : Prop where
  loop : ∃ pause, s.LoopsTo pause .unlimited 0 whole
  back : whole.fault = none

theorem runsTo_run {delay : Option Quantity} (back : (s.run delay .unlimited).fault = none) :
    s.RunsTo (s.run delay .unlimited) :=
  ⟨⟨_, s.loopsTo_run delay .unlimited⟩, back⟩

namespace RunsTo

theorem run_eq_take (h : s.RunsTo whole) {delay : Option Quantity}
    (allowed : whole.Allows (delay.getD s.config.delay)) (limits : RunLimits) :
    (s.run delay limits).fault = none ∧
      (s.run delay limits).results = whole.results.take (limits.room whole.results.length) ∧
      (s.run delay limits).session = s.afterSteps (limits.room whole.results.length) := by
  obtain ⟨_, loop⟩ := h.loop
  have take := (s.loopsTo_run delay limits).eq_take loop h.back allowed
  rw [RunLimits.after_zero] at take
  exact take

theorem length_results_run (h : s.RunsTo whole) {delay : Option Quantity}
    (allowed : whole.Allows (delay.getD s.config.delay)) (limits : RunLimits) :
    (s.run delay limits).results.length = limits.room whole.results.length := by
  rw [(h.run_eq_take allowed limits).2.1, List.length_take]
  exact Nat.min_eq_left (limits.room_le _)

theorem session_eq (h : s.RunsTo whole) : whole.session = s.afterSteps whole.results.length := by
  obtain ⟨_, loop⟩ := h.loop
  obtain ⟨-, -, session⟩ := loop.eq_take loop h.back (loop.allows_own h.back)
  rwa [RunLimits.after_unlimited, RunLimits.room_unlimited] at session

theorem run_afterSteps (h : s.RunsTo whole) {delay : Option Quantity}
    (allowed : whole.Allows (delay.getD s.config.delay)) {k : Nat}
    (inside : k < whole.results.length) :
    ((s.afterSteps k).run delay .unlimited).fault = none ∧
      ((s.afterSteps k).run delay .unlimited).results = whole.results.drop k ∧
      ((s.afterSteps k).run delay .unlimited).session = whole.session := by
  obtain ⟨_, loop⟩ := h.loop
  rw [← s.config_afterSteps k] at allowed
  exact loop.eq_drop h.back inside (loopsTo_run _ delay .unlimited) allowed

/-- From where a run without limits has come back, such a run comes back with one result. -/
theorem exists_of_ended (h : s.RunsTo whole) :
    ∃ more, whole.session.RunsTo more ∧ more.results.length = 1 := by
  obtain ⟨pause, loop⟩ := h.loop
  obtain ⟨result, step, failed⟩ := loop.step_at_end h.back
  have last : LoopsTo pause .unlimited 0 whole.session ⟨[.stepped result], none, _⟩ :=
    .last rfl rfl (congrArg Prod.fst step) (Or.inl failed)
  exact ⟨_, ⟨⟨pause, last⟩, rfl⟩, rfl⟩

/-- From the middle of a run without limits that came back, such a run comes back with as many results
as are left. -/
theorem exists_of_middle (h : s.RunsTo whole) {k : Nat} (inside : k < whole.results.length) :
    ∃ more, (s.afterSteps k).RunsTo more ∧ more.results = whole.results.drop k := by
  obtain ⟨pause, loop⟩ := h.loop
  have allowed : whole.Allows ((some pause).getD s.config.delay) := loop.allows_own h.back
  obtain ⟨fault, results, -⟩ := h.run_afterSteps allowed inside
  exact ⟨_, runsTo_run fault, results⟩

end RunsTo

end Session

/-! ## The beginning of a run -/

namespace Session

/-- Results, and the session after them, that are the beginning of a run without limits: its first
results, and the session after as many steps. Unless they are all of it, a run without limits from
there comes back with just the results that are missing, and leads to the same session. -/
structure Begins (s : Session) (whole : RunReport) (results : List StepResult) (after : Session) :
    Prop where
  first : results = whole.results.take results.length
  leads : after = s.afterSteps results.length
  resumes : results.length < whole.results.length →
    ∀ delay : Option Quantity, whole.Allows (delay.getD s.config.delay) →
      (after.run delay .unlimited).answer = .ok (whole.results.drop results.length) ∧
        (after.run delay .unlimited).session = whole.session

variable {s after : Session} {whole : RunReport} {results : List StepResult}

theorem RunsTo.begins (h : s.RunsTo whole) (first : results = whole.results.take results.length)
    (leads : after = s.afterSteps results.length) : s.Begins whole results after := by
  refine ⟨first, leads, fun more later allowed => ?_⟩
  obtain ⟨fault, left, session⟩ := h.run_afterSteps allowed more
  rw [leads]
  exact ⟨RunReport.answer_eq_ok_iff.mpr ⟨fault, left⟩, session⟩

theorem RunsTo.begins_run (h : s.RunsTo whole) {delay : Option Quantity}
    (allowed : whole.Allows (delay.getD s.config.delay)) (limits : RunLimits) :
    s.Begins whole (s.run delay limits).results (s.run delay limits).session := by
  obtain ⟨-, results, session⟩ := h.run_eq_take allowed limits
  rw [← h.length_results_run allowed limits] at results session
  exact h.begins results session

/-! ## Runs one after another -/

/-- The results of runs one after another, each with its pause and its limits and from where the one
before it ended, and the session after them. A run that breaks off is the last one. -/
def runEach (s : Session) :
    List (Option Quantity × RunLimits) → Except RunFault (List StepResult) × Session
  | [] => (.ok [], s)
  | (delay, limits) :: rest =>
    let first := s.run delay limits
    match first.answer with
    | .error fault => (.error fault, first.session)
    | .ok results =>
      let others := first.session.runEach rest
      (others.1.map (results ++ ·), others.2)

/-- A run that comes back, in front of others that come back. -/
theorem runEach_cons {delay : Option Quantity} {limits : RunLimits}
    {rest : List (Option Quantity × RunLimits)} {others : List StepResult}
    (back : (s.run delay limits).fault = none)
    (later : (s.run delay limits).session.runEach rest = (.ok others, after)) :
    s.runEach ((delay, limits) :: rest) = (.ok ((s.run delay limits).results ++ others), after) := by
  have first : (s.run delay limits).answer = .ok (s.run delay limits).results :=
    RunReport.answer_eq_ok_iff.mpr ⟨back, rfl⟩
  simp only [runEach, first, later]
  rfl

/-- Runs from where a run without limits would come back come back, one after another. If they have no
more results than that one, they are the beginning of it. -/
theorem RunsTo.exists_runEach (h : s.RunsTo whole) {parts : List (Option Quantity × RunLimits)}
    (allowed : ∀ part ∈ parts, whole.Allows (part.1.getD s.config.delay)) :
    ∃ results after, s.runEach parts = (.ok results, after) ∧
      (results.length ≤ whole.results.length →
        results = whole.results.take results.length ∧ after = s.afterSteps results.length) := by
  -- By the runs. What the first one leaves is the run without limits from where it ended, and if it
  -- leaves nothing, every step of the others would be one too many.
  induction parts generalizing s whole with
  | nil => exact ⟨[], s, rfl, fun _ => ⟨rfl, rfl⟩⟩
  | cons part rest ih =>
    obtain ⟨delay, limits⟩ := part
    have own := allowed _ List.mem_cons_self
    have begun := h.begins_run own limits
    have fault := (h.run_eq_take own limits).1
    have few : (s.run delay limits).results.length ≤ whole.results.length := by
      rw [h.length_results_run own limits]
      exact limits.room_le _
    have onward {more : RunReport} (fewer : more.results.length ≤ whole.results.length) :
        ∀ part ∈ rest, more.Allows (part.1.getD (s.run delay limits).session.config.delay) := by
      intro part mem
      rw [begun.leads, s.config_afterSteps]
      exact (allowed part (List.mem_cons_of_mem _ mem)).of_le fewer
    rcases Nat.lt_or_eq_of_le few with left | all
    · obtain ⟨more, runs, missing⟩ := h.exists_of_middle left
      rw [← begun.leads] at runs
      obtain ⟨others, after, later, within⟩ := ih runs (onward (by rw [missing]; simp))
      refine ⟨_, after, runEach_cons fault later, fun room => ?_⟩
      rw [List.length_append] at room ⊢
      obtain ⟨made, leads⟩ := within (by rw [missing, List.length_drop]; omega)
      rw [missing] at made
      rw [List.take_add, ← begun.first, ← made, afterSteps_add, ← begun.leads]
      exact ⟨rfl, leads⟩
    · have ended : (s.run delay limits).session = whole.session := by
        rw [begun.leads, all, ← h.session_eq]
      obtain ⟨more, runs, one⟩ := h.exists_of_ended
      rw [← ended] at runs
      have positive : 0 < whole.results.length := by
        obtain ⟨_, loop⟩ := h.loop
        exact loop.length_results_pos h.back
      obtain ⟨others, after, later, within⟩ := ih runs (onward (by rw [one]; exact positive))
      refine ⟨_, after, runEach_cons fault later, fun room => ?_⟩
      rw [List.length_append] at room
      obtain rfl : others = [] := by
        rw [← List.length_eq_zero_iff]
        omega
      obtain ⟨-, leads⟩ := within (Nat.zero_le _)
      rw [List.append_nil, leads]
      exact ⟨begun.first, begun.leads⟩

end Session

/-! ## Who is told the results -/

/-- Somebody who is told the results of a run as they come, remembers what they like, and may have the
run stopped before its next step. -/
structure Listener (α : Type) where
  hears : α → StepResult → α
  stops : α → Bool

/-- A listener who requests a stop once so many results were heard, or before the run if that is not
above zero, and who never requests one if there is no number. -/
def Listener.StopsAfter {α : Type} (listener : Listener α) (memory : α) (count : Option Int) : Prop :=
  ∀ heard : List StepResult,
    listener.stops (heard.foldl listener.hears memory) = count.any (· ≤ (heard.length : Int))

/-- A listener who only counts, and who requests a stop once so many results were heard. -/
def Listener.counting (count : Option Int) : Listener Nat :=
  ⟨fun n _ => n + 1, fun n => count.any (· ≤ (n : Int))⟩

theorem Listener.foldl_counting (count : Option Int) (heard : List StepResult) (start : Nat) :
    heard.foldl (Listener.counting count).hears start = start + heard.length := by
  induction heard generalizing start with
  | nil => rfl
  | cons result rest ih =>
    rw [List.foldl_cons, ih, List.length_cons]
    exact Nat.succ_add_eq_add_succ start rest.length

theorem Listener.stopsAfter_counting (count : Option Int) :
    (Listener.counting count).StopsAfter 0 count := by
  intro heard
  rw [foldl_counting, Nat.zero_add]
  rfl

namespace InPlace

/-- What the loop of a run goes on with from turn to turn. -/
structure Turn (α : Type) where
  session : Session
  results : List StepResult
  memory : α

variable {α : Type}

/-- The turn after a step. Its result is put behind the others, and then the listener is told of it. -/
def Turn.next (t : Turn α) (listener : Listener α) (result : StepResult) : Turn α :=
  ⟨t.session.step.2, t.results ++ [result], listener.hears t.memory result⟩

/-- Whether the loop breaks off at its pause. A stop that was requested wakes it from any pause. -/
def Turn.breaksOff (t : Turn α) (listener : Listener α) (pause : Quantity) : Bool :=
  pause.isPositive && !pause.fitsClock && !listener.stops t.memory

/-- The loop of a run, turn by turn, with somebody who listens, and the fault that breaks it off. -/
inductive Loops (listener : Listener α) (pause : Quantity) (maxSteps : Option Int) :
    Turn α → Turn α → Option RunFault → Prop
  | stopped {t : Turn α} (stop : listener.stops t.memory = true) :
      Loops listener pause maxSteps t t none
  | enough {t : Turn α} (on : listener.stops t.memory = false)
      (reached : maxSteps.any (· ≤ (t.results.length : Int)) = true) :
      Loops listener pause maxSteps t t none
  | broken {t : Turn α} {fault : ConversionFault} (on : listener.stops t.memory = false)
      (more : maxSteps.any (· ≤ (t.results.length : Int)) = false)
      (breaks : t.session.step.1 = .error fault) :
      Loops listener pause maxSteps t t (some (.conversion fault))
  | last {t : Turn α} {result : StepResult} (on : listener.stops t.memory = false)
      (more : maxSteps.any (· ≤ (t.results.length : Int)) = false)
      (given : t.session.step.1 = .ok result)
      (ends : result.ok = false ∨ t.session.step.2.phase = .halted) :
      Loops listener pause maxSteps t (t.next listener result) none
  | stuck {t : Turn α} {result : StepResult} (on : listener.stops t.memory = false)
      (more : maxSteps.any (· ≤ (t.results.length : Int)) = false)
      (given : t.session.step.1 = .ok result) (ok : result.ok = true)
      (goes : t.session.step.2.phase ≠ .halted)
      (endless : (t.next listener result).breaksOff listener pause = true) :
      Loops listener pause maxSteps t (t.next listener result) (some .pauseTooLong)
  | again {t u : Turn α} {result : StepResult} {fault : Option RunFault}
      (on : listener.stops t.memory = false)
      (more : maxSteps.any (· ≤ (t.results.length : Int)) = false)
      (given : t.session.step.1 = .ok result) (ok : result.ok = true)
      (goes : t.session.step.2.phase ≠ .halted)
      (waits : (t.next listener result).breaksOff listener pause = false)
      (rest : Loops listener pause maxSteps (t.next listener result) u fault) :
      Loops listener pause maxSteps t u fault

end InPlace

namespace InPlace.Loops

variable {α : Type} {listener : Listener α} {pause : Quantity} {maxSteps : Option Int}
  {t u v : Turn α} {fault fault' : Option RunFault}

/-- The loop can end in one way only. -/
theorem unique (loop : Loops listener pause maxSteps t u fault)
    (other : Loops listener pause maxSteps t v fault') : u = v ∧ fault = fault' := by
  induction loop with
  | stopped stop =>
    cases other with
    | stopped => exact ⟨rfl, rfl⟩
    | enough on | broken on | last on | stuck on | again on => simp [stop] at on
  | enough on reached =>
    cases other with
    | stopped stop => simp [stop] at on
    | enough => exact ⟨rfl, rfl⟩
    | broken _ more | last _ more | stuck _ more | again _ more => simp [reached] at more
  | broken on more breaks =>
    cases other with
    | stopped stop => simp [stop] at on
    | enough _ reached => simp [reached] at more
    | broken _ _ breaks' =>
      obtain rfl := Except.error.inj (breaks'.symm.trans breaks)
      exact ⟨rfl, rfl⟩
    | last _ _ given | stuck _ _ given | again _ _ given => cases breaks.symm.trans given
  | last on more given ends =>
    cases other with
    | stopped stop => simp [stop] at on
    | enough _ reached => simp [reached] at more
    | broken _ _ breaks => cases breaks.symm.trans given
    | last _ _ given' =>
      obtain rfl := Except.ok.inj (given'.symm.trans given)
      exact ⟨rfl, rfl⟩
    | stuck _ _ given' ok goes | again _ _ given' ok goes =>
      obtain rfl := Except.ok.inj (given'.symm.trans given)
      simp [ok, goes] at ends
  | stuck on more given ok goes endless =>
    cases other with
    | stopped stop => simp [stop] at on
    | enough _ reached => simp [reached] at more
    | broken _ _ breaks => cases breaks.symm.trans given
    | last _ _ given' ends =>
      obtain rfl := Except.ok.inj (given'.symm.trans given)
      simp [ok, goes] at ends
    | stuck _ _ given' =>
      obtain rfl := Except.ok.inj (given'.symm.trans given)
      exact ⟨rfl, rfl⟩
    | again _ _ given' _ _ waits =>
      obtain rfl := Except.ok.inj (given'.symm.trans given)
      simp [waits] at endless
  | again on more given ok goes waits _ ih =>
    cases other with
    | stopped stop => simp [stop] at on
    | enough _ reached => simp [reached] at more
    | broken _ _ breaks => cases breaks.symm.trans given
    | last _ _ given' ends =>
      obtain rfl := Except.ok.inj (given'.symm.trans given)
      simp [ok, goes] at ends
    | stuck _ _ given' _ _ endless =>
      obtain rfl := Except.ok.inj (given'.symm.trans given)
      simp [waits] at endless
    | again _ _ given' _ _ _ rest =>
      obtain rfl := Except.ok.inj (given'.symm.trans given)
      exact ih rest

/-- A listener who asks for a stop after so many results makes the loop break off where limits do. -/
theorem breaksOff_next {memory : α} {limits : RunLimits}
    (asks : listener.StopsAfter memory limits.stopAfter) (s : Session) (heard : List StepResult)
    (result : StepResult) (pause : Quantity) :
    (Turn.next ⟨s, heard, heard.foldl listener.hears memory⟩ listener result).breaksOff listener
        pause = Session.breaksOff pause limits (heard.length + 1) := by
  have stops := asks (heard ++ [result])
  rw [List.foldl_append, List.length_append] at stops
  unfold Turn.breaksOff Session.breaksOff RunLimits.stopped
  exact congrArg (fun stop => pause.isPositive && !pause.fitsClock && !stop) stops

/-- What a run does, the loop does with any listener, who has then heard of the results that the run
has, and of nothing else. -/
theorem of_loopsTo {memory : α} {limits : RunLimits} {count : Nat} {s : Session}
    {report : RunReport} (asks : listener.StopsAfter memory limits.stopAfter)
    (loop : s.LoopsTo pause limits count report) {heard : List StepResult}
    (made : heard.length = count) :
    Loops listener pause limits.maxSteps ⟨s, heard, heard.foldl listener.hears memory⟩
      ⟨report.session, heard ++ report.results,
        (heard ++ report.results).foldl listener.hears memory⟩ report.fault := by
  induction loop generalizing heard with
  | @cancelled _ s stop =>
    subst made
    rw [RunLimits.stopped, ← asks] at stop
    have same : heard ++ (RunReport.mk [.cancelled heard.length] none s).results = heard :=
      List.append_nil heard
    rw [same]
    exact .stopped stop
  | @enough _ s on reached =>
    subst made
    rw [RunLimits.stopped, ← asks] at on
    have same : heard ++ (RunReport.mk [] none s).results = heard := List.append_nil heard
    rw [same]
    exact .enough on reached
  | @broken _ s fault on more breaks =>
    subst made
    rw [RunLimits.stopped, ← asks] at on
    have same : heard ++ (RunReport.mk [] (some (.conversion fault)) s).results = heard :=
      List.append_nil heard
    rw [same]
    exact .broken on more breaks
  | @last _ s result on more given ends =>
    subst made
    rw [RunLimits.stopped, ← asks] at on
    rw [Session.LoopsTo.results_singleton, List.foldl_append]
    exact .last (t := ⟨s, heard, heard.foldl listener.hears memory⟩) on more given ends
  | @stuck _ s result on more given ok goes endless =>
    subst made
    rw [← breaksOff_next asks s heard result] at endless
    rw [RunLimits.stopped, ← asks] at on
    rw [Session.LoopsTo.results_singleton, List.foldl_append]
    exact .stuck (t := ⟨s, heard, heard.foldl listener.hears memory⟩) on more given ok goes endless
  | @again _ s result report on more given ok goes waits _ ih =>
    subst made
    rw [← breaksOff_next asks s heard result] at waits
    rw [RunLimits.stopped, ← asks] at on
    have rest := @ih (heard ++ [result]) (by simp)
    rw [List.foldl_append] at rest
    rw [RunReport.results_after_step, List.append_cons]
    exact .again on more given ok goes waits rest

end InPlace.Loops

namespace Session

/-- Where a run without limits comes back, a run with limits is the beginning of it, with as many results
as there is room for, and comes back too unless its pause is too long to stand between two steps. The
loop of the run tells whoever listens each of its results once and in order. Runs one after another
come back as well, and are the beginning of the run without limits if they stay within it. -/
theorem limited_runs_are_beginnings {s : Session} {delay' : Option Quantity}
    (back : (s.run delay' .unlimited).fault = none) :
    let whole := s.run delay' .unlimited
    whole.Allows (delay'.getD s.config.delay) ∧
    (∀ (delay : Option Quantity) (limits : RunLimits), whole.Allows (delay.getD s.config.delay) →
      let part := s.run delay limits
      part.fault = none ∧
      part.results.length = limits.room whole.results.length ∧
      s.Begins whole part.results part.session ∧
      ∀ (α : Type) (listener : Listener α) (memory : α),
        listener.StopsAfter memory limits.stopAfter → ∀ t fault,
          InPlace.Loops listener (delay.getD s.config.delay) limits.maxSteps ⟨s, [], memory⟩ t fault ↔
            t = ⟨part.session, part.results, part.results.foldl listener.hears memory⟩ ∧
              fault = none) ∧
    ∀ parts : List (Option Quantity × RunLimits),
      (∀ part ∈ parts, whole.Allows (part.1.getD s.config.delay)) →
        ∃ results after, s.runEach parts = (.ok results, after) ∧
          (results.length ≤ whole.results.length → s.Begins whole results after) := by
  have runs := runsTo_run back
  refine ⟨(s.loopsTo_run delay' .unlimited).allows_own back, ?part, ?parts⟩
  case part =>
    intro delay limits allowed
    have fault := (runs.run_eq_take allowed limits).1
    refine ⟨fault, runs.length_results_run allowed limits, runs.begins_run allowed limits, ?_⟩
    intro α listener memory asks t fault'
    have unheard : ([] : List StepResult).length = 0 := rfl
    have loop := InPlace.Loops.of_loopsTo asks (s.loopsTo_run delay limits) unheard
    rw [fault] at loop
    constructor
    · exact fun other => other.unique loop
    · rintro ⟨rfl, rfl⟩
      exact loop
  case parts =>
    intro parts allowed
    obtain ⟨results, after, made, within⟩ := runs.exists_runEach allowed
    refine ⟨results, after, made, fun few => ?_⟩
    obtain ⟨first, leads⟩ := within few
    exact runs.begins first leads

/-- A program whose third line is no instruction. -/
def faultyThird : Session := (new .default).start (.ofInt 8) ["NOP", "INC AX", "?", "NOP"]

/-- A run of it that is stopped after two steps leaves the rejected line to the next run. -/
theorem faultyThird_stopped :
    (faultyThird.run none .unlimited).fault = none ∧
    let part := faultyThird.run none ⟨some 5, some 2⟩
    part.results.map StepResult.line = ["NOP", "INC AX"] ∧
      (part.session.run none .unlimited).results.map StepResult.line = ["?"] ∧
      InPlace.Loops (.counting (some 2)) Config.default.delay (some 5) ⟨faultyThird, [], 0⟩
        ⟨part.session, part.results, 2⟩ none := by
  have back : (faultyThird.run none .unlimited).fault = none := by decide +kernel
  obtain ⟨allowed, parts, -⟩ := limited_runs_are_beginnings back
  obtain ⟨-, many, begun, told⟩ := parts none ⟨some 5, some 2⟩ allowed
  have whole : (faultyThird.run none .unlimited).results.map StepResult.line =
      ["NOP", "INC AX", "?"] := by decide +kernel
  have three : (faultyThird.run none .unlimited).results.length = 3 := by
    simpa using congrArg List.length whole
  rw [three] at many
  have two : (faultyThird.run none ⟨some 5, some 2⟩).results.length = 2 := many
  obtain ⟨left, -⟩ := begun.resumes (by rw [two, three]; decide) none allowed
  refine ⟨back, ?_, ?_, ?_⟩
  · rw [begun.first, two, List.map_take, whole]
    rfl
  · rw [(RunReport.answer_eq_ok_iff.mp left).2, two, List.map_drop, whole]
    rfl
  · refine (told Nat (.counting (some 2)) 0 (Listener.stopsAfter_counting _) _ none).mpr ⟨?_, rfl⟩
    rw [Listener.foldl_counting, two]

end Session

end BusCycle
