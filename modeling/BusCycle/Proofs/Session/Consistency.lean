-- The parts of a session agree with one another, whatever operations led to it: how far it is, its
-- place in the program, the flow of the lines that were executed, the history of the addresses that
-- were formed, and the width of its bus.
import BusCycle.Proofs.Machine.Line
import BusCycle.Proofs.Session.Account

namespace BusCycle

/-! ## What the next step is about -/

namespace Session

/-- The line that the next step takes, empty if there is none. -/
def line (s : Session) : String := s.nextLine?.getD ""

/-- What the next step adds to the flow, if it is executed. -/
def entry (s : Session) : FlowEntry :=
  ⟨s.pc, s.line, s.step.2.machine.bus.text, s.machine.bus.step, s.step.2.machine.bus.step⟩

/-- The reference to a word that the next step makes, if it moves a word. -/
def dataReference? (s : Session) : Option Reference :=
  (s.machine.lineAccess? s.line).map WordAccess.place

/-- What the next step adds to the history, if it is executed: the fetch, then the reference to a
word if it moves one. -/
def references (s : Session) : List Reference :=
  .fetch s.machine.registers.cs.toNat s.machine.registers.ip.toNat :: s.dataReference?.toList

variable {s : Session} {line : String} {i : Instruction}

theorem line_of_nextLine? (h : s.nextLine? = some line) : s.line = line := by
  rw [Session.line, h]
  rfl

theorem getElem?_of_nextLine? (h : s.nextLine? = some line) : s.program[s.pc]? = some line := by
  unfold nextLine? at h
  split at h
  · exact h
  · exact h
  · cases h
  · cases h

theorem flow_advance (hl : s.nextLine? = some line)
    (hi : Instruction.parse line (s.pc + 1) = .ok i) :
    (s.advance line i).flow = s.flow ++ [s.entry] := by
  rw [entry, line_of_nextLine? hl, step_of_ok hl hi]
  rfl

theorem history_advance (hl : s.nextLine? = some line)
    (hi : Instruction.parse line (s.pc + 1) = .ok i) :
    (s.advance line i).machine.history = s.machine.history ++ s.references := by
  have cycled := s.ready.history_cycle (s.assemble i)
  have moved : s.machine.lineAccess? line = s.ready.cycleAccess? (s.assemble i) :=
    Machine.lineAccess?_of_parse hi s.ready
  rw [references, dataReference?, line_of_nextLine? hl, moved, Option.toList_map]
  exact cycled

theorem isSome_dataReference?_iff (s : Session) :
    s.dataReference?.isSome ↔ Program.MovesWord s.line := by
  rw [dataReference?, Option.isSome_map]
  exact s.machine.isSome_lineAccess?_iff s.line

theorem kind_dataReference? {r : Reference} (h : s.dataReference? = some r) : r.kind = .data := by
  obtain ⟨access, moved, rfl⟩ := Option.map_eq_some_iff.mp h
  exact Machine.kind_place_lineAccess? moved

/-- A step that is executed in `s` executes the line at its place in the program. -/
theorem step_eq_of_executes (h : s.executes = true) :
    s.step.1 = .ok (.executed s.pc s.line s.step.2.machine.bus.text) ∧
      s.program[s.pc]? = some s.line := by
  obtain ⟨line, i, hl, hi⟩ := line_of_executes h
  rw [line_of_nextLine? hl]
  refine ⟨?_, getElem?_of_nextLine? hl⟩
  rw [step_of_ok hl hi]

end Session

/-! ## The invariant -/

namespace Account

/-- What every account keeps: each part of the session is told by its place in the program, by the
sessions in which its executed steps began, and by the width in force. -/
structure Sound (c : Config) (a : Account) : Prop where
  config : a.session.config = c
  phase : a.session.phase =
    if a.session.program = [] then .idle else .after a.session.pc a.session.program.length
  inside : a.session.pc ≤ a.session.program.length
  count : a.begun.length = a.session.pc
  began : ∀ (k : Nat) (b : Session), a.begun[k]? = some b →
    b.pc = k ∧ b.program = a.session.program ∧ b.executes = true
  flow : a.session.flow = a.begun.map Session.entry
  last : ∀ b : Session, a.begun.getLast? = some b →
    b.step.2.machine.bus.text = a.session.machine.bus.text
  history : a.session.machine.history = a.begun.flatMap Session.references
  width : a.session.machine.width = a.inForce
  unstarted : a.begun = [] → a.session.machine = .fresh c.preset.registers a.inForce

variable {c : Config} {a : Account}

/-- A session in a fresh machine, with no step behind it. -/
theorem sound_of_fresh {s : Session} {w : BusWidth} (config : s.config = c)
    (phase : s.phase = if s.program = [] then .idle else .loaded) (pc : s.pc = 0)
    (flow : s.flow = []) (machine : s.machine = .fresh s.config.preset.registers w) :
    Sound c ⟨s, [], w⟩ := by
  rw [config] at machine
  refine ⟨config, ?_, ?_, pc.symm, ?_, flow, ?_, ?_, ?_, fun _ => machine⟩
  · rw [phase, pc]
    by_cases bare : s.program = []
    · rw [if_pos bare, if_pos bare]
    · have filled : 0 < s.program.length := List.length_pos_iff.mpr bare
      rw [if_neg bare, if_neg bare, Phase.after_of_lt filled, if_pos rfl]
  · rw [pc]
    exact Nat.zero_le _
  · intro k b hb
    simp at hb
  · intro b hb
    simp at hb
  · rw [machine]
    rfl
  · rw [machine]
    rfl

theorem Sound.advance {line : String} {i : Instruction} (h : Sound c a)
    (hl : a.session.nextLine? = some line)
    (hi : Instruction.parse line (a.session.pc + 1) = .ok i) :
    Sound c ⟨a.session.advance line i, a.begun ++ [a.session], a.session.width⟩ := by
  have step := Session.step_of_ok hl hi
  obtain ⟨within, -⟩ := List.getElem?_eq_some_iff.mp (Session.getElem?_of_nextLine? hl)
  refine ⟨h.config, ?_, within, ?_, ?_, ?_, ?_, ?_, Machine.width_cycle _ _, ?_⟩
  · have filled : a.session.program ≠ [] := List.length_pos_iff.mp (Nat.zero_lt_of_lt within)
    exact (Phase.after_succ within).symm.trans (if_neg filled).symm
  · rw [List.length_append, h.count]
    rfl
  · intro k b hb
    rw [List.getElem?_append] at hb
    split at hb
    · exact h.began k b hb
    · rename_i behind
      rw [List.getElem?_singleton] at hb
      split at hb
      · cases hb
        refine ⟨?_, rfl, ?_⟩
        · have := h.count
          omega
        · exact Session.executes_of_ok (congrArg Prod.fst step)
      · cases hb
  · rw [Session.flow_advance hl hi, h.flow, List.map_append]
    rfl
  · intro b hb
    rw [List.getLast?_concat] at hb
    cases hb
    rw [step]
  · rw [Session.history_advance hl hi, h.history, List.flatMap_append, List.flatMap_singleton]
  · intro unstarted
    simp at unstarted

theorem kept_sound (c : Config) : Kept (Sound c) where
  start _ _ _ h filled _ := sound_of_fresh h.config (if_neg filled).symm rfl rfl rfl
  reset _ h := sound_of_fresh h.config rfl rfl rfl rfl
  advance _ _ _ h hl hi := h.advance hl hi
  setWidth _ _ h _ := ⟨h.config, h.phase, h.inside, h.count, h.began, h.flow, h.last, h.history,
    h.width, h.unstarted⟩

theorem sound_ofOperations (c : Config) (ops : List Operation) : Sound c (ofOperations c ops) :=
  (kept_sound c).ofOperations (sound_of_fresh rfl rfl rfl rfl rfl) ops

end Account

/-! ## Phases -/

/-- The phases tell, by the place in the program, whether there is a program, and how much of it. -/
theorem Phase.iff_of_after {phase : Phase} {program : List String} {pc : Nat}
    (inside : pc ≤ program.length)
    (h : phase = if program = [] then .idle else .after pc program.length) :
    (phase = .idle ↔ program = []) ∧
      (phase = .loaded ↔ program ≠ [] ∧ pc = 0) ∧
      (phase = .running ↔ 0 < pc ∧ pc < program.length) ∧
      (phase = .halted ↔ program ≠ [] ∧ pc = program.length) := by
  by_cases bare : program = []
  · rw [if_pos bare] at h
    simp [h, bare]
  · rw [if_neg bare] at h
    unfold after at h
    by_cases all : pc = program.length
    · rw [if_pos all] at h
      simp [h, bare, all]
    · rw [if_neg all] at h
      have within : pc < program.length := by omega
      by_cases first : pc = 0
      · rw [if_pos first] at h
        rw [first] at all
        simp [h, bare, first, all]
      · rw [if_neg first] at h
        simp [h, bare, first, all, within, Nat.pos_of_ne_zero first]

/-! ## The parts of a session -/

namespace Account

/-- The parts of a session agree with one another and with its account. -/
structure Consistent (c : Config) (a : Account) : Prop where
  idle_iff : a.session.phase = .idle ↔ a.session.program = []
  idle_fresh : a.session.phase = .idle →
    a.session.pc = 0 ∧ a.session.machine.registers = c.preset.registers ∧
      a.session.machine.memory = .empty ∧ a.session.machine.history = [] ∧ a.session.flow = [] ∧
      a.session.machine.bus.transactions = [] ∧ a.session.machine.bus.lines = [] ∧
      a.session.machine.bus.step = 1
  loaded_iff : a.session.phase = .loaded ↔ a.session.program ≠ [] ∧ a.session.pc = 0
  running_iff : a.session.phase = .running ↔
    0 < a.session.pc ∧ a.session.pc < a.session.program.length
  halted_iff : a.session.phase = .halted ↔
    a.session.program ≠ [] ∧ a.session.pc = a.session.program.length
  flow_length : a.session.flow.length = a.session.pc
  flow_entry : ∀ (k : Nat) (e : FlowEntry), a.session.flow[k]? = some e →
    e.index = k ∧ a.session.program[k]? = some e.instruction
  flow_last : ∀ e : FlowEntry, a.session.flow.getLast? = some e → e.log = a.session.machine.bus.text
  begun_length : a.begun.length = a.session.pc
  begun_executed : ∀ (k : Nat) (b : Session), a.begun[k]? = some b →
    a.session.program[k]? = some b.line ∧ ∃ log, b.step.1 = .ok (.executed k b.line log)
  history : a.session.machine.history = a.begun.flatMap fun b =>
    .fetch b.machine.registers.cs.toNat b.machine.registers.ip.toNat :: b.dataReference?.toList
  dataReference_iff : ∀ b ∈ a.begun, b.dataReference?.isSome ↔ Program.MovesWord b.line
  dataReference_kind : ∀ b ∈ a.begun, ∀ r ∈ b.dataReference?, r.kind = .data
  width : a.session.machine.width = a.inForce

theorem Sound.executed {c : Config} {a : Account} {k : Nat} {b : Session} (h : Sound c a)
    (hb : a.begun[k]? = some b) :
    a.session.program[k]? = some b.line ∧
      b.step.1 = .ok (.executed k b.line b.step.2.machine.bus.text) := by
  obtain ⟨rfl, program, executes⟩ := h.began k b hb
  obtain ⟨step, line⟩ := Session.step_eq_of_executes executes
  rw [← program]
  exact ⟨line, step⟩

theorem Sound.consistent {c : Config} {a : Account} (h : Sound c a) : Consistent c a := by
  obtain ⟨idle, loaded, running, halted⟩ := Phase.iff_of_after h.inside h.phase
  refine ⟨idle, ?_, loaded, running, halted, ?_, ?_, ?_, h.count, ?_, h.history,
    fun b _ => b.isSome_dataReference?_iff, fun b _ r hr => Session.kind_dataReference? hr,
    h.width⟩
  · intro phase
    have pc : a.session.pc = 0 := by
      have := h.inside
      rw [idle.mp phase] at this
      exact Nat.le_zero.mp this
    have unstarted : a.begun = [] := List.length_eq_zero_iff.mp (h.count.trans pc)
    have flow : a.session.flow = [] := by rw [h.flow, unstarted]; rfl
    rw [h.unstarted unstarted]
    exact ⟨pc, rfl, rfl, rfl, flow, rfl, rfl, rfl⟩
  · rw [h.flow, List.length_map, h.count]
  · intro k e he
    rw [h.flow, List.getElem?_map] at he
    obtain ⟨b, hb, rfl⟩ := Option.map_eq_some_iff.mp he
    exact ⟨(h.began k b hb).1, (h.executed hb).1⟩
  · intro e he
    rw [h.flow, List.getLast?_map] at he
    obtain ⟨b, hb, rfl⟩ := Option.map_eq_some_iff.mp he
    exact h.last b hb
  · intro k b hb
    obtain ⟨line, step⟩ := h.executed hb
    exact ⟨line, _, step⟩

/-- Whatever operations a new session is asked for, loads that fail and widths that are refused
among them, its parts agree: how far it is with its place in the program, the flow with the lines
in front of that place, the history with the steps that executed them, and the width of the machine
with the setting at the last load, reset or executed step. -/
theorem consistent_after_operations (c : Config) (ops : List Operation) :
    (ofOperations c ops).session = (Session.new c).performAll ops ∧
      Consistent c (ofOperations c ops) :=
  ⟨session_ofOperations c ops, (sound_ofOperations c ops).consistent⟩

end Account

end BusCycle
