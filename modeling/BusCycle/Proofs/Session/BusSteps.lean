-- Bus steps are accounted for. Each executed line takes up as many as its code and its word need on
-- the bus of its step, each step goes on where the one before it ended, and so every number from one
-- on is used by one phase of one transaction.
import BusCycle.Proofs.Bus.Replay
import BusCycle.Proofs.Session.Consistency
import Mathlib.Data.Int.Range

namespace BusCycle

/-! ## Numbers of transactions -/

/-- The bus steps of the two phases of a transaction. -/
def Transaction.phases (t : Transaction) : List Int := [t.step, t.dataStep]

/-- Numbers that go on where others ended. -/
theorem range_append_range {first middle last : Int} (h₁ : first ≤ middle) (h₂ : middle ≤ last) :
    Int.range first middle ++ Int.range middle last = Int.range first last := by
  have lengths : (last - first).toNat = (middle - first).toNat + (last - middle).toNat := by omega
  unfold Int.range
  rw [lengths, List.range_add, List.map_append, List.map_map]
  congr 1
  apply List.map_congr_left
  intro k _
  simp only [Function.comp_apply, Int.natCast_add]
  omega

namespace Transfer

theorem length_numbered (step : Int) (ts : List Transfer) :
    (numbered step ts).length = ts.length := by
  induction ts generalizing step with
  | nil => rfl
  | cons t ts ih => simp only [numbered, List.length_cons, ih]

theorem step_of_getElem?_numbered {step : Int} {ts : List Transfer} {j : Nat} {t : Transaction}
    (h : (numbered step ts)[j]? = some t) : t.step = step + 2 * j := by
  induction ts generalizing step j with
  | nil => simp at h
  | cons u us ih =>
    cases j with
    | zero =>
      simp only [numbered, List.getElem?_cons_zero, Option.some.injEq] at h
      subst h
      simp
    | succ j =>
      have := ih h
      push_cast
      omega

/-- The phases of numbered transfers take every number from the first one on. -/
theorem phases_numbered (step : Int) (ts : List Transfer) :
    (numbered step ts).flatMap Transaction.phases = Int.range step (step + 2 * ts.length) := by
  induction ts generalizing step with
  | nil => simp [Int.range]
  | cons t ts ih =>
    have pair : Int.range step (step + 2) = [step, step + 1] := by
      simp [Int.range, List.range_succ]
    have goes_on : step + 2 * ((t :: ts).length : Int) = step + 2 + 2 * ts.length := by
      simp only [List.length_cons, Int.natCast_succ]
      omega
    rw [numbered, List.flatMap_cons, ih, goes_on,
      ← range_append_range (by omega : step ≤ step + 2) (by omega), pair]
    rfl

end Transfer

/-! ## How many transfers there are -/

@[simp] theorem length_placedCode (r : Registers) (code : List CodeByte) :
    (placedCode r code).length = code.length :=
  List.length_mapIdx

theorem length_pairTransfers (placed : List (Int × CodeByte)) :
    (pairTransfers placed).length = (placed.length + 1) / 2 := by
  induction placed using pairTransfers.induct with
  | case1 => rfl
  | case2 => simp [pairTransfers]
  | case3 _ _ _ _ rest ih =>
    simp only [pairTransfers, List.length_cons, ih]
    omega

theorem length_fetchTransfers (width : BusWidth) (placed : List (Int × CodeByte)) :
    (fetchTransfers width placed).length =
      if width.lines = 8 then placed.length else (placed.length + 1) / 2 := by
  unfold fetchTransfers
  split
  · exact List.length_map _
  · exact length_pairTransfers placed

theorem Transfer.length_word (width : BusWidth) (kind : TransferKind) (address : Int) (value : Word)
    (lowTag highTag : String) :
    (word width kind address value lowTag highTag).length = if width.lines = 16 then 1 else 2 := by
  unfold word
  split <;> rfl

theorem WordAccess.length_transfers (access : WordAccess) (width : BusWidth) (m : Memory) :
    (access.transfers width m).length = if width.lines = 16 then 1 else 2 := by
  cases access with
  | read => exact Transfer.length_word ..
  | write => exact Transfer.length_word ..

namespace Machine

theorem length_accessTransfers (m : Machine) (access : Option WordAccess) :
    (m.accessTransfers access).length =
      (if m.width.lines = 16 then 1 else 2) * access.toList.length := by
  cases access with
  | none => rfl
  | some access => exact (access.length_transfers m.width m.memory).trans (Nat.mul_one _).symm

/-- The transfers of a cycle: so many for its code, and so many for a word. -/
theorem length_cycleTransfers (m : Machine) (a : Assembled) :
    (m.cycleTransfers a).length =
      (if m.width.lines = 8 then a.code.length else (a.code.length + 1) / 2) +
        (if m.width.lines = 16 then 1 else 2) * (m.cycleAccess? a).toList.length := by
  unfold cycleTransfers codeTransfers
  rw [List.length_append, length_fetchTransfers, length_placedCode, length_accessTransfers]
  rfl

theorem step_cycle (m : Machine) (a : Assembled) :
    (m.cycle a).bus.step = m.bus.step + 2 * (m.cycleTransfers a).length := by
  have executed := ((m.fetch a.code).did_execute a).busStep
  rw [step_fetch] at executed
  unfold cycleTransfers
  rw [List.length_append, Int.natCast_add, Int.mul_add, ← Int.add_assoc]
  exact executed

end Machine

/-! ## One step -/

namespace Program

/-- The number of words that the instruction on a line moves. -/
def wordsMoved (line : String) : Nat := if MovesWord line then 1 else 0

end Program

theorem Machine.length_lineAccess? (m : Machine) (line : String) :
    (m.lineAccess? line).toList.length = Program.wordsMoved line := by
  have moves := m.isSome_lineAccess?_iff line
  unfold Program.wordsMoved
  cases h : m.lineAccess? line with
  | none =>
    rw [h] at moves
    rw [if_neg (by simpa using moves)]
    rfl
  | some access =>
    rw [h] at moves
    rw [if_pos (moves.mp rfl)]
    rfl

/-- An entry of the flow is of the line that was next in a session, and it counts the bus steps of the
step that began there: those that its code and its word need on the bus that was set, two for each
transaction that it made, and these are numbered in turn. -/
structure FlowEntry.Counts (e : FlowEntry) (b : Session) : Prop where
  line : e.instruction = b.line
  narrow : b.width.lines = 8 → e.stepEnd - e.stepStart =
    2 * ((b.machine.codeOf b.line).length + 2 * Program.wordsMoved b.line : Nat)
  wide : b.width.lines = 16 → e.stepEnd - e.stepStart =
    2 * (((b.machine.codeOf b.line).length + 1) / 2 + Program.wordsMoved b.line : Nat)
  made : 2 * (b.step.2.machine.bus.transactions.length : Int) = e.stepEnd - e.stepStart
  numbered : ∀ (j : Nat) (t : Transaction), b.step.2.machine.bus.transactions[j]? = some t →
    t.step = e.stepStart + 2 * j ∧ t.dataStep = t.step + 1

namespace Session

variable {s : Session} {line : String} {i : Instruction}

theorem step_advance (s : Session) (line : String) (i : Instruction) :
    (s.advance line i).machine.bus.step =
      s.machine.bus.step + 2 * (s.ready.cycleTransfers (s.assemble i)).length :=
  s.ready.step_cycle (s.assemble i)

/-- The transfers of an executed step, by the code of its line and by the word that it moves. -/
theorem length_transfers_of_parse (hi : Instruction.parse line (s.pc + 1) = .ok i) :
    (s.ready.cycleTransfers (s.assemble i)).length =
      (if s.width.lines = 8 then (s.machine.codeOf line).length
        else ((s.machine.codeOf line).length + 1) / 2) +
        (if s.width.lines = 16 then 1 else 2) * Program.wordsMoved line := by
  have code : s.machine.codeOf line = (s.assemble i).code := Machine.codeOf_of_parse hi s.machine
  have moved : s.machine.lineAccess? line = s.ready.cycleAccess? (s.assemble i) :=
    Machine.lineAccess?_of_parse hi s.ready
  rw [Machine.length_cycleTransfers, code, ← s.machine.length_lineAccess? line, moved]
  rfl

/-- The entry of an executed step counts its bus steps. -/
theorem counts_entry (executes : s.executes = true) : s.entry.Counts s := by
  obtain ⟨line, i, hl, hi⟩ := line_of_executes executes
  have transfers := length_transfers_of_parse hi
  have ends := s.step_advance line i
  have made := s.transactions_advance line i
  have after : s.step.2 = s.advance line i := by rw [step_of_ok hl hi]
  have span : s.entry.stepEnd - s.entry.stepStart =
      2 * ((s.ready.cycleTransfers (s.assemble i)).length : Int) := by
    simp only [entry, after]
    omega
  refine ⟨rfl, ?_, ?_, ?_, ?_⟩
  · intro narrow
    rw [span, transfers, line_of_nextLine? hl, narrow]
    simp
  · intro wide
    rw [span, transfers, line_of_nextLine? hl, wide]
    simp
  · rw [span, after, made, Transfer.length_numbered]
  · intro j t ht
    rw [after, made] at ht
    exact ⟨Transfer.step_of_getElem?_numbered ht, rfl⟩

/-- The phases of an executed step take every bus step from where it starts to where it ends. -/
theorem phases_advance (s : Session) (line : String) (i : Instruction) :
    (s.advance line i).machine.bus.transactions.flatMap Transaction.phases =
      Int.range s.machine.bus.step (s.advance line i).machine.bus.step := by
  rw [transactions_advance, step_advance]
  exact Transfer.phases_numbered _ _

end Session

/-! ## All steps -/

namespace Account

/-- The bus steps at which executed steps ended are those at which the next ones began, from one on
to where the session stands, and their phases take all of them. -/
structure Linked (a : Account) : Prop where
  positive : 1 ≤ a.session.machine.bus.step
  ends : 1 :: a.begun.map (·.step.2.machine.bus.step) =
    a.begun.map (·.machine.bus.step) ++ [a.session.machine.bus.step]
  phases : (a.begun.flatMap fun b =>
      b.step.2.machine.bus.transactions.flatMap Transaction.phases) =
    Int.range 1 a.session.machine.bus.step

theorem kept_linked : Kept Linked where
  start _ _ _ _ _ _ := ⟨le_refl 1, rfl, rfl⟩
  reset _ _ := ⟨le_refl 1, rfl, rfl⟩
  advance a line i h hl hi := by
    have after : a.session.step.2 = a.session.advance line i := by
      rw [Session.step_of_ok hl hi]
    have later : a.session.machine.bus.step ≤ (a.session.advance line i).machine.bus.step := by
      rw [Session.step_advance]
      omega
    refine ⟨h.positive.trans later, ?_, ?_⟩
    · rw [List.map_append, List.map_append, ← List.cons_append, h.ends, List.map_singleton, after]
      rfl
    · rw [List.flatMap_append, h.phases, List.flatMap_singleton, after,
        a.session.phases_advance line i]
      exact range_append_range h.positive later
  setWidth _ _ h _ := ⟨h.positive, h.ends, h.phases⟩

theorem linked_ofOperations (c : Config) (ops : List Operation) : Linked (ofOperations c ops) :=
  kept_linked.ofOperations ⟨le_refl 1, rfl, rfl⟩ ops

/-- Every step began with one of the two widths set. -/
theorem isOffered_width_of_begun {c : Config} (accepted : c.Accepted) (ops : List Operation) :
    ∀ b ∈ (ofOperations c ops).begun, b.width.IsOffered := by
  have kept : Kept fun a => a.session.width.IsOffered ∧ ∀ b ∈ a.begun, b.width.IsOffered := by
    refine ⟨?_, ?_, ?_, ?_⟩
    · intro a w _ h _ offered
      refine ⟨?_, fun b hb => by simp at hb⟩
      rcases offered with rfl | offered
      · exact h.1
      · exact offered
    · intro a h
      exact ⟨h.1, fun b hb => by simp at hb⟩
    · intro a line i h _ _
      refine ⟨h.1, fun b hb => ?_⟩
      rcases List.mem_append.mp hb with hb | hb
      · exact h.2 b hb
      · obtain rfl := List.mem_singleton.mp hb
        exact h.1
    · intro a w h offered
      exact ⟨offered, h.2⟩
  exact (kept.ofOperations ⟨accepted.isOffered_width, fun b hb => by simp [opening] at hb⟩ ops).2

/-! ## The flow -/

/-- The entries of the flow count the bus steps of their steps, each goes on where the one before it
ends, and the phases of all transactions that were made take every bus step once, in order. -/
structure Counted (a : Account) : Prop where
  flow_length : a.session.flow.length = a.session.pc
  begun_length : a.begun.length = a.session.flow.length
  counts : ∀ (k : Nat) (e : FlowEntry) (b : Session), a.session.flow[k]? = some e →
    a.begun[k]? = some b → e.Counts b
  first : ∀ e : FlowEntry, a.session.flow[0]? = some e → e.stepStart = 1
  next : ∀ (k : Nat) (e e' : FlowEntry), a.session.flow[k]? = some e →
    a.session.flow[k + 1]? = some e' → e'.stepStart = e.stepEnd
  last : a.session.machine.bus.step = a.session.flow.getLast?.elim 1 FlowEntry.stepEnd
  phases : (a.begun.flatMap fun b =>
      b.step.2.machine.bus.transactions.flatMap Transaction.phases) =
    Int.range 1 a.session.machine.bus.step

theorem counted_of_linked {c : Config} {a : Account} (sound : Sound c a) (linked : Linked a) :
    Counted a := by
  have starts : a.session.flow.map FlowEntry.stepStart = a.begun.map (·.machine.bus.step) := by
    rw [sound.flow, List.map_map]
    rfl
  have stops : a.session.flow.map FlowEntry.stepEnd = a.begun.map (·.step.2.machine.bus.step) := by
    rw [sound.flow, List.map_map]
    rfl
  have ends := linked.ends
  rw [← starts, ← stops] at ends
  have start (k : Nat) (e : FlowEntry) (he : a.session.flow[k]? = some e) :
      (1 :: a.session.flow.map FlowEntry.stepEnd)[k]? = some e.stepStart := by
    obtain ⟨inside, -⟩ := List.getElem?_eq_some_iff.mp he
    rw [ends, List.getElem?_append_left (by simpa using inside), List.getElem?_map, he]
    rfl
  refine ⟨?_, ?_, ?_, ?_, ?_, ?_, linked.phases⟩
  · rw [sound.flow, List.length_map, sound.count]
  · rw [sound.flow, List.length_map]
  · intro k e b he hb
    rw [sound.flow, List.getElem?_map, hb] at he
    obtain rfl := Option.some.inj he
    exact Session.counts_entry (sound.began k b hb).2.2
  · intro e he
    have first := start 0 e he
    exact (Option.some.inj first).symm
  · intro k e e' he he'
    have next := start (k + 1) e' he'
    rw [List.getElem?_cons_succ, List.getElem?_map, he] at next
    exact (Option.some.inj next).symm
  · have last := congrArg List.getLast? ends
    rw [List.getLast?_cons, List.getLast?_concat, List.getLast?_map] at last
    rw [← Option.some.inj last]
    cases a.session.flow.getLast? with
    | none => rfl
    | some e => rfl

/-- Whatever operations a new session is asked for, its bus steps add up. Those of an executed line
are told by its code, by the word that it moves and by the width that was set when its step began,
which is one of the two; and neither a step that executes no line nor a load that fails uses any. -/
theorem bus_steps_add_up (c : Config) (ops : List Operation) :
    let a := ofOperations c ops
    a.session = (Session.new c).performAll ops ∧ Counted a ∧
      (c.Accepted → ∀ b ∈ a.begun, b.width.IsOffered) ∧
      (a.session.executes = false → a.session.step.2 = a.session) ∧
      ∀ text width e, a.session.load text width = .error e →
        (a.session.perform (.load text width)).2 = a.session := by
  refine ⟨session_ofOperations c ops,
    counted_of_linked (sound_ofOperations c ops) (linked_ofOperations c ops),
    fun accepted => isOffered_width_of_begun accepted ops, Session.step_of_not_executes, ?_⟩
  intro text width e failed
  rw [Session.perform, failed]

/-- One byte on a bus of 16 lines, then one byte and a word on a bus of 8. -/
example :
    ((Session.new .default).performAll [.load "NOP\nPUSH AX" none, .step,
      .setWidth (.number (.whole 8)), .step]).flow.map (fun e => (e.stepStart, e.stepEnd)) =
        [(1, 3), (3, 9)] := by
  decide +kernel

end Account

end BusCycle
