-- Values in their ranges. Whatever is asked of a session, and whatever numbers are put straight into
-- its registers on the way, its machine told in whole numbers keeps every value where it belongs.
import BusCycle.Proofs.Machine.Raw
import BusCycle.Proofs.Session.Account

namespace BusCycle

/-! ## Ranges -/

/-- The greatest number that an address comes to: the last segment with the last offset. -/
def greatestAddress : Int := 0x10FFEF

/-- An address that was formed of two words, and all that is shown of it. -/
structure Reference.InRange (r : Reference) : Prop where
  segment : 0 ≤ r.segment ∧ r.segment ≤ 0xFFFF
  offset : 0 ≤ r.offset ∧ r.offset ≤ 0xFFFF
  physical : r.physical = 16 * r.segment + r.offset
  greatest : r.physical ≤ greatestAddress
  overflowed : r.overflowed = true ↔ 0xFFFFF < r.physical
  key : Text.IsHexField 5 r.key (r.physical % 0x100000).toNat

/-- One byte or two, with a tag for each, from a place that an address can come to. -/
structure Transfer.InRange (t : Transfer) : Prop where
  width : t.width = 1 ∨ t.width = 2
  tags : t.tags.length = t.width
  data : 0 ≤ t.data ∧ t.data < 256 ^ t.width
  address : 0 ≤ t.address ∧ t.address ≤ greatestAddress + 1

/-- All values of a machine are in their ranges. -/
structure RawMachine.InRange (k : RawMachine) : Prop where
  registers : ∀ reg, 0 ≤ k.registers reg ∧ k.registers reg ≤ 0xFFFF
  reserved : (k.registers .flags).testBit 1 = true
  memory : ∀ row ∈ k.memory.rows, 0 ≤ row.2.1 ∧ row.2.1 ≤ 0xFF
  transactions : ∀ t ∈ k.transactions, t.toTransfer.InRange
  history : ∀ r ∈ k.history, r.InRange

/-! ## Addresses -/

theorem physicalAddress_words (segment offset : Word) :
    0 ≤ physicalAddress segment.toNat offset.toNat ∧
      physicalAddress segment.toNat offset.toNat ≤ greatestAddress := by
  have := segment.isLt
  have := offset.isLt
  unfold physicalAddress greatestAddress
  omega

/-- An address that was formed of two words is in range. -/
theorem Reference.inRange_of_words {r : Reference} {segment offset : Word}
    (hs : r.segment = segment.toNat) (ho : r.offset = offset.toNat) : r.InRange := by
  have fits := physicalAddress_words segment offset
  have := segment.isLt
  have := offset.isLt
  have digits : (r.physical % 0x100000).toNat = (Address.ofInt r.physical).toNat := by
    have := Address.toNat_ofInt r.physical
    omega
  refine ⟨by omega, by omega, rfl, ?_, decide_eq_true_iff, ?_⟩
  · rw [physical, hs, ho]
    exact fits.2
  · rw [digits]
    exact Address.isHexField_key _

theorem Place.inRange_reference (p : Place) (r : Registers) : (p.reference r).InRange :=
  Reference.inRange_of_words rfl rfl

theorem WordAccess.inRange_place {f : Form} {r : Registers} {a : WordAccess}
    (h : f.access? r = some a) : a.place.InRange := by
  cases f with
  | store dest _ | load _ dest =>
    cases h
    exact dest.inRange_reference r
  | push _ | pop _ | pushFlags | popFlags | call _ | ret =>
    cases h
    exact Reference.inRange_of_words rfl rfl
  | _ => cases h

/-! ## Transfers -/

namespace Transfer

theorem inRange_byte (kind : TransferKind) {a : Int} (b : Byte) (tag : String)
    (h : 0 ≤ a ∧ a ≤ greatestAddress + 1) : (byte kind a b tag).InRange := by
  refine ⟨Or.inl rfl, rfl, ⟨Int.natCast_nonneg _, ?_⟩, h⟩
  have := b.isLt
  simp only [byte]
  omega

theorem inRange_pair (kind : TransferKind) {a : Int} (low high : Byte) (lowTag highTag : String)
    (h : 0 ≤ a ∧ a ≤ greatestAddress + 1) : (pair kind a low high lowTag highTag).InRange := by
  refine ⟨Or.inr rfl, rfl, ⟨Int.natCast_nonneg _, ?_⟩, h⟩
  have := (wordOf low high).isLt
  simp only [pair]
  omega

theorem inRange_word (width : BusWidth) (kind : TransferKind) {a : Int} (w : Word)
    (lowTag highTag : String) (h : 0 ≤ a ∧ a ≤ greatestAddress) {t : Transfer}
    (ht : t ∈ word width kind a w lowTag highTag) : t.InRange := by
  unfold word at ht
  split at ht
  · rw [List.mem_singleton.mp ht]
    exact inRange_pair _ _ _ _ _ (by omega)
  · rcases List.mem_pair.mp ht with rfl | rfl
    · exact inRange_byte _ _ _ (by omega)
    · exact inRange_byte _ _ _ (by omega)

end Transfer

/-- What the transfers of a fetch are made at is the address of a byte of the instruction. -/
theorem inRange_byteTransfers {placed : List (Int × CodeByte)}
    (h : ∀ p ∈ placed, 0 ≤ p.1 ∧ p.1 ≤ greatestAddress) :
    ∀ t ∈ byteTransfers placed, t.InRange := by
  intro t ht
  obtain ⟨p, hp, rfl⟩ := List.mem_map.mp ht
  have := h p hp
  exact Transfer.inRange_byte _ _ _ (by omega)

theorem inRange_pairTransfers {placed : List (Int × CodeByte)}
    (h : ∀ p ∈ placed, 0 ≤ p.1 ∧ p.1 ≤ greatestAddress) :
    ∀ t ∈ pairTransfers placed, t.InRange := by
  induction placed using pairTransfers.induct with
  | case1 => simp [pairTransfers]
  | case2 a b =>
    intro t ht
    have := h (a, b) (by simp)
    rw [List.mem_singleton.mp ht]
    exact Transfer.inRange_byte _ _ _ (by omega)
  | case3 a low b high rest ih =>
    intro t ht
    have := h (a, low) (by simp)
    rcases List.mem_cons.mp ht with rfl | ht
    · exact Transfer.inRange_pair _ _ _ _ _ (by omega)
    · exact ih (fun p hp => h p (by simp [hp])) t ht

namespace Machine

variable {m : Machine}

theorem inRange_codeTransfers (m : Machine) (code : List CodeByte) :
    ∀ t ∈ m.codeTransfers code, t.InRange := by
  have addresses : ∀ p ∈ placedCode m.registers code, 0 ≤ p.1 ∧ p.1 ≤ greatestAddress := by
    intro p hp
    obtain ⟨i, hi, rfl⟩ := List.mem_mapIdx.mp hp
    exact physicalAddress_words _ _
  unfold codeTransfers fetchTransfers
  split
  · exact inRange_byteTransfers addresses
  · exact inRange_pairTransfers addresses

theorem inRange_accessTransfers (m : Machine) {access : Option WordAccess}
    (h : ∀ a ∈ access, a.place.InRange) : ∀ t ∈ m.accessTransfers access, t.InRange := by
  intro t ht
  cases access with
  | none => cases ht
  | some a =>
    have place := h a rfl
    have physical : 0 ≤ a.place.physical ∧ a.place.physical ≤ greatestAddress := by
      have := place.physical
      have := place.segment
      have := place.offset
      exact ⟨by omega, place.greatest⟩
    cases a with
    | read r => exact Transfer.inRange_word _ _ _ _ _ physical ht
    | write r value lowTag highTag => exact Transfer.inRange_word _ _ _ _ _ physical ht

theorem inRange_cycleAccess {a : Assembled} {access : WordAccess}
    (h : m.cycleAccess? a = some access) : access.place.InRange := by
  obtain ⟨f, _, moved⟩ := Option.bind_eq_some_iff.mp h
  exact WordAccess.inRange_place moved

/-- What the log and the history of a machine have is in range. -/
structure InRange (m : Machine) : Prop where
  transactions : ∀ t ∈ m.bus.transactions, t.toTransfer.InRange
  history : ∀ r ∈ m.history, r.InRange

theorem inRange_fresh (file : Registers) (width : BusWidth) : (fresh file width).InRange :=
  ⟨fun _ h => (nomatch h), fun _ h => (nomatch h)⟩

/-- One step keeps the history in range, and its transactions are in range. -/
theorem InRange.cycle (h : m.InRange) (a : Assembled) : (m.cycle a).InRange := by
  refine ⟨?_, ?_⟩
  · intro t ht
    rw [transactions_cycle, List.mem_append] at ht
    rcases ht with before | made
    · exact h.transactions t before
    · have transfer := List.mem_map_of_mem (f := Transaction.toTransfer) made
      rw [Transfer.map_toTransfer_numbered, cycleTransfers, List.mem_append] at transfer
      rcases transfer with code | word
      · exact m.inRange_codeTransfers _ _ code
      · exact inRange_accessTransfers _ (fun _ => inRange_cycleAccess) _ word
  · intro r hr
    rw [history_cycle, List.mem_append, List.mem_cons] at hr
    rcases hr with before | rfl | moved
    · exact h.history r before
    · exact Reference.inRange_of_words rfl rfl
    · obtain ⟨access, found, rfl⟩ := List.mem_map.mp moved
      exact inRange_cycleAccess (Option.mem_toList.mp found)

end Machine

/-- Numbers that show a machine are in range where its log and its history are. -/
theorem RawMachine.Shows.inRange {k : RawMachine} {m : Machine} (h : k.Shows m)
    (inRange : m.InRange) : k.InRange where
  registers reg := by
    rw [h.registers]
    have := (m.registers.get reg).isLt
    omega
  reserved := by
    rw [h.registers]
    exact m.registers.flags.reserved
  memory row listed := by
    rw [h.memory.rows] at listed
    obtain ⟨⟨key, v, tag⟩, _, rfl⟩ := List.mem_map.mp listed
    have := v.isLt
    dsimp only
    omega
  transactions := h.transactions ▸ inRange.transactions
  history := h.history ▸ inRange.history

/-! ## Changes of a session -/

/-- Something that is asked of a session, or a number put straight into a register. -/
inductive Change
  | operation (op : Operation)
  | assign (r : Register) (value : Int)

namespace Session

/-- The session with a number put into a register of its machine, cut to a word. -/
def assign (s : Session) (r : Register) (value : Int) : Session :=
  { s with machine := s.machine.setRegister r (.ofInt 16 value) }

def change (s : Session) : Change → Session
  | .operation op => (s.perform op).2
  | .assign r value => s.assign r value

/-- The session after changes, from the first one to the last one. -/
def changeAll (s : Session) (changes : List Change) : Session := changes.foldl change s

end Session

/-! ## Changes of the numbers -/

namespace RawMachine

/-- The numbers of a machine that the settings want. -/
def ofConfig (c : Config) (width : BusWidth) : RawMachine :=
  .fresh (.load fun reg => ((c.preset.registers.get reg).toNat : Int)) width

/-- The numbers after a step of a session, which says what instruction is next. -/
def step (k : RawMachine) (s : Session) : Except Lapse RawMachine :=
  match s.nextLine? with
  | none => .ok k
  | some line =>
    match Instruction.parse line (s.pc + 1) with
    | .error _ => .ok k
    | .ok i => (k.beginStep s.width).cycle i

def steps (k : RawMachine) (s : Session) : Nat → Except Lapse RawMachine
  | 0 => .ok k
  | count + 1 => do (← k.step s).steps s.step.2 count

/-- The numbers after a change of a session. A run makes as many steps as it has results. -/
def change (k : RawMachine) (s : Session) : Change → Except Lapse RawMachine
  | .operation (.load text width) =>
    match s.load text width with
    | .ok next => .ok (ofConfig s.config next.width)
    | .error _ => .ok k
  | .operation .reset => .ok (ofConfig s.config s.width)
  | .operation .step => k.step s
  | .operation (.run delay limits) => k.steps s (s.run delay limits).results.length
  | .operation (.setWidth _) => .ok k
  | .assign r value => .ok (k.set r value)

def changeAll (k : RawMachine) (s : Session) : List Change → Except Lapse RawMachine
  | [] => .ok k
  | c :: rest => do (← k.change s c).changeAll (s.change c) rest

/-! ## The two together -/

/-- Numbers that show a machine whose log and history are in range. -/
structure Tells (k : RawMachine) (m : Machine) : Prop where
  shows : k.Shows m
  inRange : m.InRange

variable {k : RawMachine} {s : Session}

theorem tells_ofConfig (c : Config) (width : BusWidth) :
    (ofConfig c width).Tells (.fresh c.preset.registers width) :=
  ⟨.fresh (RawRegisters.shows_load _) width, Machine.inRange_fresh _ width⟩

theorem Tells.step (h : k.Tells s.machine) :
    ∃ next, k.step s = .ok next ∧ next.Tells s.step.2.machine := by
  unfold RawMachine.step
  rcases s.step_cases with ended | ⟨line, failure, found, failed⟩ | ⟨line, i, found, read⟩
  · rw [Session.step_of_none ended, ended]
    exact ⟨k, rfl, h⟩
  · rw [Session.step_of_error found failed, found]
    dsimp only
    rw [failed]
    exact ⟨k, rfl, h⟩
  · have begun : { s.machine with width := s.width, bus := s.machine.bus.beginStep }.InRange :=
      ⟨fun _ made => (nomatch made), h.inRange.history⟩
    obtain ⟨next, done, shows⟩ := (h.shows.beginStep s.width).cycle i
    rw [Session.step_of_ok found read, found]
    dsimp only
    rw [read]
    exact ⟨next, done, shows, begun.cycle _⟩

/-- The numbers after the steps of a run show the machine that the run ends with. -/
theorem Tells.steps {pause : Quantity} {limits : RunLimits} {count : Nat} {report : RunReport}
    (loop : s.LoopsTo pause limits count report) (h : k.Tells s.machine) :
    ∃ next, k.steps s report.results.length = .ok next ∧ next.Tells report.session.machine := by
  induction loop generalizing k with
  | cancelled | enough | broken => exact ⟨k, rfl, h⟩
  | last | stuck =>
    obtain ⟨next, done, tells⟩ := h.step
    refine ⟨next, ?_, tells⟩
    show (do (← k.step _).steps _ 0) = _
    rw [done]
    rfl
  | again _ _ _ _ _ _ _ ih =>
    obtain ⟨middle, done, tells⟩ := h.step
    obtain ⟨next, rest, tells⟩ := ih tells
    rw [RunReport.results_after_step]
    refine ⟨next, ?_, tells⟩
    show (do (← k.step _).steps _ _) = _
    rw [done]
    exact rest

theorem Tells.change (h : k.Tells s.machine) (c : Change) :
    ∃ next, k.change s c = .ok next ∧ next.Tells (s.change c).machine := by
  cases c with
  | assign r value =>
    exact ⟨_, rfl, h.shows.set r rfl, h.inRange.transactions, h.inRange.history⟩
  | operation op =>
    cases op with
    | load text width =>
      unfold RawMachine.change Session.change Session.perform
      dsimp only
      rcases hl : s.load text width with e | next
      · exact ⟨k, rfl, h⟩
      · obtain ⟨w, program, _, _, rfl⟩ := Session.start_of_load hl
        exact ⟨_, rfl, tells_ofConfig s.config w⟩
    | reset => exact ⟨_, rfl, tells_ofConfig s.config s.width⟩
    | step => exact h.step
    | run delay limits => exact h.steps (s.loopsTo_run delay limits)
    | setWidth width =>
      unfold RawMachine.change Session.change Session.perform
      dsimp only
      rcases hw : s.setWidth width with e | next
      · exact ⟨k, rfl, h⟩
      · obtain ⟨w, _, rfl⟩ := Session.width_of_setWidth hw
        exact ⟨k, rfl, h⟩

theorem Tells.changeAll (h : k.Tells s.machine) (changes : List Change) :
    ∃ next, k.changeAll s changes = .ok next ∧ next.Tells (s.changeAll changes).machine := by
  induction changes generalizing k s with
  | nil => exact ⟨k, rfl, h⟩
  | cons c rest ih =>
    obtain ⟨middle, done, tells⟩ := h.change c
    obtain ⟨next, others, tells⟩ := ih tells
    refine ⟨next, ?_, tells⟩
    rw [RawMachine.changeAll, done]
    exact others

/-- Whatever is asked of a new session, and whatever numbers are put straight into its registers, the
machine of whole numbers that masks as it goes never comes to a fault, shows the machine of the
session, and has every value in its range. -/
theorem inRange_changeAll (c : Config) (changes : List Change) :
    ∃ k, (ofConfig c c.width).changeAll (.new c) changes = .ok k ∧
      k.Shows ((Session.new c).changeAll changes).machine ∧ k.InRange := by
  obtain ⟨k, done, tells⟩ :=
    Tells.changeAll (s := .new c) (tells_ofConfig c c.width) changes
  exact ⟨k, done, tells.shows, tells.shows.inRange tells.inRange⟩

end RawMachine

end BusCycle
