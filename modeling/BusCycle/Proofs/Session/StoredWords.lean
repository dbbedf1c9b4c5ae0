-- A word that was stored stays where it is until one of its two cells is written. Until then a load
-- brings it back, whatever segment and offset it forms the address of those cells from, and whatever
-- bus widths are set on the way.
import BusCycle.Proofs.Bus.Bytes
import BusCycle.Proofs.Machine.Jumps
import BusCycle.Proofs.Session.StackDiscipline
import BusCycle.Proofs.Text.Hexadecimal

namespace BusCycle

/-! ## Cells -/

/-- The cells are gone through as they are listed, and not every address there is. -/
instance Memory.decidableDisjoint (cells others : List Address) :
    Decidable (cells.Disjoint others) :=
  decidable_of_iff (cells.all (fun a => !others.contains a) = true) (by simp [List.Disjoint])

namespace Memory

theorem wordCells_eq_of_emod_eq {a b : Int} (h : a % 0x100000 = b % 0x100000) :
    wordCells a = wordCells b := by
  have next : (a + 1) % 0x100000 = (b + 1) % 0x100000 := by omega
  rw [wordCells, wordCells, Address.ofInt_eq_ofInt_iff.mpr h, Address.ofInt_eq_ofInt_iff.mpr next]

/-! ## A word in memory -/

/-- A word lies at an address, with a tag on each of its two bytes. -/
structure HoldsWord (m : Memory) (a : Int) (w : Word) (lowTag highTag : String) : Prop where
  low : m.cell? (.ofInt a) = some ⟨lowByte w, lowTag⟩
  high : m.cell? (.ofInt (a + 1)) = some ⟨highByte w, highTag⟩

theorem holdsWord_writeWord (m : Memory) (a : Int) (w : Word) (lowTag highTag : String) :
    (m.writeWord a w lowTag highTag).HoldsWord a w lowTag highTag := by
  unfold writeWord
  refine ⟨?_, ?_⟩
  · rw [cell?_write, if_neg (ofInt_succ_ne a).symm, cell?_write, if_pos rfl]
  · rw [cell?_write, if_pos rfl]

namespace HoldsWord

variable {m n : Memory} {a b : Int} {w : Word} {lowTag highTag : String}

/-- The word stays as long as nothing is written to its cells. -/
theorem congr (h : m.HoldsWord a w lowTag highTag)
    (same : ∀ b ∈ wordCells a, n.cell? b = m.cell? b) : n.HoldsWord a w lowTag highTag where
  low := (same _ (by simp [wordCells])).trans h.low
  high := (same _ (by simp [wordCells])).trans h.high

/-- Another address of the same cells is as good. -/
theorem of_emod_eq (h : m.HoldsWord a w lowTag highTag) (same : b % 0x100000 = a % 0x100000) :
    m.HoldsWord b w lowTag highTag := by
  have cells := wordCells_eq_of_emod_eq same
  simp only [wordCells, List.cons.injEq, and_true] at cells
  refine ⟨?_, ?_⟩
  · rw [cells.1]
    exact h.low
  · rw [cells.2]
    exact h.high

theorem readWord (h : m.HoldsWord a w lowTag highTag) : m.readWord a = w := by
  simp only [Memory.readWord, read, cellAt, h.low, h.high, Option.getD_some]
  exact wordOf_lowByte_highByte w

theorem tagAt_low (h : m.HoldsWord a w lowTag highTag) : m.tagAt a = lowTag := by
  simp only [tagAt, cellAt, h.low, Option.getD_some]

theorem tagAt_high (h : m.HoldsWord a w lowTag highTag) : m.tagAt (a + 1) = highTag := by
  simp only [tagAt, cellAt, h.high, Option.getD_some]

end HoldsWord

end Memory

/-! ## Lines -/

namespace Machine

variable {m : Machine} {line : String}

/-- The cells that a line pushes its word to, if it pushes one. -/
def cellsPushed (m : Machine) (line : String) : List Address :=
  match Program.stackUse line with
  | .pushes => Memory.wordCells (physicalAddress m.registers.ss.toNat (m.registers.sp - 2).toNat)
  | _ => []

theorem stackTop_runLine (use : Program.stackUse line = .pushes) :
    (m.runLine line).stackTop =
      physicalAddress m.registers.ss.toNat (m.registers.sp - 2).toNat := by
  have keeps : Program.KeepsStack line := by
    intro f hf
    unfold Program.stackUse at use
    rw [hf] at use
    cases f with
    | push _ | pushFlags | call _ => simp [Form.KeepsStack, Form.dest?]
    | _ => cases use
  rw [stackTop, ss_runLine keeps, sp_runLine keeps, use]
  rfl

/-- The fetch moves the instruction pointer only, which gives no place and is no general register. -/
theorem reference_fetched (place : Place) (m : Machine) :
    place.reference (m.fetched line).registers = place.reference m.registers := by
  cases place <;> rfl

theorem general_fetched (r : General) (m : Machine) :
    (m.fetched line).registers.general r = m.registers.general r := by
  cases r <;> rfl

/-- A line that stores a register puts its word where the place says by the registers before it. -/
theorem holdsWord_runLine {place : Place} {src : General}
    (h : Program.form? line = some (.store place src)) (m : Machine) :
    (m.runLine line).memory.HoldsWord (place.reference m.registers).physical
      (m.registers.general src) "Data low" "Data high" := by
  have access : m.lineAccess? line = some (.write (place.reference m.registers)
      (m.registers.general src) "Data low" "Data high") := by
    rw [lineAccess?, h, Option.bind_some, Form.access?, reference_fetched, general_fetched]
  rw [memory_runLine, access]
  exact Memory.holdsWord_writeWord _ _ _ _ _

theorem lineAccess?_of_load {dest : General} {place : Place}
    (h : Program.form? line = some (.load dest place)) (m : Machine) :
    m.lineAccess? line = some (.read (place.reference m.registers)) := by
  rw [lineAccess?, h, Option.bind_some, Form.access?, reference_fetched]

/-- The transfers of a line: its fetch, and then the word that it moves. -/
theorem transfers_runLine {f : Form} (h : Program.form? line = some f) (m : Machine) :
    (m.runLine line).bus.transactions.map Transaction.toTransfer =
      m.codeTransfers (m.codeOf line) ++ (m.fetched line).accessTransfers (m.lineAccess? line) := by
  unfold lineAccess? fetched
  rcases m.runLine_cases line with ⟨-, -, form⟩ | ⟨i, run, code, form⟩
  · rw [form] at h
    cases h
  · rw [run, code, form, transactions_cycle, ← Assembled.form_ofInstruction i m.registers.ip]
    exact Transfer.map_toTransfer_numbered _ _

end Machine

/-! ## Steps -/

namespace Session

/-- The session after a step that finds a bus width set. -/
def stepAt (s : Session) (w : BusWidth) : Session := { s with width := w }.step.2

/-- The session after steps, each of which finds a bus width set. -/
def stepsAt (s : Session) (widths : List BusWidth) : Session := widths.foldl stepAt s

/-- The cells that the next step writes: those of its code, and of a word that it stores or pushes. -/
def cellsWritten (s : Session) : List Address :=
  s.nextLine?.elim [] fun line => s.machine.cellsWritten line ++ s.machine.cellsPushed line

/-- No step writes any of the cells. -/
def StepsSpare (cells : List Address) (s : Session) : List BusWidth → Prop
  | [] => True
  | w :: rest => s.cellsWritten.Disjoint cells ∧ (s.stepAt w).StepsSpare cells rest

instance StepsSpare.decidable (cells : List Address) : (s : Session) → (widths : List BusWidth) →
    Decidable (s.StepsSpare cells widths)
  | _, [] => isTrue trivial
  | s, w :: rest =>
    have := decidable cells (s.stepAt w) rest
    inferInstanceAs (Decidable (_ ∧ _))

/-- What was read over the bus in the last step. -/
def reads (s : Session) : List Transfer :=
  (s.machine.bus.transactions.map Transaction.toTransfer).filter fun t => t.kind = .read

variable {s : Session} {line : String}

/-- A step on a line of a known form executes it. -/
theorem step_of_form? {f : Form} (hl : s.nextLine? = some line) (hf : Program.form? line = some f)
    (w : BusWidth) :
    { s with width := w }.executes = true ∧
      (s.stepAt w).machine = { s.machine with width := w }.runLine line := by
  obtain ⟨i, hi, -⟩ := Program.parse_of_form? hf (s.pc + 1)
  have at_line : { s with width := w }.nextLine? = some line := hl
  have step := step_of_ok at_line hi
  unfold stepAt
  rw [step, Machine.runLine_of_parse hi]
  exact ⟨executes_of_ok (congrArg Prod.fst step), rfl⟩

/-- A cell that the next step does not write stays as it was. -/
theorem cell?_stepAt {b : Address} (apart : b ∉ s.cellsWritten) (w : BusWidth) :
    (s.stepAt w).machine.memory.cell? b = s.machine.memory.cell? b := by
  unfold stepAt
  rcases { s with width := w }.step_cases with hn | ⟨line, e, hl, he⟩ | ⟨line, i, hl, hi⟩
  · rw [step_of_none hn]
  · rw [step_of_error hl he]
  · have ran : ({ s with width := w }.advance line i).machine =
        { s.machine with width := w }.runLine line :=
      (Machine.runLine_of_parse hi { s.machine with width := w }).symm
    have next : s.nextLine? = some line := hl
    rw [cellsWritten, next, Option.elim_some, List.mem_append, not_or] at apart
    rw [step_of_ok hl hi, ran]
    refine Machine.cell?_runLine apart.1 fun pushes => ?_
    have pushed := apart.2
    rw [Machine.cellsPushed, pushes] at pushed
    rw [Machine.stackTop_runLine pushes]
    exact pushed

/-- Cells that no step writes stay as they were. -/
theorem cell?_stepsAt {cells : List Address} {widths : List BusWidth}
    (spared : s.StepsSpare cells widths) {b : Address} (hb : b ∈ cells) :
    (s.stepsAt widths).machine.memory.cell? b = s.machine.memory.cell? b := by
  induction widths generalizing s with
  | nil => rfl
  | cons w rest ih =>
    obtain ⟨now, later⟩ := spared
    exact (ih later).trans (cell?_stepAt (fun written => now written hb) w)

/-- A load of a word that lies in memory brings it to its register, and the word is all that is read
over the bus. -/
theorem load_of_holdsWord {dest : General} {place : Place} {v : Word} {lowTag highTag : String}
    (hl : s.nextLine? = some line) (hf : Program.form? line = some (.load dest place))
    (holds : s.machine.memory.HoldsWord (place.reference s.machine.registers).physical v lowTag
      highTag)
    (apart : (s.machine.codeCells (s.machine.codeOf line)).Disjoint
      (Memory.wordCells (place.reference s.machine.registers).physical)) (w : BusWidth) :
    (s.stepAt w).machine.registers.general dest = v ∧
      (s.stepAt w).reads =
        Transfer.word w .read (place.reference s.machine.registers).physical v lowTag highTag := by
  -- The fetch comes first, and it leaves the word where it is.
  let m : Machine := { s.machine with width := w }
  have still : (m.fetched line).memory.HoldsWord (place.reference s.machine.registers).physical v
      lowTag highTag := by
    refine holds.congr fun b hb => m.cell?_fetch fun code => apart code hb
  have access : m.lineAccess? line = some (.read (place.reference s.machine.registers)) :=
    Machine.lineAccess?_of_load hf m
  obtain ⟨-, machine⟩ := step_of_form? hl hf w
  rw [reads, machine]
  refine ⟨?_, ?_⟩
  · rw [Machine.registers_runLine, hf, access]
    exact (Registers.general_setGeneral_self _ dest _).trans still.readWord
  · have fetched : (m.codeTransfers (m.codeOf line)).filter (fun t => t.kind = .read) = [] := by
      rw [List.filter_eq_nil_iff]
      intro t ht
      rw [kind_of_mem_fetchTransfers ht]
      decide
    have read : (m.fetched line).accessTransfers
          (some (.read (place.reference s.machine.registers))) =
        Transfer.word w .read (place.reference s.machine.registers).physical v lowTag highTag := by
      rw [← still.readWord, ← still.tagAt_low, ← still.tagAt_high]
      rfl
    rw [Machine.transfers_runLine hf, access, List.filter_append, fetched, List.nil_append, read,
      List.filter_eq_self]
    intro t ht
    rw [Transfer.kind_of_mem_word ht]
    rfl

/-- A word that a line stored is read back by a load of its cells, however many steps lie between, as
long as none of them writes those cells, and neither does the code of the load. The load may form the
address in another way; only the lowest twenty bits have to agree. The register gets the word, and the
word is what is read over the bus: at once if the load finds a width of 16, else low byte first. -/
theorem stored_word_is_read_back (s : Session) (w w' : BusWidth) (between : List BusWidth)
    {store load : String} {place place' : Place} {src dest : General}
    (first : s.nextLine? = some store) (stores : Program.form? store = some (.store place src))
    (spared : (s.stepAt w).StepsSpare
      (Memory.wordCells (place.reference s.machine.registers).physical) between) :
    let v := s.machine.registers.general src
    let stored := (place.reference s.machine.registers).physical
    let t := (s.stepAt w).stepsAt between
    let loaded := (place'.reference t.machine.registers).physical
    t.nextLine? = some load → Program.form? load = some (.load dest place') →
      loaded % 0x100000 = stored % 0x100000 →
      (t.machine.codeCells (t.machine.codeOf load)).Disjoint (Memory.wordCells stored) →
      { t with width := w' }.executes = true ∧
        (t.stepAt w').machine.registers.general dest = v ∧
        (t.stepAt w').reads = Transfer.word w' .read loaded v "Data low" "Data high" ∧
        (t.stepAt w').reads.map (·.data) =
          if w'.lines = 16 then [(v.toNat : Int)]
          else [((lowByte v).toNat : Int), ((highByte v).toNat : Int)] := by
  intro v stored t loaded last loads same apart
  have written : (s.stepAt w).machine.memory.HoldsWord stored v "Data low" "Data high" := by
    rw [(step_of_form? first stores w).2]
    exact Machine.holdsWord_runLine stores { s.machine with width := w }
  have kept : t.machine.memory.HoldsWord stored v "Data low" "Data high" :=
    written.congr fun b hb => cell?_stepsAt spared hb
  rw [← Memory.wordCells_eq_of_emod_eq same] at apart
  obtain ⟨register, reads⟩ := load_of_holdsWord last loads (kept.of_emod_eq same) apart w'
  refine ⟨(step_of_form? last loads w').1, register, reads, ?_⟩
  rw [reads]
  unfold Transfer.word
  by_cases wide : w'.lines = 16
  · rw [if_pos wide, if_pos wide]
    simp [Transfer.pair, wordOf_lowByte_highByte]
  · rw [if_neg wide, if_neg wide]
    rfl

/-- A session that is about to store a word just above the last address. The line behind sets another
segment, in which the third one loads the word from address zero. -/
def atTheTop : Session :=
  let s := (new .default).start (.ofInt 8) ["MOV [10H], CX", "MOV DS, BX", "MOV DX, [DI]"]
  { s with machine.registers := { Preset.zeroed.registers with ds := 0xFFFF, cx := 0x1234 } }

/-- The word is read back over a narrow bus, although it was written over a wide one. -/
theorem atTheTop_readBack :
    let t := (atTheTop.stepAt (.ofInt 16)).stepsAt [.ofInt 8]
    (t.stepAt (.ofInt 8)).machine.registers.dx = 0x1234 ∧
      (t.stepAt (.ofInt 8)).reads.map (·.data) = [0x34, 0x12] := by
  have stores : Program.form? "MOV [10H], CX" = some (.store (.literal 0x10) .cx) := by
    decide +kernel
  have loads : Program.form? "MOV DX, [DI]" = some (.load .dx .di) := by decide +kernel
  obtain ⟨-, register, -, read⟩ :=
    stored_word_is_read_back atTheTop (.ofInt 16) (.ofInt 8) [.ofInt 8] rfl stores
      (by decide +kernel) (by decide +kernel) loads (by decide +kernel) (by decide +kernel)
  exact ⟨register, read⟩

end Session

end BusCycle
