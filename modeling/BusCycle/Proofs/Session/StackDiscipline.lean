-- Words come off the stack as they went on. In lines that open and close in brackets, each line that
-- pops a word gets the one that the line it closes has pushed, as long as nothing else is written
-- where the words lie; and the stack pointer ends where it began.
import BusCycle.Proofs.Machine.Line

namespace BusCycle

/-! ## Lines and the stack -/

namespace Program

/-- What a line does to the stack. -/
def stackUse (line : String) : StackUse := (form? line).elim .leaves Form.stackUse

/-- Lines in which every line that pops closes one that pushes, if `depth` words are on the stack
already. There are never more than 32768 words on it, which is all that a segment holds. -/
def Bracketed : Nat → List String → Prop
  | depth, [] => depth = 0
  | depth, line :: rest =>
    match stackUse line with
    | .pushes => depth < 32768 ∧ Bracketed (depth + 1) rest
    | .pops => 0 < depth ∧ Bracketed (depth - 1) rest
    | .leaves => Bracketed depth rest

/-- A line whose result, if it stores one, goes neither to `SP` nor to `SS`. -/
def KeepsStack (line : String) : Prop := ∀ f ∈ form? line, f.KeepsStack

instance Bracketed.decidable : (depth : Nat) → (lines : List String) →
    Decidable (Bracketed depth lines)
  | depth, [] => inferInstanceAs (Decidable (depth = 0))
  | depth, line :: rest =>
    have := decidable (depth + 1) rest
    have := decidable (depth - 1) rest
    have := decidable depth rest
    match h : stackUse line with
    | .pushes =>
      decidable_of_iff (depth < 32768 ∧ Bracketed (depth + 1) rest) (by simp [Bracketed, h])
    | .pops => decidable_of_iff (0 < depth ∧ Bracketed (depth - 1) rest) (by simp [Bracketed, h])
    | .leaves => decidable_of_iff (Bracketed depth rest) (by simp [Bracketed, h])

instance (line : String) : Decidable (KeepsStack line) :=
  inferInstanceAs (Decidable (∀ f ∈ form? line, f.KeepsStack))

end Program

namespace Machine

/-- The address that `SS:SP` points at. -/
def stackTop (m : Machine) : Int := physicalAddress m.registers.ss.toNat m.registers.sp.toNat

/-- The word that a line pushes, if it does. A call pushes the address just after itself. -/
def wordPushed (m : Machine) (line : String) : Word :=
  match Program.form? line with
  | some (.push src) => m.registers.general src
  | some .pushFlags => m.registers.flags.word
  | some (.call _) => m.registers.ip + BitVec.ofNat 16 (m.codeOf line).length
  | _ => 0

/-- The word that a line pops, if it does: the one on top of the stack after its fetch. -/
def wordPopped (m : Machine) (line : String) : Word := (m.fetched line).pop.1

/-- The cells that a line writes other than by pushing: its own code, and a word that it moves. -/
def cellsWritten (m : Machine) (line : String) : List Address :=
  m.codeCells (m.codeOf line) ++
    match Program.form? line with
    | some (.store dest _) => Memory.wordCells (dest.reference m.registers).physical
    | _ => []

end Machine

/-- A line that pushed a word, and the machine before it. -/
structure Opening where
  before : Machine
  line : String

namespace Opening

/-- The word that was pushed. -/
def word (o : Opening) : Word := o.before.wordPushed o.line

/-- Where the word lies. -/
def place (o : Opening) : Int := (o.before.runLine o.line).stackTop

end Opening

namespace Machine

/-- The lines whose words are pushed and not yet popped after a line, the last one first. -/
def openAfter (m : Machine) (opened : List Opening) (line : String) : List Opening :=
  match Program.stackUse line with
  | .pushes => ⟨m, line⟩ :: opened
  | .pops => opened.tail
  | .leaves => opened

/-- The same after several lines. -/
def openings (m : Machine) (opened : List Opening) : List String → List Opening
  | [] => opened
  | line :: rest => (m.runLine line).openings (m.openAfter opened line) rest

/-- No line writes over a word that is pushed and not yet popped at that moment, neither with its
code nor with a word that it moves. -/
def SparesStack (m : Machine) (opened : List Opening) : List String → Prop
  | [] => True
  | line :: rest =>
    (∀ o ∈ opened, ∀ a ∈ m.cellsWritten line, a ∉ Memory.wordCells o.place) ∧
      (m.runLine line).SparesStack (m.openAfter opened line) rest

instance SparesStack.decidable : (m : Machine) → (opened : List Opening) → (lines : List String) →
    Decidable (m.SparesStack opened lines)
  | _, _, [] => isTrue trivial
  | m, opened, line :: rest =>
    have := decidable (m.runLine line) (m.openAfter opened line) rest
    -- The cells are gone through as they are listed, and not every address there is.
    have (o : Opening) :
        Decidable (∀ a ∈ m.cellsWritten line, a ∉ Memory.wordCells o.place) :=
      List.decidableBAll _ _
    inferInstanceAs (Decidable (_ ∧ _))

end Machine

/-! ## One line -/

namespace Machine

variable {m : Machine} {line : String}

/-- A line that pushes stores its word where the stack ends after it. -/
theorem lineAccess?_of_pushes (h : Program.stackUse line = .pushes) :
    ∃ r, m.lineAccess? line =
        some (.write r (m.wordPushed line) "Stack low" "Stack high") ∧
      r.physical = (m.runLine line).stackTop := by
  unfold stackTop
  rw [registers_runLine]
  unfold lineAccess? wordPushed
  unfold Program.stackUse at h
  generalize Program.form? line = form at h ⊢
  rcases form with _ | f
  · cases h
  · cases f with
    | push _ | pushFlags | call _ => exact ⟨_, rfl, rfl⟩
    | _ => cases h

/-- Apart from the instruction pointer, the flags and its destination, a line changes no register
but the stack pointer. -/
theorem get_runLine {reg : Register} (dest : ∀ f ∈ Program.form? line, f.dest? ≠ some reg)
    (ip : reg ≠ .ip) (flags : reg ≠ .flags) :
    (m.runLine line).registers.get reg =
      (m.registers.afterUse (Program.stackUse line)).get reg := by
  have moved (use : StackUse) : ((m.fetched line).registers.afterUse use).get reg =
      (m.registers.afterUse use).get reg := (m.registers.afterUse use).get_setIp _ ip
  rw [registers_runLine, ← moved]
  unfold Program.stackUse
  cases h : Program.form? line with
  | none => rfl
  | some f => exact Form.get_registersAfter _ _ (dest f h) ip flags

theorem ss_runLine (keeps : Program.KeepsStack line) :
    (m.runLine line).registers.ss = m.registers.ss :=
  get_runLine (fun f hf => (keeps f hf).2) Register.noConfusion Register.noConfusion

theorem sp_runLine (keeps : Program.KeepsStack line) :
    (m.runLine line).registers.sp = (Program.stackUse line).move m.registers.sp :=
  get_runLine (fun f hf => (keeps f hf).1) Register.noConfusion Register.noConfusion

/-- What a line writes beside its code is the word that it pushes, or a word that it moves. -/
theorem mem_cellsWritten {access : WordAccess} {b : Address} (h : m.lineAccess? line = some access)
    (hb : b ∈ access.written) :
    b ∈ m.cellsWritten line ∨
      Program.stackUse line = .pushes ∧ b ∈ Memory.wordCells (m.runLine line).stackTop := by
  by_cases use : Program.stackUse line = .pushes
  · obtain ⟨r, pushed, top⟩ := lineAccess?_of_pushes (m := m) use
    rw [pushed] at h
    obtain rfl := Option.some.inj h
    rw [WordAccess.written, top] at hb
    exact Or.inr ⟨use, hb⟩
  · left
    unfold cellsWritten
    rw [List.mem_append]
    right
    unfold lineAccess? at h
    unfold Program.stackUse at use
    generalize Program.form? line = form at h use ⊢
    rcases form with _ | f
    · cases h
    · cases f with
      | store dest src =>
        obtain rfl := Option.some.inj h
        exact hb
      | push _ | pushFlags | call _ => exact absurd rfl use
      | load _ _ | pop _ | popFlags | ret =>
        obtain rfl := Option.some.inj h
        cases hb
      | _ => cases h

/-- A cell that a line does not write, and that it does not push to, stays as it was. -/
theorem cell?_runLine {b : Address} (apart : b ∉ m.cellsWritten line)
    (pushed : Program.stackUse line = .pushes →
      b ∉ Memory.wordCells (m.runLine line).stackTop) :
    (m.runLine line).memory.cell? b = m.memory.cell? b := by
  have code : b ∉ m.codeCells (m.codeOf line) := fun h => apart (List.mem_append_left _ h)
  rw [memory_runLine]
  cases h : m.lineAccess? line with
  | none => exact m.cell?_fetch code
  | some access =>
    have word : b ∉ access.written := by
      intro hb
      rcases mem_cellsWritten h hb with hb | ⟨use, hb⟩
      · exact apart hb
      · exact pushed use hb
    exact (access.cell?_memoryAfter _ word).trans (m.cell?_fetch code)

/-- The word that a line pushed lies where the stack ends after it. -/
theorem readWord_of_pushes (h : Program.stackUse line = .pushes) :
    (m.runLine line).memory.readWord (m.runLine line).stackTop = m.wordPushed line := by
  obtain ⟨r, pushed, top⟩ := lineAccess?_of_pushes (m := m) h
  rw [memory_runLine, pushed, ← top]
  exact Memory.readWord_writeWord _ _ _ _ _

end Machine

/-- A form that pops has put a word where it belongs: in its register, in the flags or in the
instruction pointer. -/
def Form.Took (r : Registers) (w : Word) : Form → Prop
  | pop dest => r.general dest = w
  | popFlags => r.flags = .ofWord w
  | ret => r.ip = w
  | _ => True

namespace Machine

theorem pop_fst (m : Machine) : m.pop.1 = m.memory.readWord m.stackTop := rfl

theorem stackTop_fetched (m : Machine) (line : String) :
    (m.fetched line).stackTop = m.stackTop := rfl

/-- The word that a form gets from memory is the one on top of the stack, if it pops. -/
theorem took_registersAfter (m : Machine) (f : Form) :
    f.Took (f.registersAfter m.registers (m.wordRead (f.access? m.registers))) m.pop.1 := by
  cases f with
  | pop dest => exact Registers.general_setGeneral_self _ dest _
  | popFlags | ret => rfl
  | _ => trivial

theorem took_wordPopped {m : Machine} {line : String} {f : Form}
    (h : Program.form? line = some f) :
    f.Took (m.runLine line).registers (m.wordPopped line) := by
  rw [registers_runLine, lineAccess?, h]
  exact took_registersAfter (m.fetched line) f

end Machine

/-! ## Words that lie apart -/

/-- Two words at offsets of one parity in one segment lie in different cells. The high byte of a word
at the end of the segment lies behind it, not at its start. -/
theorem wordCells_disjoint {segment p q : Word} (ne : p ≠ q)
    (parity : p.toNat % 2 = q.toNat % 2) {a : Address}
    (hp : a ∈ Memory.wordCells (physicalAddress segment.toNat p.toNat)) :
    a ∉ Memory.wordCells (physicalAddress segment.toNat q.toNat) := by
  have differ : p.toNat ≠ q.toNat := fun same => ne (BitVec.eq_of_toNat_eq same)
  have := segment.isLt
  have := p.isLt
  have := q.isLt
  have value (x : Int) : ((Address.ofInt x).toNat : Int) = x % 2 ^ 20 := by
    rw [Address.ofInt, BitVec.toNat_ofInt]
    omega
  intro hq
  simp only [Memory.wordCells, List.mem_cons, List.not_mem_nil, or_false, physicalAddress]
    at hp hq
  rcases hp with rfl | rfl <;> rcases hq with same | same <;>
    (have same := congrArg (fun b : Address => (b.toNat : Int)) same
     simp only [value] at same
     omega)

/-! ## Offsets above the stack pointer -/

/-- The offset `n` words above another. -/
def above (p : Word) (n : Nat) : Word := p + BitVec.ofNat 16 (2 * n)

theorem toNat_above (p : Word) (n : Nat) : (above p n).toNat = (p.toNat + 2 * n) % 65536 := by
  simp only [above, BitVec.toNat_add, BitVec.toNat_ofNat, Nat.add_mod_mod]

@[simp] theorem above_zero (p : Word) : above p 0 = p := BitVec.add_zero p

theorem above_add_two (p : Word) (n : Nat) : above (p + 2) n = above p (n + 1) := by
  have two : (2 : Word).toNat = 2 := rfl
  apply BitVec.eq_of_toNat_eq
  rw [toNat_above, toNat_above, BitVec.toNat_add, two]
  omega

theorem above_sub_two (p : Word) (n : Nat) : above (p - 2) (n + 1) = above p n := by
  rw [← above_add_two, BitVec.sub_add_cancel]

/-- A word that is fewer than 32768 words above another is at another offset. -/
theorem ne_above {p : Word} {n : Nat} (pos : 0 < n) (h : n < 32768) : p ≠ above p n := by
  intro same
  have := congrArg BitVec.toNat same
  rw [toNat_above] at this
  omega

theorem parity_above (p : Word) (n : Nat) : p.toNat % 2 = (above p n).toNat % 2 := by
  rw [toNat_above]
  omega

/-! ## What is on the stack -/

/-- The words of openings lie one above the other from the stack pointer up to `bottom`. -/
structure Stacked (m : Machine) (opened : List Opening) (bottom : Word) : Prop where
  depth : opened.length ≤ 32768
  bottom : above m.registers.sp opened.length = bottom
  places : ∀ k o, opened[k]? = some o →
    o.place = physicalAddress m.registers.ss.toNat (above m.registers.sp k).toNat
  words : ∀ o ∈ opened, m.memory.readWord o.place = o.word

namespace Stacked

variable {m : Machine} {opened : List Opening} {bottom : Word} {line : String}

/-- A line that does not write over the words and does not push leaves them where they are. -/
theorem words_runLine (h : Stacked m opened bottom) (use : Program.stackUse line ≠ .pushes)
    (spares : ∀ o ∈ opened, ∀ a ∈ m.cellsWritten line, a ∉ Memory.wordCells o.place) :
    ∀ o ∈ opened, (m.runLine line).memory.readWord o.place = o.word := by
  intro o ho
  rw [← h.words o ho]
  apply Memory.readWord_congr
  intro b hb
  exact Machine.cell?_runLine (fun written => spares o ho b written hb)
    fun pushes => absurd pushes use

theorem leave (h : Stacked m opened bottom) (use : Program.stackUse line = .leaves)
    (keeps : Program.KeepsStack line)
    (spares : ∀ o ∈ opened, ∀ a ∈ m.cellsWritten line, a ∉ Memory.wordCells o.place) :
    Stacked (m.runLine line) opened bottom := by
  have sp := Machine.sp_runLine (m := m) keeps
  rw [use] at sp
  refine ⟨h.depth, ?_, ?_, h.words_runLine (by simp [use]) spares⟩
  · rw [sp]
    exact h.bottom
  · rw [sp, Machine.ss_runLine keeps]
    exact h.places

/-- A line that pops gets the word of the last opening. -/
theorem wordPopped {o : Opening} {rest : List Opening} (h : Stacked m (o :: rest) bottom)
    (spares : ∀ o' ∈ o :: rest, ∀ a ∈ m.cellsWritten line, a ∉ Memory.wordCells o'.place) :
    m.wordPopped line = o.word := by
  have place : o.place = m.stackTop := by
    have := h.places 0 o rfl
    simpa [Machine.stackTop] using this
  rw [Machine.wordPopped, Machine.pop_fst, Machine.stackTop_fetched, ← place,
    ← h.words o (by simp)]
  apply Memory.readWord_congr
  intro b hb
  exact m.cell?_fetch fun code => spares o (by simp) b (List.mem_append_left _ code) hb

theorem pop {o : Opening} {rest : List Opening} (h : Stacked m (o :: rest) bottom)
    (use : Program.stackUse line = .pops) (keeps : Program.KeepsStack line)
    (spares : ∀ o' ∈ o :: rest, ∀ a ∈ m.cellsWritten line, a ∉ Memory.wordCells o'.place) :
    Stacked (m.runLine line) rest bottom := by
  have sp : (m.runLine line).registers.sp = m.registers.sp + 2 := by
    rw [Machine.sp_runLine keeps, use]
    rfl
  have words := h.words_runLine (by simp [use]) spares
  refine ⟨?_, ?_, ?_, fun o' ho' => words o' (by simp [ho'])⟩
  · have := h.depth
    simp only [List.length_cons] at this
    omega
  · rw [sp, above_add_two]
    exact h.bottom
  · intro k o' ho'
    rw [sp, above_add_two, Machine.ss_runLine keeps]
    exact h.places (k + 1) o' ho'

theorem push (h : Stacked m opened bottom) (use : Program.stackUse line = .pushes)
    (keeps : Program.KeepsStack line) (room : opened.length < 32768)
    (spares : ∀ o ∈ opened, ∀ a ∈ m.cellsWritten line, a ∉ Memory.wordCells o.place) :
    Stacked (m.runLine line) (⟨m, line⟩ :: opened) bottom := by
  have sp : (m.runLine line).registers.sp = m.registers.sp - 2 := by
    rw [Machine.sp_runLine keeps, use]
    rfl
  have ss := Machine.ss_runLine (m := m) keeps
  refine ⟨room, ?_, ?_, ?_⟩
  · rw [sp, List.length_cons, above_sub_two]
    exact h.bottom
  · intro k o ho
    cases k with
    | zero =>
      obtain rfl := Option.some.inj ho
      rw [above_zero]
      rfl
    | succ k =>
      rw [sp, above_sub_two, ss]
      exact h.places k o ho
  · intro o ho
    rcases List.mem_cons.mp ho with rfl | ho
    · exact Machine.readWord_of_pushes use
    · rw [← h.words o ho]
      apply Memory.readWord_congr
      intro b hb
      refine Machine.cell?_runLine (fun written => spares o ho b written hb) fun _ top => ?_
      -- Fewer than 32768 words lie between the new word and this one, so they do not meet.
      obtain ⟨k, inside, rfl⟩ := List.getElem_of_mem ho
      rw [h.places k _ (List.getElem?_eq_getElem inside), ← above_sub_two] at hb
      rw [Machine.stackTop, sp, ss] at top
      exact wordCells_disjoint (ne_above (Nat.succ_pos k) (by omega)) (parity_above _ _) top hb

end Stacked

/-! ## Bracketed lines -/

namespace Stacked

variable {m : Machine} {opened : List Opening} {bottom : Word}

/-- From words that are on the stack, bracketed lines take all of them off again, each line that pops
the one that was pushed last. -/
theorem run {lines : List String} (h : Stacked m opened bottom)
    (bracketed : Program.Bracketed opened.length lines)
    (keeps : ∀ line ∈ lines, Program.KeepsStack line) (spares : m.SparesStack opened lines) :
    (m.runLines lines).registers.sp = bottom ∧
      ∀ before line after, lines = before ++ line :: after → Program.stackUse line = .pops →
        ∃ o rest, m.openings opened before = o :: rest ∧
          (m.runLines before).wordPopped line = o.word := by
  -- By the lines. What one line does to the stack keeps the words that are on it in their places.
  induction lines generalizing m opened with
  | nil =>
    have empty : opened.length = 0 := bracketed
    refine ⟨?_, fun before line after split => ?_⟩
    · rw [← h.bottom, empty, above_zero]
      rfl
    · cases before <;> cases split
  | cons first others ih =>
    obtain ⟨now, later⟩ := spares
    have keeps₁ := keeps first (by simp)
    have keeps₂ : ∀ line ∈ others, Program.KeepsStack line := fun line hl => keeps line (by simp [hl])
    -- The first line of all, if it pops, and the lines behind it.
    suffices (m.runLines (first :: others)).registers.sp = bottom ∧
        (Program.stackUse first = .pops →
          ∃ o rest, opened = o :: rest ∧ m.wordPopped first = o.word) ∧
        ∀ before line after, others = before ++ line :: after → Program.stackUse line = .pops →
          ∃ o rest, (m.runLine first).openings (m.openAfter opened first) before = o :: rest ∧
            ((m.runLine first).runLines before).wordPopped line = o.word by
      obtain ⟨sp, here, there⟩ := this
      refine ⟨sp, fun before line after split pops => ?_⟩
      cases before with
      | nil =>
        obtain ⟨rfl, rfl⟩ := List.cons.inj split
        exact here pops
      | cons l before =>
        obtain ⟨rfl, rest⟩ := List.cons.inj split
        exact there before line after rest pops
    unfold Program.Bracketed at bracketed
    cases use : Program.stackUse first with
    | pushes =>
      rw [use] at bracketed
      have opens : m.openAfter opened first = ⟨m, first⟩ :: opened := by
        rw [Machine.openAfter, use]
      rw [opens] at later ⊢
      have next := ih (h.push use keeps₁ bracketed.1 now) bracketed.2 keeps₂ later
      exact ⟨next.1, fun pops => StackUse.noConfusion pops, next.2⟩
    | pops =>
      rw [use] at bracketed
      cases opened with
      | nil => exact absurd bracketed.1 (Nat.lt_irrefl 0)
      | cons o rest =>
        have closes : m.openAfter (o :: rest) first = rest := by
          rw [Machine.openAfter, use]
          rfl
        rw [closes] at later ⊢
        have next := ih (h.pop use keeps₁ now) bracketed.2 keeps₂ later
        exact ⟨next.1, fun _ => ⟨o, rest, rfl, h.wordPopped now⟩, next.2⟩
    | leaves =>
      rw [use] at bracketed
      have same : m.openAfter opened first = opened := by
        rw [Machine.openAfter, use]
      rw [same] at later ⊢
      have next := ih (h.leave use keeps₁ now) bracketed keeps₂ later
      exact ⟨next.1, fun pops => StackUse.noConfusion pops, next.2⟩

end Stacked

namespace Machine

/-- In bracketed lines that write neither `SP` nor `SS` themselves and that spare the words on the
stack, the stack pointer ends where it began, and each line that pops a word gets the one that the
line it closes has pushed: a register or the flags receive it, and a return that closes a call goes
to the address just after the call. -/
theorem pops_match_pushes (m : Machine) (lines : List String)
    (bracketed : Program.Bracketed 0 lines)
    (keeps : ∀ line ∈ lines, Program.KeepsStack line) (spares : m.SparesStack [] lines) :
    (m.runLines lines).registers.sp = m.registers.sp ∧
      ∀ before line after, lines = before ++ line :: after → Program.stackUse line = .pops →
        ∃ o rest, m.openings [] before = o :: rest ∧
          (m.runLines before).wordPopped line = o.word ∧
          (∀ f ∈ Program.form? line, f.Took ((m.runLines before).runLine line).registers o.word) ∧
          ∀ target, Program.form? o.line = some (.call target) →
            Program.form? line = some .ret →
              ((m.runLines before).runLine line).registers.ip =
                o.before.registers.ip + BitVec.ofNat 16 (o.before.codeOf o.line).length := by
  have start : Stacked m [] m.registers.sp :=
    ⟨Nat.zero_le _, above_zero _, fun k o ho => by simp at ho, fun o ho => by simp at ho⟩
  obtain ⟨sp, matched⟩ := start.run bracketed keeps spares
  refine ⟨sp, fun before line after split pops => ?_⟩
  obtain ⟨o, rest, opened, word⟩ := matched before line after split pops
  have took : ∀ f ∈ Program.form? line,
      f.Took ((m.runLines before).runLine line).registers o.word := by
    intro f hf
    rw [← word]
    exact took_wordPopped hf
  refine ⟨o, rest, opened, word, took, fun target calls returns => ?_⟩
  have pushed : o.word =
      o.before.registers.ip + BitVec.ofNat 16 (o.before.codeOf o.line).length := by
    simp only [Opening.word, wordPushed, calls]
  rw [← pushed]
  exact took .ret returns

/-- A call, and inside of it the flags on their way to a register. -/
def callAndReturn : List String := ["CALL 0300H", "PUSHF", "POP BX", "RET"]

/-- The return leads behind the call, and the stack is as it was. -/
theorem callAndReturn_pops :
    let m := fresh Preset.zeroed.registers (.ofInt 8)
    (m.runLines callAndReturn).registers.sp = 0xFFFE ∧
      (m.runLines callAndReturn).registers.ip = 0x0103 := by
  obtain ⟨sp, matched⟩ := pops_match_pushes (fresh Preset.zeroed.registers (.ofInt 8)) callAndReturn
    (by decide +kernel) (by decide +kernel) (by decide +kernel)
  obtain ⟨o, rest, opened, -, -, returned⟩ :=
    matched ["CALL 0300H", "PUSHF", "POP BX"] "RET" [] rfl (by decide +kernel)
  obtain rfl := (List.cons.inj opened).1
  refine ⟨sp, (returned 0x300 (by decide +kernel) (by decide +kernel)).trans ?_⟩
  decide +kernel

end Machine

end BusCycle
