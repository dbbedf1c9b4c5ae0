-- What a cycle leaves alone. A cell that neither the code nor the word of the cycle goes to keeps its
-- byte and its tag, and of the registers that make up the top of the stack only the stack pointer
-- moves, by what the form does to the stack.
import BusCycle.Proofs.Machine.Effect

namespace BusCycle

theorem Assembled.form_ofInstruction (i : Instruction) (ip : Word) :
    (ofInstruction i ip).form = Form.ofInstruction? i := by
  unfold ofInstruction
  cases Form.ofInstruction? i with
  | none => rfl
  | some f => rfl

/-! ## Memory -/

namespace Memory

theorem cell?_write (m : Memory) (a : Int) (b : Address) (v : Byte) (tag : String) :
    (m.write a v tag).cell? b = if b = Address.ofInt a then some ⟨v, tag⟩ else m.cell? b :=
  m.cell?_put _ b _

/-- The two cells that a word at an address takes. -/
def wordCells (a : Int) : List Address := [.ofInt a, .ofInt (a + 1)]

theorem cell?_writeWord_of_not_mem (m : Memory) {a : Int} {b : Address} (w : Word)
    (lowTag highTag : String) (h : b ∉ wordCells a) :
    (m.writeWord a w lowTag highTag).cell? b = m.cell? b := by
  simp only [wordCells, List.mem_cons, List.not_mem_nil, or_false, not_or] at h
  unfold writeWord
  rw [cell?_write, if_neg h.2, cell?_write, if_neg h.1]

/-- A word is made of the bytes of its two cells. -/
theorem readWord_congr {m n : Memory} {a : Int}
    (h : ∀ b ∈ wordCells a, m.cell? b = n.cell? b) : m.readWord a = n.readWord a := by
  have low := h (.ofInt a) (by simp [wordCells])
  have high := h (.ofInt (a + 1)) (by simp [wordCells])
  simp only [readWord, read, cellAt, low, high]

theorem ofInt_succ_ne (a : Int) : Address.ofInt (a + 1) ≠ Address.ofInt a := by
  intro same
  have := congrArg BitVec.toNat same
  simp only [Address.ofInt, BitVec.toNat_ofInt] at this
  omega

/-- A word that was written is read back. -/
theorem readWord_writeWord (m : Memory) (a : Int) (w : Word) (lowTag highTag : String) :
    (m.writeWord a w lowTag highTag).readWord a = w := by
  have low : (m.writeWord a w lowTag highTag).read a = lowByte w := by
    simp only [writeWord, read, cellAt, cell?_write, if_neg (ofInt_succ_ne a).symm, if_true,
      Option.getD_some]
  have high : (m.writeWord a w lowTag highTag).read (a + 1) = highByte w := by
    simp only [writeWord, read, cellAt, cell?_write, if_true, Option.getD_some]
  rw [readWord, low, high, wordOf_lowByte_highByte]

theorem cell?_writeCode_of_not_mem (m : Memory) {placed : List (Int × CodeByte)} {b : Address}
    (h : ∀ p ∈ placed, b ≠ Address.ofInt p.1) : (m.writeCode placed).cell? b = m.cell? b := by
  induction placed generalizing m with
  | nil => rfl
  | cons p rest ih =>
    have first : b ≠ Address.ofInt p.1 := h p (by simp)
    have later := ih (m.write p.1 p.2.value p.2.tag) fun q hq => h q (by simp [hq])
    rw [cell?_write, if_neg first] at later
    exact later

end Memory

/-- The cells that an access writes. -/
def WordAccess.written : WordAccess → List Address
  | read _ => []
  | write r .. => Memory.wordCells r.physical

theorem WordAccess.cell?_memoryAfter (a : WordAccess) (m : Memory) {b : Address}
    (h : b ∉ a.written) : (a.memoryAfter m).cell? b = m.cell? b := by
  cases a with
  | read r => rfl
  | write r value lowTag highTag => exact m.cell?_writeWord_of_not_mem value lowTag highTag h

namespace Machine

/-- The cells that machine code goes to. -/
def codeCells (m : Machine) (code : List CodeByte) : List Address :=
  (placedCode m.registers code).map fun p => .ofInt p.1

theorem cell?_fetch (m : Machine) {code : List CodeByte} {b : Address}
    (h : b ∉ m.codeCells code) : (m.fetch code).memory.cell? b = m.memory.cell? b := by
  apply Memory.cell?_writeCode_of_not_mem
  rintro p hp rfl
  exact h (List.mem_map_of_mem hp)

end Machine

/-! ## Registers -/

/-- What a form does to the stack. -/
inductive StackUse
  | pushes
  | pops
  | leaves
  deriving DecidableEq

namespace Form

def stackUse : Form → StackUse
  | push _ | pushFlags | call _ => .pushes
  | pop _ | popFlags | ret => .pops
  | _ => .leaves

/-- The general or segment register that a form stores its result in. -/
def dest? : Form → Option Register
  | moveImmediate dest _ | move dest _ | storeSegment dest _ | load dest _ | unary _ dest
  | pop dest => some (.general dest)
  | loadSegment dest _ => some (.segment dest.segment)
  | binary op dest _ | binaryImmediate op dest _ => if op.stores then some (.general dest) else none
  | loop _ => some (.general .cx)
  | _ => none

/-- A form that does not store its result in a register of the stack. -/
def KeepsStack (f : Form) : Prop :=
  f.dest? ≠ some (.general .sp) ∧ f.dest? ≠ some (.segment .ss)

instance (f : Form) : Decidable f.KeepsStack := inferInstanceAs (Decidable (_ ∧ _))

end Form

/-- The stack pointer after it was used. -/
def StackUse.move : StackUse → Word → Word
  | pushes, sp => sp - 2
  | pops, sp => sp + 2
  | leaves, sp => sp

namespace Registers

theorem get_setGeneral (r : Registers) (g : General) (w : Word) (reg : Register) :
    (r.setGeneral g w).get reg = if reg = .general g then w else r.get reg := by
  cases reg with
  | general h =>
    by_cases same : h = g
    · subst h
      simp [get]
    · simp [get, same, general_setGeneral_of_ne r w same]
  | segment s => cases g <;> rfl
  | ip => cases g <;> rfl
  | flags => cases g <;> rfl

theorem get_setSegment (r : Registers) (s : Segment) (w : Word) (reg : Register) :
    (r.setSegment s w).get reg = if reg = .segment s then w else r.get reg := by
  cases reg with
  | general h => cases s <;> rfl
  | segment t => cases s <;> cases t <;> rfl
  | ip => cases s <;> rfl
  | flags => cases s <;> rfl

theorem get_setIp {reg : Register} (r : Registers) (w : Word) (ne : reg ≠ .ip) :
    { r with ip := w }.get reg = r.get reg := by
  cases reg with
  | ip => exact absurd rfl ne
  | general g => cases g <;> rfl
  | segment s => cases s <;> rfl
  | flags => rfl

theorem get_setFlags {reg : Register} (r : Registers) (f : Flags) (ne : reg ≠ .flags) :
    { r with flags := f }.get reg = r.get reg := by
  cases reg with
  | flags => exact absurd rfl ne
  | general g => cases g <;> rfl
  | segment s => cases s <;> rfl
  | ip => rfl

/-- The registers after the stack pointer was moved. -/
def afterUse (r : Registers) (use : StackUse) : Registers := { r with sp := use.move r.sp }

theorem get_afterBinary {reg : Register} (r : Registers) {op : BinaryOp} {dest : General}
    (right : Word) (flags : reg ≠ .flags) (h : op.stores = true → reg ≠ .general dest) :
    (r.afterBinary op dest right).get reg = r.get reg := by
  have kept := r.get_setFlags (r.flags.setZeroSign (flagsOfResult (op.apply (r.general dest) right)))
    flags
  unfold afterBinary
  dsimp only
  split
  · rw [get_setGeneral, if_neg (h ‹_›)]
    exact kept
  · exact kept

theorem get_afterLoop {reg : Register} (r : Registers) (target : Word) (ip : reg ≠ .ip)
    (cx : reg ≠ .general .cx) : (r.afterLoop target).get reg = r.get reg := by
  have kept : (r.setGeneral .cx (r.cx - 1)).get reg = r.get reg := by
    rw [get_setGeneral, if_neg cx]
  unfold afterLoop
  dsimp only
  split
  · exact kept
  · exact (get_setIp _ target ip).trans kept

end Registers

/-- Apart from the instruction pointer, the flags and the register that the result is stored in, a
form changes no register but the stack pointer, and that one by its use of the stack. -/
theorem Form.get_registersAfter {f : Form} {reg : Register} (r : Registers) (w : Word)
    (hdest : f.dest? ≠ some reg) (hip : reg ≠ .ip) (hflags : reg ≠ .flags) :
    (f.registersAfter r w).get reg = (r.afterUse f.stackUse).get reg := by
  have apart {d : Register} (h : f.dest? = some d) : reg ≠ d := by
    rintro rfl
    exact hdest h
  cases f with
  | moveImmediate dest _ | move dest _ | storeSegment dest _ | load dest _ =>
    exact (r.get_setGeneral dest _ reg).trans (if_neg (apart rfl))
  | loadSegment dest src =>
    exact (r.get_setSegment dest.segment _ reg).trans (if_neg (apart rfl))
  | binary op dest _ | binaryImmediate op dest _ =>
    exact r.get_afterBinary _ hflags fun stores => apart (if_pos stores)
  | unary op dest =>
    exact (Registers.get_setFlags _ _ hflags).trans
      ((r.get_setGeneral dest _ reg).trans (if_neg (apart rfl)))
  | jump target => exact r.get_setIp _ hip
  | branch condition target =>
    dsimp only [registersAfter]
    split
    · exact r.get_setIp _ hip
    · rfl
  | loop target => exact r.get_afterLoop _ hip (apart rfl)
  | call target => exact Registers.get_setIp { r with sp := r.sp - 2 } _ hip
  | ret => exact Registers.get_setIp { r with sp := r.sp + 2 } _ hip
  | pop dest =>
    exact (Registers.get_setGeneral _ dest _ reg).trans (if_neg (apart rfl))
  | popFlags => exact Registers.get_setFlags { r with sp := r.sp + 2 } _ hflags
  | store _ _ | push _ | pushFlags | nop | halt | input | output => rfl

end BusCycle
