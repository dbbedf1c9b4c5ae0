-- What every instruction that was read from a line has in common. The number of the line is only
-- carried along, and the numbers among the operands are words.
import BusCycle.Instruction.Encoding

namespace BusCycle

namespace Instruction

/-! ## The number of the line -/

/-- Whether a line is an instruction. Its place in the program does not matter for that. -/
def isLine (line : String) : Bool := (parse line 0).isOk

/-- A line that is an instruction is the same one at any number. -/
theorem parse_renumber {line : String} {n : Int} {i : Instruction} (h : parse line n = .ok i)
    (k : Int) : parse line k = .ok { i with lineNumber := k } := by
  unfold parse at h ⊢
  dsimp only at h ⊢
  split at h
  · cases h
  · split at h
    · cases h
    · cases h
      rfl

/-- A fault names the line that it is in and its place. -/
theorem eq_of_parse_fault {line : String} {n : Int} {e : LineError}
    (h : parse line n = .error (.fault e)) : e = ⟨e.fault, n, line⟩ := by
  unfold parse at h
  dsimp only at h
  split at h
  · cases h
    rfl
  · split at h
    · rename_i failure _
      cases failure with
      | fault f =>
        cases h
        rfl
      | conversion c => cases h
    · cases h

theorem isLine_of_parse {line : String} {n : Int} {i : Instruction} (h : parse line n = .ok i) :
    isLine line = true := by
  unfold isLine
  rw [parse_renumber h 0]
  rfl

theorem parse_of_isLine {line : String} (h : isLine line = true) (n : Int) :
    ∃ i, parse line n = .ok i := by
  unfold isLine at h
  rcases hp : parse line 0 with e | i
  · rw [hp] at h
    cases h
  · exact ⟨_, parse_renumber hp n⟩

theorem parse_of_not_isLine {line : String} (h : isLine line = false) (n : Int) :
    ∃ e, parse line n = .error e := by
  rcases hp : parse line n with e | i
  · exact ⟨e, rfl⟩
  · rw [isLine_of_parse hp] at h
    cases h

end Instruction

/-- The code of an instruction and its form do not depend on the number of its line. -/
theorem Assembled.ofInstruction_renumber (i : Instruction) (ip : Word) (k : Int) :
    Assembled.ofInstruction { i with lineNumber := k } ip =
      { Assembled.ofInstruction i ip with instruction := { i with lineNumber := k } } := by
  have same : Form.ofInstruction? { i with lineNumber := k } = Form.ofInstruction? i := rfl
  unfold Assembled.ofInstruction
  rw [same]
  cases Form.ofInstruction? i with
  | none => rfl
  | some f => rfl

/-! ## The operands -/

/-- An operand whose number, if it has one, is a word. -/
def Operand.Fits : Operand → Prop
  | immediate value _ => 0 ≤ value ∧ value < 0x10000
  | direct displacement => 0 ≤ displacement ∧ displacement < 0x10000
  | _ => True

theorem Word.toNat_fits (w : Word) : 0 ≤ (w.toNat : Int) ∧ (w.toNat : Int) < 0x10000 := by
  have := w.isLt
  omega

namespace Operand

theorem fits_of_readPlace {inner : List Char} {op : Operand} (h : readPlace inner = .ok op) :
    op.Fits := by
  unfold readPlace at h
  split at h
  · cases h
  · split at h
    · cases h
      trivial
    · rcases hn : readNumber inner with e | w
      · rw [hn] at h
        cases h
      · rw [hn] at h
        cases h
        exact Word.toNat_fits w

theorem fits_of_read {text : List Char} {op : Operand} (h : read text = .ok op) : op.Fits := by
  unfold read at h
  split at h
  · cases h
  · split at h
    · exact fits_of_readPlace h
    · cases h
  · split at h
    · cases h
      trivial
    · rcases hn : readNumber text with e | w
      · rw [hn] at h
        cases h
      · rw [hn] at h
        cases h
        exact Word.toNat_fits w

end Operand

theorem Operands.fits_of_read {rest : List Char} {ops : Operands} (h : read rest = .ok ops) :
    ∀ op ∈ ops.toList, op.Fits := by
  unfold read at h
  intro op member
  split at h
  · cases h
    cases member
  · split at h
    · cases h
      cases member
    · rename_i a _
      rcases ha : Operand.read a with e | x
      · rw [ha] at h
        cases h
      · rw [ha] at h
        cases h
        obtain rfl := List.mem_singleton.mp member
        exact Operand.fits_of_read ha
    · rename_i a b _
      rcases ha : Operand.read a with e | x
      · rw [ha] at h
        cases h
      · rcases hb : Operand.read b with e | y
        · rw [ha, hb] at h
          cases h
        · rw [ha, hb] at h
          cases h
          rcases List.mem_cons.mp member with rfl | member
          · exact Operand.fits_of_read ha
          · obtain rfl := List.mem_singleton.mp member
            exact Operand.fits_of_read hb
    · cases h

/-- The numbers among the operands of an instruction that was read are words. -/
theorem Instruction.fits_of_parse {line : String} {n : Int} {i : Instruction}
    (h : parse line n = .ok i) : ∀ op ∈ i.operands.toList, op.Fits := by
  unfold parse at h
  dsimp only at h
  split at h
  · cases h
  · split at h
    · cases h
    · rename_i read
      cases h
      exact Operands.fits_of_read read

end BusCycle
