-- Notes on lines of their own. Whatever an instruction is, what the machine notes while it fetches and
-- executes it are single lines, and none of them begins with a bracket as the lines of a transaction do.
import BusCycle.Machine.Execute
import BusCycle.Proofs.Text.Unbroken

namespace BusCycle

open Text

/-! ## Remarks -/

/-- A text on one line that begins with something else than a bracket. -/
structure IsRemark (s : String) : Prop where
  unbroken : Unbroken s.toList
  start : s.toList.head?.any (· != '[') = true

instance (s : String) : Decidable (IsRemark s) :=
  decidable_of_iff (Unbroken s.toList ∧ s.toList.head?.any (· != '[') = true)
    ⟨fun h => ⟨h.1, h.2⟩, fun h => ⟨h.1, h.2⟩⟩

/-- What follows the beginning of a remark has only to be on its line. -/
theorem IsRemark.append {s t : String} (h : IsRemark s) (ht : Unbroken t.toList) :
    IsRemark (s ++ t) := by
  obtain ⟨unbroken, start⟩ := h
  refine ⟨unbroken_after unbroken ht, ?_⟩
  rw [String.toList_append]
  cases begins : s.toList with
  | nil =>
    rw [begins] at start
    cases start
  | cons c rest =>
    rw [begins] at start
    exact start

/-- A word behind the beginning of a remark, with what follows it. -/
theorem IsRemark.word {s t : String} (h : IsRemark s) (w : Word) (ht : Unbroken t.toList) :
    IsRemark (s ++ hexWord w ++ t) :=
  (h.append (unbroken_hexWord w)).append ht

theorem ReferenceKind.isRemark_name (k : ReferenceKind) : IsRemark k.name := by
  cases k <;> decide

theorem General.isRemark_name (r : General) : IsRemark r.name := by
  cases r <;> decide

theorem Segment.isRemark_name (s : Segment) : IsRemark s.name := by
  cases s <;> decide

theorem Register.isRemark_name (r : Register) : IsRemark r.name := by
  cases r with
  | general r => exact r.isRemark_name
  | segment s => exact s.isRemark_name
  | ip | flags => decide

theorem BinaryOp.isRemark_name (op : BinaryOp) : IsRemark op.name := by
  cases op <;> decide

theorem Condition.isRemark_name (c : Condition) : IsRemark c.name := by
  cases c <;> decide

theorem Place.unbroken_name (p : Place) (r : Registers) : Unbroken (p.offset r).1.toList := by
  cases p with
  | si => exact (by decide : Unbroken "SI".toList)
  | di => exact (by decide : Unbroken "DI".toList)
  | literal d => exact (by decide : Unbroken "disp".toList)

namespace Reference

/-- A reference is told in one line if its registers have names on one line. -/
theorem isRemark_describe {r : Reference} (hs : Unbroken r.segmentName.toList)
    (ho : Unbroken r.offsetName.toList) : IsRemark r.describe := by
  have wraps : Unbroken (if r.overflowed then " (wraps to " ++ r.key ++ "H)" else "").toList := by
    split
    · exact unbroken_between (by decide) (unbroken_hex 5 _) (by decide)
    · decide
  have segment : Unbroken (hex 4 r.segment).toList := unbroken_hex 4 _
  have offset : Unbroken (hex 4 r.offset).toList := unbroken_hex 4 _
  have names : IsRemark (r.kind.name ++ ": " ++ r.segmentName ++ ":" ++ r.offsetName) :=
    (((r.kind.isRemark_name.append (by decide)).append hs).append (by decide)).append ho
  have parts := (((names.append (t := " ") (by decide)).append segment).append (t := ":")
    (by decide)).append offset
  have sum := (((parts.append (t := " -> ") (by decide)).append segment).append
    (t := "H x 10H + ") (by decide)).append offset
  exact (((sum.append (by decide)).append (unbroken_hex 5 _)).append (by decide)).append wraps

end Reference

namespace Note

/-- A note in which the texts that it repeats are lines, or begin as remarks where it begins with
them. -/
def OneLine : Note → Prop
  | formed r => Unbroken r.segmentName.toList ∧ Unbroken r.offsetName.toList
  | idle mnemonic => IsRemark mnemonic
  | unknown instruction => Unbroken instruction.toList
  | free text => IsRemark text
  | _ => True

theorem OneLine.isRemark_text {n : Note} (h : n.OneLine) : IsRemark n.text := by
  cases n with
  | formed r => exact Reference.isRemark_describe h.1 h.2
  | advanced before after count =>
    have moved : IsRemark ("IP " ++ hexWord before ++ "H -> " ++ hexWord after ++ "H (+") :=
      ((by decide : IsRemark "IP ").word before (by decide)).word after (by decide)
    exact (moved.append (unbroken_decimal _)).append (by decide)
  | moved dest value => exact (dest.isRemark_name.append (by decide)).word value (by decide)
  | branched before after =>
    have moved : IsRemark
        ("IP " ++ hexWord before ++ "H -> " ++ hexWord after ++ "H (branch taken, ") :=
      ((by decide : IsRemark "IP ").word before (by decide)).word after (by decide)
    exact (moved.append (unbroken_signed _)).append (by decide)
  | computed dest result flags =>
    exact ((dest.isRemark_name.append (by decide)).word result (by decide)).word flags (by decide)
  | compared op left right result flags =>
    have operands : IsRemark
        (op.name ++ ": " ++ hexWord left ++ "H vs " ++ hex 4 right ++ "H -> ") :=
      (((op.isRemark_name.append (by decide)).word left (by decide)).append
        (unbroken_hex 4 right)).append (by decide)
    exact (operands.word result (by decide)).word flags (by decide)
  | notTaken condition ip => exact (condition.isRemark_name.append (by decide)).word ip (by decide)
  | counted cx => exact (by decide : IsRemark "CX <- ").word cx (by decide)
  | counterSpent ip => exact (by decide : IsRemark "LOOP done, IP stays ").word ip (by decide)
  | pushed value sp =>
    exact ((by decide : IsRemark "PUSH ").word value (by decide)).word sp (by decide)
  | popped value sp =>
    exact ((by decide : IsRemark "POP ").word value (by decide)).word sp (by decide)
  | idle mnemonic => exact h.append (by decide)
  | unknown instruction => exact ((by decide : IsRemark "'").append h).append (by decide)
  | free text => exact h

end Note

/-! ## Logs -/

/-- A log in which all notes are single lines. -/
def BusLog.NotesOneLine (log : BusLog) : Prop := ∀ n, .note n ∈ log.entries → n.OneLine

namespace BusLog.NotesOneLine

variable {log : BusLog}

theorem note (h : log.NotesOneLine) {n : Note} (hn : n.OneLine) : (log.note n).NotesOneLine := by
  intro n' mem
  rcases List.mem_append.mp mem with before | last
  · exact h n' before
  · cases List.mem_singleton.mp last
    exact hn

theorem transfer (h : log.NotesOneLine) (t : Transfer) : (log.transfer t).NotesOneLine := by
  intro n mem
  rcases List.mem_append.mp mem with before | last
  · exact h n before
  · cases List.mem_singleton.mp last

theorem transferAll (h : log.NotesOneLine) (ts : List Transfer) :
    (log.transferAll ts).NotesOneLine := by
  induction ts generalizing log with
  | nil => exact h
  | cons t ts ih => exact ih (h.transfer t)

end BusLog.NotesOneLine

/-! ## Cycles -/

namespace Machine

/-- A machine that noted single lines only. -/
abbrev NotesOneLine (m : Machine) : Prop := m.bus.NotesOneLine

namespace NotesOneLine

variable {m : Machine}

/-! ### Words through the bus -/

theorem writeWord (h : m.NotesOneLine) (segment : Segment) {offsetName : String}
    (name : Unbroken offsetName.toList) (offset value : Word) (lowTag highTag : String) :
    (m.writeWord (.segment segment) offsetName offset value lowTag highTag).NotesOneLine :=
  BusLog.NotesOneLine.transferAll (h.note (n := .formed _) ⟨segment.isRemark_name.unbroken, name⟩) _

theorem readWord (h : m.NotesOneLine) (segment : Segment) {offsetName : String}
    (name : Unbroken offsetName.toList) (offset : Word) :
    (m.readWord (.segment segment) offsetName offset).2.NotesOneLine :=
  BusLog.NotesOneLine.transferAll (h.note (n := .formed _) ⟨segment.isRemark_name.unbroken, name⟩) _

theorem push (h : m.NotesOneLine) (value : Word) : (m.push value).NotesOneLine := by
  have moved : (m.setGeneral .sp (m.registers.sp - 2)).NotesOneLine := h
  exact (moved.writeWord .ss (by decide) _ value _ _).note trivial

theorem pop (h : m.NotesOneLine) : m.pop.2.NotesOneLine :=
  (h.readWord .ss (by decide) m.registers.sp).note trivial

theorem storeAt (h : m.NotesOneLine) (dest : Place) (value : Word) :
    (m.storeAt dest value).NotesOneLine :=
  h.writeWord .ds (dest.unbroken_name m.registers) _ value _ _

theorem loadFrom (h : m.NotesOneLine) (src : Place) : (m.loadFrom src).2.NotesOneLine :=
  h.readWord .ds (src.unbroken_name m.registers) _

/-! ### Inside the processor -/

theorem moveTo (h : m.NotesOneLine) (dest : Register) (value : Word) :
    (m.moveTo dest value).NotesOneLine :=
  h.note trivial

theorem jumpTo (h : m.NotesOneLine) (target : Word) : (m.jumpTo target).NotesOneLine :=
  h.note trivial

theorem computeBinary (h : m.NotesOneLine) (op : BinaryOp) (dest : General) (right : Int) :
    (m.computeBinary op dest right).NotesOneLine := by
  unfold Machine.computeBinary
  dsimp only
  split
  · exact h.note trivial
  · exact h.note trivial

theorem computeUnary (h : m.NotesOneLine) (op : UnaryOp) (dest : General) :
    (m.computeUnary op dest).NotesOneLine :=
  h.note trivial

theorem branch (h : m.NotesOneLine) (condition : Condition) (target : Word) :
    (m.branch condition target).NotesOneLine := by
  unfold Machine.branch
  split
  · exact h.jumpTo target
  · exact h.note trivial

theorem loop (h : m.NotesOneLine) (target : Word) : (m.loop target).NotesOneLine := by
  have counted : ((m.setGeneral .cx (m.registers.cx - 1)).note
      (.counted (m.registers.cx - 1))).NotesOneLine := h.note trivial
  unfold Machine.loop
  dsimp only
  split
  · exact counted.note trivial
  · exact counted.jumpTo target

/-! ### Whole cycles -/

theorem executeForm (h : m.NotesOneLine) (f : Form) : (m.executeForm f).NotesOneLine := by
  cases f with
  | moveImmediate | move | loadSegment | storeSegment => exact h.moveTo _ _
  | store dest src => exact h.storeAt dest _
  | load dest src => exact (h.loadFrom src).moveTo _ _
  | binary op dest src => exact h.computeBinary op dest _
  | binaryImmediate op dest value => exact h.computeBinary op dest value
  | unary op dest => exact h.computeUnary op dest
  | jump target => exact h.jumpTo _
  | call target => exact (h.push _).jumpTo _
  | ret => exact h.pop.jumpTo _
  | branch condition target => exact h.branch condition _
  | loop target => exact h.loop _
  | push src => exact h.push _
  | pop dest => exact h.pop.moveTo _ _
  | pushFlags => exact h.push _
  | popFlags => exact h.pop.moveTo _ _
  | nop => exact h.note (by decide : IsRemark "NOP")
  | halt => exact h.note (by decide : IsRemark "HLT")
  | input => exact h.note (by decide : IsRemark "IN")
  | output => exact h.note (by decide : IsRemark "OUT")

/-- The text of an instruction is noted if nothing is known about it, so it has to be one line. -/
theorem execute (h : m.NotesOneLine) {a : Assembled} (line : Unbroken a.instruction.display.toList) :
    (m.execute a).NotesOneLine := by
  unfold Machine.execute
  split
  · exact h.executeForm _
  · exact h.note line

theorem fetch (h : m.NotesOneLine) (code : List CodeByte) : (m.fetch code).NotesOneLine := by
  have names : Unbroken "CS".toList ∧ Unbroken "IP".toList := by decide
  have formed : (m.refer m.fetchReference).NotesOneLine := h.note (n := .formed _) names
  exact BusLog.NotesOneLine.note (formed.transferAll _) trivial

theorem cycle (h : m.NotesOneLine) {a : Assembled} (line : Unbroken a.instruction.display.toList) :
    (m.cycle a).NotesOneLine :=
  (h.fetch a.code).execute line

end NotesOneLine

end Machine

end BusCycle
