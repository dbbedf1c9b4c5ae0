-- The numbers in operands count modulo 65536. They are not cut in any one place: each encoder, each
-- address, each operation and each jump drops what lies above bit 15 where it comes to it. An
-- instruction with every number reduced is recognised, encoded and executed as the instruction itself
-- is, and only a note may show the number as it was.
import BusCycle.Config.Preset
import BusCycle.Proofs.Instruction.Shapes
import BusCycle.Proofs.Machine.Raw

namespace BusCycle

/-! ## Reduced numbers -/

/-- The operand with its number reduced to what a word can hold. -/
def Operand.reduced : Operand → Operand
  | immediate value text => immediate (value % 65536) text
  | direct displacement => direct (displacement % 65536)
  | op => op

/-- The instruction with every number in its operands reduced. -/
def Instruction.reduced (i : Instruction) : Instruction :=
  { i with operands := i.operands.map Operand.reduced }

def Place.reduced : Place → Place
  | literal displacement => literal (displacement % 65536)
  | p => p

/-- The form with its number reduced, if it has one. -/
def Form.reduced : Form → Form
  | moveImmediate dest value => moveImmediate dest (value % 65536)
  | store dest src => store dest.reduced src
  | load dest src => load dest src.reduced
  | binaryImmediate op dest value => binaryImmediate op dest (value % 65536)
  | jump target => jump (target % 65536)
  | call target => call (target % 65536)
  | branch condition target => branch condition (target % 65536)
  | loop target => loop (target % 65536)
  | f => f

/-- A number and what is left of it modulo 65536 are cut to one word. -/
@[simp] theorem ofInt_emod_word (v : Int) : BitVec.ofInt 16 (v % 65536) = BitVec.ofInt 16 v := by
  rw [← ofInt_mask 16 v, mask_eq_emod]
  rfl

@[simp] theorem mask_emod_word (v : Int) : mask 16 (v % 65536) = mask 16 v := by
  rw [← toNat_ofInt_eq_mask, ofInt_emod_word, toNat_ofInt_eq_mask]

/-! ## Recognition -/

theorem Operands.plain_reduced (ops : Operands) :
    (ops.map Operand.reduced).map Operand.plain = (ops.map Operand.plain).map Operand.reduced := by
  have one (op : Operand) : op.reduced.plain = op.plain.reduced := by
    cases op <;> rfl
  cases ops <;> simp only [Operands.map, one]

theorem Place.operand_reduced (p : Place) : p.reduced.operand = p.operand.reduced := by
  cases p <;> rfl

namespace Form

theorem kind_reduced (f : Form) : f.reduced.kind = f.kind := by
  cases f <;> rfl

theorem operands_reduced (f : Form) : f.reduced.operands = f.operands.map Operand.reduced := by
  cases f with
  | store dest src => exact congrArg (Operands.two · src.operand) dest.operand_reduced
  | load dest src => exact congrArg (Operands.two dest.operand ·) src.operand_reduced
  | _ => rfl

/-- What a form tells of an instruction, the reduced form tells of the reduced one. -/
theorem Tells.reduced {f : Form} {mnemonic : String} {ops : Operands} (h : f.Tells mnemonic ops) :
    f.reduced.Tells mnemonic (ops.map Operand.reduced) := by
  refine ⟨?_, ?_⟩
  · rw [← h.1]
    cases f <;> rfl
  · rw [operands_reduced, h.2, Operands.plain_reduced]

end Form

namespace OperandClass

/-- A class does not heed what a number is. -/
theorem has_reduced (c : OperandClass) (op : Operand) : c.Has op.reduced ↔ c.Has op := by
  cases c <;> cases op <;> exact Iff.rfl

theorem hasAll_reduced (cs : List OperandClass) (ops : Operands) :
    HasAll cs (ops.map Operand.reduced) ↔ HasAll cs ops := by
  rcases cs with _ | ⟨c, _ | ⟨d, _ | ⟨e, more⟩⟩⟩ <;> cases ops <;>
    simp [HasAll, Operands.map, has_reduced]

end OperandClass

/-- A reduced instruction has the reduced form. One that no row of the table fits stays unknown. -/
theorem Form.ofInstruction?_reduced (i : Instruction) :
    ofInstruction? i.reduced = (ofInstruction? i).map Form.reduced := by
  rcases found : ofInstruction? i with _ | f
  · -- A row that fits the reduced instruction would have fitted the instruction itself.
    refine ofInstruction?_eq_none fun s row fits => ?_
    have unreduced : s.Fits i.mnemonic i.operands :=
      ⟨fits.1, (OperandClass.hasAll_reduced s.operands i.operands).mp fits.2⟩
    obtain ⟨f, known, -⟩ := Shape.ofInstruction?_of_fits row unreduced
    rw [found] at known
    cases known
  · exact ofInstruction?_eq_some_iff.mpr (ofInstruction?_eq_some_iff.mp found).reduced

theorem Instruction.kind_reduced (i : Instruction) : i.reduced.kind = i.kind := by
  unfold kind
  rw [Form.ofInstruction?_reduced]
  cases Form.ofInstruction? i with
  | none => rfl
  | some f => exact f.kind_reduced

/-! ## Machine code -/

theorem Place.encode_reduced (p : Place) (reg : General) : p.reduced.encode reg = p.encode reg := by
  cases p with
  | si | di => rfl
  | literal d => simp only [reduced, encode, ofInt_emod_word]

theorem encodeTransfer_reduced (opcode short : Nat) (reg : General) (p : Place) :
    encodeTransfer opcode short reg p.reduced = encodeTransfer opcode short reg p := by
  have long := p.encode_reduced reg
  cases p with
  | si | di => rfl
  | literal d =>
    cases reg with
    | ax => exact congrArg (fun w => .opcode short :: displacementBytes w) (ofInt_emod_word d)
    | _ => exact congrArg (.opcode opcode :: ·) long

theorem distance_emod_word (target : Int) (ip length : Word) :
    distance (target % 65536) ip length = distance target ip length := by
  rw [distance, ofInt_emod_word]
  rfl

theorem Form.encode_reduced (f : Form) (ip : Word) : f.reduced.encode ip = f.encode ip := by
  cases f with
  | moveImmediate _ _ | binaryImmediate _ _ _ => simp only [reduced, encode, ofInt_emod_word]
  | store dest src => exact encodeTransfer_reduced _ _ src dest
  | load dest src => exact encodeTransfer_reduced _ _ dest src
  | jump _ | call _ | branch _ _ | loop _ => simp only [reduced, encode, distance_emod_word]
  | _ => rfl

theorem Assembled.code_reduced (i : Instruction) (ip : Word) :
    (ofInstruction i.reduced ip).code = (ofInstruction i ip).code := by
  unfold ofInstruction
  rw [Form.ofInstruction?_reduced]
  cases Form.ofInstruction? i with
  | none =>
    show placeholders i.reduced = placeholders i
    unfold placeholders Instruction.reduced
    cases i.operands <;> rfl
  | some f => exact f.encode_reduced ip

/-- The numbers of an instruction at any instruction pointer are its machine code at the word that the
pointer is cut to. -/
theorem Instruction.encodeByName_ofInt (i : Instruction) (ip : Int) :
    i.encodeByName ip = .ok ((Assembled.ofInstruction i (.ofInt 16 ip)).code.map .ofCode) := by
  have word : ((BitVec.ofInt 16 ip).toNat : Int) = ip % 65536 := by
    rw [toNat_ofInt_eq_mask, mask_eq_emod]
    rfl
  rw [← i.encodeByName_eq, word]
  unfold encodeByName
  rw [Int.emod_emod_of_dvd ip (Int.dvd_refl 65536)]

/-! ## The machine -/

theorem Place.offset_reduced (p : Place) (r : Registers) : p.reduced.offset r = p.offset r := by
  cases p with
  | si | di => rfl
  | literal d => simp only [reduced, offset, ofInt_emod_word]

namespace Machine

/-- Two machines that differ at most in what the notes of their logs say. -/
structure SameButNotes (m n : Machine) : Prop where
  registers : m.registers = n.registers
  memory : m.memory = n.memory
  width : m.width = n.width
  history : m.history = n.history
  busStep : m.bus.step = n.bus.step
  transactions : m.bus.transactions = n.bus.transactions
  /-- The logs have their notes in the same places. -/
  places : m.bus.entries.map LogEntry.transaction? = n.bus.entries.map LogEntry.transaction?

theorem SameButNotes.refl (m : Machine) : m.SameButNotes m := ⟨rfl, rfl, rfl, rfl, rfl, rfl, rfl⟩

/-- One note more in each log. -/
theorem sameButNotes_note (m : Machine) (n n' : Note) : (m.note n).SameButNotes (m.note n') := by
  refine ⟨rfl, rfl, rfl, rfl, rfl, ?_, ?_⟩
  · exact (m.bus.transactions_note n).trans (m.bus.transactions_note n').symm
  · simp only [note, BusLog.note, List.map_append, List.map_singleton, LogEntry.transaction?]

/-- Only a comparison notes the number that it was given. -/
theorem sameButNotes_computeBinary (m : Machine) (op : BinaryOp) (dest : General) (value : Int) :
    (m.computeBinary op dest value).SameButNotes (m.computeBinary op dest (value % 65536)) := by
  unfold computeBinary
  rw [ofInt_emod_word]
  dsimp only
  split
  · exact .refl _
  · exact sameButNotes_note _ _ _

theorem sameButNotes_executeForm (m : Machine) (f : Form) :
    (m.executeForm f).SameButNotes (m.executeForm f.reduced) := by
  cases f with
  | moveImmediate _ _ | jump _ | call _ | branch _ _ | loop _ =>
    simp only [Form.reduced, executeForm, ofInt_emod_word]
    exact .refl _
  | store _ _ =>
    simp only [Form.reduced, executeForm, storeAt, Place.offset_reduced]
    exact .refl _
  | load _ _ =>
    simp only [Form.reduced, executeForm, loadFrom, Place.offset_reduced]
    exact .refl _
  | binaryImmediate op dest value => exact m.sameButNotes_computeBinary op dest value
  | _ => exact .refl _

/-- An instruction of no known form is noted as it was written. -/
theorem sameButNotes_cycle (m : Machine) (i : Instruction) (ip : Word) :
    (m.cycle (.ofInstruction i ip)).SameButNotes (m.cycle (.ofInstruction i.reduced ip)) := by
  unfold cycle execute
  rw [Assembled.code_reduced, Assembled.form_ofInstruction, Assembled.form_ofInstruction,
    Form.ofInstruction?_reduced]
  cases Form.ofInstruction? i with
  | none => exact sameButNotes_note _ _ _
  | some f => exact sameButNotes_executeForm _ f

end Machine

/-! ## The machine of whole numbers -/

theorem RawRegisters.set_emod_word (r : RawRegisters) (reg : Register) (v : Int) :
    r.set reg (v % 65536) = r.set reg v := by
  unfold set held
  rw [mask_emod_word]

/-- An operation may come to a number that is negative or has more than 16 bits, and what is left of
that under the mask does not hang on more than a word of its second operand. -/
theorem BinaryOp.applyRaw_emod_word (op : BinaryOp) (a b : Int) :
    op.applyRaw a (b % 65536) = op.applyRaw a b := by
  unfold applyRaw
  rw [← toNat_ofInt_eq_mask, ← toNat_ofInt_eq_mask]
  cases op with
  | add => simp only [BitVec.ofInt_add, ofInt_emod_word]
  | sub | cmp => simp only [ofInt_sub, ofInt_emod_word]
  | and => simp only [ofInt_land, ofInt_emod_word]
  | or => simp only [ofInt_lor, ofInt_emod_word]
  | xor => simp only [ofInt_xor, ofInt_emod_word]

namespace RawMachine

theorem set_emod_word (k : RawMachine) (reg : Register) (v : Int) :
    k.set reg (v % 65536) = k.set reg v := by
  unfold set
  rw [RawRegisters.set_emod_word]

/-- The reference to a place masks its displacement. -/
theorem dataReference_offset_reduced (k : RawMachine) (segment : Register) (p : Place) :
    k.dataReference segment (k.offset p.reduced).1 (k.offset p.reduced).2 =
      k.dataReference segment (k.offset p).1 (k.offset p).2 := by
  cases p with
  | si | di => rfl
  | literal d => simp only [Place.reduced, offset, dataReference, mask_emod_word]

theorem computeBinary_emod_word (k : RawMachine) (op : BinaryOp) (dest : General) (right : Int) :
    k.computeBinary op dest (right % 65536) = k.computeBinary op dest right := by
  unfold computeBinary
  rw [BinaryOp.applyRaw_emod_word]

theorem loop_emod_word (k : RawMachine) (target : Int) :
    k.loop (target % 65536) = k.loop target := by
  unfold loop
  dsimp only
  rw [set_emod_word]

theorem executeForm_reduced (k : RawMachine) (f : Form) :
    k.executeForm f.reduced = k.executeForm f := by
  cases f with
  | moveImmediate dest value => exact k.set_emod_word (.general dest) value
  | store dest src =>
    simp only [Form.reduced, executeForm, writeWord, dataReference_offset_reduced]
  | load dest src =>
    simp only [Form.reduced, executeForm, readWord, dataReference_offset_reduced]
  | binaryImmediate op dest value => exact k.computeBinary_emod_word op dest value
  | jump target => exact k.set_emod_word .ip target
  | call target => exact (k.push (k.registers .ip)).set_emod_word .ip target
  | branch condition target => simp only [Form.reduced, executeForm, set_emod_word]
  | loop target => exact k.loop_emod_word target
  | _ => rfl

theorem execute_reduced (k : RawMachine) (i : Instruction) : k.execute i.reduced = k.execute i := by
  unfold execute
  rw [Form.ofInstruction?_reduced]
  cases Form.ofInstruction? i with
  | none => rfl
  | some f => exact k.executeForm_reduced f

/-- The machine after an instruction was encoded at an instruction pointer, which need not be its own,
and then fetched and executed. -/
def cycleAt (k : RawMachine) (i : Instruction) (ip : Int) : Except Lapse RawMachine := do
  return (k.fetch (← i.encodeByName ip)).execute i

theorem cycleAt_eq (k : RawMachine) (i : Instruction) (ip : Int) :
    k.cycleAt i ip =
      .ok ((k.fetch ((Assembled.ofInstruction i (.ofInt 16 ip)).code.map .ofCode)).execute i) := by
  unfold cycleAt
  rw [i.encodeByName_ofInt, Lapse.ok_bind]
  rfl

end RawMachine

/-! ## What the numbers of an instruction come to -/

/-- An instruction assembled at `ip` is in all respects what another one assembled at `jp` is, but for
what notes say. -/
structure Instruction.ActsAs (i : Instruction) (ip : Int) (j : Instruction) (jp : Int) : Prop where
  kind : i.kind = j.kind
  encoded : ∃ bytes, i.encodeByName ip = .ok bytes ∧ j.encodeByName jp = .ok bytes
  code : (Assembled.ofInstruction i (.ofInt 16 ip)).code =
    (Assembled.ofInstruction j (.ofInt 16 jp)).code
  /-- From every machine, on whatever bus, a fetch and an execution lead to the same. -/
  cycle : ∀ m : Machine, (m.cycle (.ofInstruction i (.ofInt 16 ip))).SameButNotes
    (m.cycle (.ofInstruction j (.ofInt 16 jp)))
  /-- So they do on a machine of whole numbers, which masks a number only where it comes to be
  stored. -/
  numbers : ∀ k : RawMachine, ∃ next, k.cycleAt i ip = .ok next ∧ k.cycleAt j jp = .ok next ∧
    ∀ m : Machine, k.Shows m → next.Shows (m.cycle (.ofInstruction i (.ofInt 16 ip)))

/-- The numbers in operands count modulo 65536, and so does the instruction pointer: an instruction
with every number reduced acts as the instruction itself, however great or small the numbers are. -/
theorem Instruction.numbers_count_modulo_word (i : Instruction) {ip jp : Int}
    (same : ip % 65536 = jp % 65536) : i.ActsAs ip i.reduced jp := by
  have word : BitVec.ofInt 16 jp = BitVec.ofInt 16 ip := by
    rw [← ofInt_emod_word jp, ← same, ofInt_emod_word]
  have code : (Assembled.ofInstruction i.reduced (.ofInt 16 jp)).code =
      (Assembled.ofInstruction i (.ofInt 16 ip)).code := by
    rw [word, Assembled.code_reduced]
  refine ⟨i.kind_reduced.symm, ?encoded, code.symm, ?cycle, ?numbers⟩
  case encoded =>
    refine ⟨_, i.encodeByName_ofInt ip, ?_⟩
    rw [encodeByName_ofInt, code]
  case cycle =>
    intro m
    rw [word]
    exact m.sameButNotes_cycle i _
  case numbers =>
    intro k
    refine ⟨_, k.cycleAt_eq i ip, ?_, fun m shows => (shows.fetch _).execute i _⟩
    rw [k.cycleAt_eq, code, RawMachine.execute_reduced]

/-- A call of 0100H, told by a number that is too small for a word. -/
def callBelow : Instruction := ⟨"CALL", .one (.immediate (-65280) "-65280"), "", 0⟩

/-- The call is assembled at -253 as its reduction is at 65283. The distance wraps, and so does the
return address on the stack. -/
theorem callBelow_actsAs :
    let m : Machine := (Machine.fresh Preset.classic.registers (.ofInt 8)).setIp 0xFFFE
    let next := m.cycle (.ofInstruction callBelow.reduced (.ofInt 16 65283))
    (-253 : Int) % 65536 = 65283 % 65536 ∧
      callBelow.reduced.operands = .one (.immediate 256 "-65280") ∧
      callBelow.ActsAs (-253) callBelow.reduced 65283 ∧
      callBelow.encodeByName (-253) =
        .ok [⟨0xE8, "Opcode"⟩, ⟨0xFA, "Displacement low"⟩, ⟨0x01, "Displacement high"⟩] ∧
      next.registers.ip = 0x0100 ∧ next.memory.readWord 0x2FFFC = 1 := by
  have same : (-253 : Int) % 65536 = 65283 % 65536 := by decide
  refine ⟨same, rfl, callBelow.numbers_count_modulo_word same, ?_, ?_, ?_⟩
  · decide +kernel
  · decide +kernel
  · decide +kernel

/-- A comparison notes its number as it was written, so the logs of two machines may differ. -/
example :
    let compare : Instruction := ⟨"CMP", .two (.register "AX") (.immediate (-1) "-1"), "", 0⟩
    let m : Machine := .fresh Preset.classic.registers (.ofInt 16)
    (m.cycle (.ofInstruction compare 0)).bus.lines.getLast? =
        some "CMP: 0000H vs -001H -> 0001H discarded, FLAGS 0002H" ∧
      (m.cycle (.ofInstruction compare.reduced 0)).bus.lines.getLast? =
        some "CMP: 0000H vs FFFFH -> 0001H discarded, FLAGS 0002H" := by
  decide +kernel

end BusCycle
