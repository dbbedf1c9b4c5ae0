-- Machine code is read back as the instruction that it was made from, whatever bytes follow it. So
-- the code of one instruction never begins that of another, and the bytes of a whole list tell the
-- list.
import BusCycle.Proofs.Instruction.Decoder

namespace BusCycle

/-! ## Codes -/

theorem General.code_lt (r : General) : r.code < 8 := by
  cases r <;> decide

theorem Segment.code_lt (s : Segment) : s.code < 8 := by
  cases s <;> decide

theorem BinaryOp.code_lt (op : BinaryOp) : op.code < 8 := by
  cases op <;> decide

theorem operandFields_modRm {mode reg rm : Nat} (hm : mode < 4) (hr : reg < 8) (hrm : rm < 8) :
    operandFields (CodeByte.modRm mode reg rm).value = (mode, reg, rm) := by
  have value : (CodeByte.modRm mode reg rm).value.toNat = 64 * mode + 8 * reg + rm := by
    simp only [CodeByte.modRm, BitVec.toNat_ofNat]
    omega
  unfold operandFields
  rw [value]
  refine Prod.ext ?_ (Prod.ext ?_ ?_)
  · dsimp only
    omega
  · dsimp only
    omega
  · dsimp only
    omega

@[simp] theorem readWord?_bytes (w : Word) (rest : List Byte) :
    readWord? (lowByte w :: highByte w :: rest) = some w := by
  simp only [readWord?, wordOf_lowByte_highByte]

/-! ## Numbers and targets -/

theorem toNat_ofInt_of_fits {value : Int} (h : 0 ≤ value ∧ value < 0x10000) :
    ((BitVec.ofInt 16 value).toNat : Int) = value := by
  rw [BitVec.toNat_ofInt]
  omega

/-- The distance leads back to the target. -/
theorem add_distance (target : Int) (ip length : Word) :
    ip + length + distance target ip length = BitVec.ofInt 16 target := by
  unfold distance
  rw [BitVec.add_comm, BitVec.sub_add_cancel]

/-- The low byte of the distance leads back to the low byte of the target. -/
theorem add_lowByte_distance (target : Int) (ip : Word) :
    ((lowByte ip + 2 + lowByte (distance target ip 2)).toNat : Int) = target % 256 := by
  have low : lowByte ip + 2 + lowByte (distance target ip 2) =
      lowByte (ip + 2 + distance target ip 2) := by
    unfold lowByte
    rw [BitVec.setWidth_add _ _ (by decide), BitVec.setWidth_add _ _ (by decide)]
    rfl
  rw [low, add_distance, toNat_lowByte, BitVec.toNat_ofInt]
  omega

/-! ## Forms -/

/-- The bytes of a form at an instruction pointer. -/
def Form.bytes (ip : Word) (f : Form) : List Byte := (f.encode ip).map CodeByte.value

/-- A form whose number, if it has one, is a word. -/
def Form.Fits (f : Form) : Prop := ∀ op ∈ f.operands.toList, op.Fits

/-- What machine code keeps of a form. -/
def Form.essence (f : Form) : Essence := .of f.mnemonic f.operands

/-- The opcode chooses how the rest is read. -/
theorem decode_of_format {ip : Word} {opcode : Byte} {rest : List Byte} {format : Format}
    (h : Format.ofOpcode? opcode.toNat = some format) :
    decode ip (opcode :: rest) = format.read ip rest := by
  simp only [decode, h, Option.bind_some]

namespace Format

/-! ## Opcodes that hold a code -/

theorem ofOpcode?_number (dest : General) :
    ofOpcode? (CodeByte.opcode (0xB8 + dest.code)).value.toNat = some (.number "MOV" dest) := by
  cases dest <;> rfl

theorem ofOpcode?_numberForAx (op : BinaryOp) :
    ofOpcode? (CodeByte.opcode (8 * op.code + 5)).value.toNat = some (.number op.name .ax) := by
  cases op <;> rfl

theorem ofOpcode?_registers (op : BinaryOp) :
    ofOpcode? (CodeByte.opcode (8 * op.code + 1)).value.toNat = some (.registers op) := by
  cases op <;> rfl

theorem ofOpcode?_short (c : Condition) :
    ofOpcode? (CodeByte.opcode (0x70 + c.code)).value.toNat =
      some (.short (commonMnemonic c.name)) := by
  cases c <;> rfl

/-! ## What is read behind an opcode -/

variable (ip : Word) (s : List Byte)

theorem read_number (mnemonic : String) (dest : General) (w : Word) :
    (number mnemonic dest).read ip (lowByte w :: highByte w :: s) =
      some (3, ⟨mnemonic, .two dest.operand (numberOperand w.toNat)⟩) := by
  simp only [read, readWord?_bytes]
  rfl

theorem read_accumulator (stores : Bool) (w : Word) :
    (accumulator stores).read ip (lowByte w :: highByte w :: s) =
      some (3, ⟨"MOV", if stores then .two (.direct w.toNat) General.ax.operand
        else .two General.ax.operand (.direct w.toNat)⟩) := by
  simp only [read, readWord?_bytes]
  rfl

theorem read_near (mnemonic : String) (w : Word) :
    (near mnemonic).read ip (lowByte w :: highByte w :: s) =
      some (3, ⟨mnemonic, .one (numberOperand (ip + 3 + w).toNat)⟩) := by
  simp only [read, readWord?_bytes]
  rfl

theorem read_short (mnemonic : String) (target : Int) :
    (short mnemonic).read ip (lowByte (distance target ip 2) :: s) =
      some (2, ⟨mnemonic, .one (numberOperand (target % 256))⟩) := by
  simp only [read, List.head?_cons, Option.bind_eq_bind, Option.bind_some, add_lowByte_distance]
  rfl

theorem read_registers (op : BinaryOp) (dest src : General) :
    (registers op).read ip ((CodeByte.modRm 3 src.code dest.code).value :: s) =
      some (2, ⟨op.name, .two dest.operand src.operand⟩) := by
  have fields := operandFields_modRm (by decide : 3 < 4) src.code_lt dest.code_lt
  simp only [read, List.head?_cons, Option.bind_eq_bind, Option.bind_some, fields, readRegister?,
    General.ofCode_code]
  rfl

theorem read_move_register (dest src : General) :
    (move true).read ip ((CodeByte.modRm 3 src.code dest.code).value :: s) =
      some (2, ⟨"MOV", .two dest.operand src.operand⟩) := by
  have fields := operandFields_modRm (by decide : 3 < 4) src.code_lt dest.code_lt
  simp only [read, List.head?_cons, Option.bind_eq_bind, Option.bind_some, fields, readOperand?,
    General.ofCode_code]
  rfl

theorem readOperand?_literal {d : Int} (h : 0 ≤ d ∧ d < 0x10000) :
    readOperand? (lowByte (BitVec.ofInt 16 d) :: highByte (BitVec.ofInt 16 d) :: s) 0 6 =
      some ((Place.literal d).operand, 2) := by
  simp only [readOperand?, readWord?_bytes, Option.map_some, toNat_ofInt_of_fits h]

theorem read_move_place (fromRegister : Bool) (reg : General) {p : Place} (h : p.operand.Fits) :
    (move fromRegister).read ip ((p.encode reg).map CodeByte.value ++ s) =
      some (1 + (p.encode reg).length, ⟨"MOV", if fromRegister then .two p.operand reg.operand
        else .two reg.operand p.operand⟩) := by
  cases p with
  | si =>
    have fields := operandFields_modRm (by decide : 0 < 4) reg.code_lt (by decide : 4 < 8)
    simp only [Place.encode, List.map_cons, List.map_nil, List.cons_append, List.nil_append, read,
      List.head?_cons, List.tail_cons, Option.bind_eq_bind, Option.bind_some, fields, readOperand?,
      General.ofCode_code]
    rfl
  | di =>
    have fields := operandFields_modRm (by decide : 0 < 4) reg.code_lt (by decide : 5 < 8)
    simp only [Place.encode, List.map_cons, List.map_nil, List.cons_append, List.nil_append, read,
      List.head?_cons, List.tail_cons, Option.bind_eq_bind, Option.bind_some, fields, readOperand?,
      General.ofCode_code]
    rfl
  | literal d =>
    have fields := operandFields_modRm (by decide : 0 < 4) reg.code_lt (by decide : 6 < 8)
    simp only [Place.encode, displacementBytes, List.map_cons, List.map_nil, List.cons_append,
      List.nil_append, read, List.head?_cons, List.tail_cons, Option.bind_eq_bind,
      Option.bind_some, fields, readOperand?_literal s h, General.ofCode_code]
    rfl

theorem read_loadSegment (dest : Segment) (src : General) :
    (moveSegment false).read ip ((CodeByte.modRm 3 dest.code src.code).value :: s) =
      some (2, ⟨"MOV", .two dest.operand src.operand⟩) := by
  have fields := operandFields_modRm (by decide : 3 < 4)
    (Nat.lt_of_lt_of_le dest.code_lt (by decide)) src.code_lt
  simp only [read, List.head?_cons, Option.bind_eq_bind, Option.bind_some, fields,
    Segment.ofCode?_code, readRegister?, General.ofCode_code]
  rfl

theorem read_storeSegment (dest : General) (src : Segment) :
    (moveSegment true).read ip ((CodeByte.modRm 3 src.code dest.code).value :: s) =
      some (2, ⟨"MOV", .two dest.operand src.operand⟩) := by
  have fields := operandFields_modRm (by decide : 3 < 4) src.code_lt dest.code_lt
  simp only [read, List.head?_cons, Option.bind_eq_bind, Option.bind_some, fields,
    Segment.ofCode?_code, readRegister?, General.ofCode_code]
  rfl

theorem read_numberGroup (op : BinaryOp) (dest : General) (w : Word) :
    numberGroup.read ip
        ((CodeByte.modRm 3 op.code dest.code).value :: lowByte w :: highByte w :: s) =
      some (4, ⟨op.name, .two dest.operand (numberOperand w.toNat)⟩) := by
  have fields := operandFields_modRm (by decide : 3 < 4) op.code_lt dest.code_lt
  simp only [read, List.head?_cons, List.tail_cons, Option.bind_eq_bind, Option.bind_some, fields,
    BinaryOp.ofCode?_code, readRegister?, General.ofCode_code, readWord?_bytes]
  rfl

theorem read_unaryGroup {op : UnaryOp} {code : Nat} (h : UnaryOp.ofCode? code = some op)
    (bound : code < 8) (dest : General) :
    unaryGroup.read ip ((CodeByte.modRm 3 code dest.code).value :: s) =
      some (2, ⟨op.name, .one dest.operand⟩) := by
  have fields := operandFields_modRm (by decide : 3 < 4) bound dest.code_lt
  simp only [read, List.head?_cons, Option.bind_eq_bind, Option.bind_some, fields, h,
    readRegister?, General.ofCode_code]
  rfl

end Format

/-! ## Each form read back -/

/-- A move between a register and a place, in its short form or not. -/
theorem decode_encodeTransfer {opcode short : Nat} {fromRegister : Bool}
    (long : Format.ofOpcode? (CodeByte.opcode opcode).value.toNat = some (.move fromRegister))
    (brief : Format.ofOpcode? (CodeByte.opcode short).value.toNat = some (.accumulator fromRegister))
    (reg : General) {place : Place} (h : place.operand.Fits) (ip : Word) (s : List Byte) :
    decode ip ((encodeTransfer opcode short reg place).map CodeByte.value ++ s) =
      some ((encodeTransfer opcode short reg place).length,
        ⟨"MOV", if fromRegister then .two place.operand reg.operand
          else .two reg.operand place.operand⟩) := by
  unfold encodeTransfer
  split
  · rename_i d
    have read := Format.read_accumulator ip s fromRegister (BitVec.ofInt 16 d)
    rw [toNat_ofInt_of_fits h] at read
    exact (decode_of_format brief).trans read
  · rw [List.length_cons, Nat.add_comm]
    exact (decode_of_format long).trans (Format.read_move_place ip s fromRegister reg h)

/-- An operation with a number, in its short form or not. -/
theorem decode_encodeBinaryImmediate (op : BinaryOp) (dest : General) (w ip : Word)
    (s : List Byte) :
    decode ip ((encodeBinaryImmediate op dest w).map CodeByte.value ++ s) =
      some ((encodeBinaryImmediate op dest w).length,
        ⟨op.name, .two dest.operand (numberOperand w.toNat)⟩) := by
  unfold encodeBinaryImmediate
  split
  · exact (decode_of_format (Format.ofOpcode?_numberForAx op)).trans
      (Format.read_number ip s op.name .ax w)
  · have format : Format.ofOpcode? (CodeByte.opcode 0x81).value.toNat = some .numberGroup := rfl
    exact (decode_of_format format).trans (Format.read_numberGroup ip s op dest w)

theorem decode_encodeUnary (op : UnaryOp) (dest : General) (ip : Word) (s : List Byte) :
    decode ip ((encodeUnary op dest).map CodeByte.value ++ s) =
      some ((encodeUnary op dest).length, ⟨op.name, .one dest.operand⟩) := by
  have group : Format.ofOpcode? (CodeByte.opcode 0xF7).value.toNat = some .unaryGroup := rfl
  cases op with
  | inc => cases dest <;> rfl
  | dec => cases dest <;> rfl
  | not =>
    exact (decode_of_format group).trans (Format.read_unaryGroup ip s rfl (by decide) dest)
  | neg =>
    exact (decode_of_format group).trans (Format.read_unaryGroup ip s rfl (by decide) dest)

/-- A jump or a call tells its target. -/
theorem decode_near {opcode : Nat} {mnemonic : String}
    (format : Format.ofOpcode? (CodeByte.opcode opcode).value.toNat = some (.near mnemonic))
    {target : Int} (h : (numberOperand target).Fits) (ip : Word) (s : List Byte) :
    decode ip ((CodeByte.opcode opcode :: displacementBytes (distance target ip 3)).map
        CodeByte.value ++ s) =
      some (3, ⟨mnemonic, .one (numberOperand target)⟩) := by
  have read := Format.read_near ip s mnemonic (distance target ip 3)
  rw [add_distance, toNat_ofInt_of_fits h] at read
  exact (decode_of_format format).trans read

namespace Form

theorem essence_store (dest : Place) (src : General) :
    (store dest src).essence = ⟨"MOV", .two dest.operand src.operand⟩ := by
  cases dest <;> rfl

theorem essence_load (dest : General) (src : Place) :
    (load dest src).essence = ⟨"MOV", .two dest.operand src.operand⟩ := by
  cases src <;> rfl

theorem essence_binary (op : BinaryOp) (dest src : General) :
    (binary op dest src).essence = ⟨op.name, .two dest.operand src.operand⟩ := by
  cases op <;> rfl

theorem essence_binaryImmediate (op : BinaryOp) (dest : General) (value : Int) :
    (binaryImmediate op dest value).essence =
      ⟨op.name, .two dest.operand (numberOperand value)⟩ := by
  cases op <;> rfl

theorem essence_unary (op : UnaryOp) (dest : General) :
    (unary op dest).essence = ⟨op.name, .one dest.operand⟩ := by
  cases op <;> rfl

theorem essence_branch (c : Condition) (target : Int) :
    (branch c target).essence =
      ⟨commonMnemonic c.name, .one (numberOperand (target % 256))⟩ := by
  cases c <;> rfl

/-- The bytes of a form tell its length and what is kept of it, whatever follows them. -/
theorem decode_bytes {f : Form} (h : f.Fits) (ip : Word) (s : List Byte) :
    decode ip (f.bytes ip ++ s) = some ((f.bytes ip).length, f.essence) := by
  unfold bytes
  rw [List.length_map]
  -- By the form: its opcode has one format, and what follows the opcode is read by that format.
  cases f with
  | moveImmediate dest value =>
    have fits : (numberOperand value).Fits := h _ (by simp [operands, Operands.toList])
    have read := Format.read_number ip s "MOV" dest (BitVec.ofInt 16 value)
    rw [toNat_ofInt_of_fits fits] at read
    exact (decode_of_format (Format.ofOpcode?_number dest)).trans read
  | move dest src =>
    have format : Format.ofOpcode? (CodeByte.opcode 0x89).value.toNat = some (.move true) := rfl
    exact (decode_of_format format).trans (Format.read_move_register ip s dest src)
  | loadSegment dest src =>
    have format : Format.ofOpcode? (CodeByte.opcode 0x8E).value.toNat =
        some (.moveSegment false) := rfl
    exact (decode_of_format format).trans (Format.read_loadSegment ip s dest.segment src)
  | storeSegment dest src =>
    have format : Format.ofOpcode? (CodeByte.opcode 0x8C).value.toNat =
        some (.moveSegment true) := rfl
    exact (decode_of_format format).trans (Format.read_storeSegment ip s dest src)
  | store dest src =>
    have fits : dest.operand.Fits := h _ (by simp [operands, Operands.toList])
    have long : Format.ofOpcode? (CodeByte.opcode 0x89).value.toNat = some (.move true) := rfl
    have brief : Format.ofOpcode? (CodeByte.opcode 0xA3).value.toNat =
        some (.accumulator true) := rfl
    rw [essence_store]
    exact decode_encodeTransfer long brief src fits ip s
  | load dest src =>
    have fits : src.operand.Fits := h _ (by simp [operands, Operands.toList])
    have long : Format.ofOpcode? (CodeByte.opcode 0x8B).value.toNat = some (.move false) := rfl
    have brief : Format.ofOpcode? (CodeByte.opcode 0xA1).value.toNat =
        some (.accumulator false) := rfl
    rw [essence_load]
    exact decode_encodeTransfer long brief dest fits ip s
  | binary op dest src =>
    rw [essence_binary]
    exact (decode_of_format (Format.ofOpcode?_registers op)).trans
      (Format.read_registers ip s op dest src)
  | binaryImmediate op dest value =>
    have fits : (numberOperand value).Fits := h _ (by simp [operands, Operands.toList])
    have read := decode_encodeBinaryImmediate op dest (BitVec.ofInt 16 value) ip s
    rw [toNat_ofInt_of_fits fits] at read
    rw [essence_binaryImmediate]
    exact read
  | unary op dest =>
    rw [essence_unary]
    exact decode_encodeUnary op dest ip s
  | jump target => exact decode_near rfl (h _ (by simp [operands, Operands.toList])) ip s
  | call target => exact decode_near rfl (h _ (by simp [operands, Operands.toList])) ip s
  | branch c target =>
    rw [essence_branch]
    exact (decode_of_format (Format.ofOpcode?_short c)).trans (Format.read_short ip s _ target)
  | loop target =>
    have format : Format.ofOpcode? (CodeByte.opcode 0xE2).value.toNat = some (.short "LOOP") := rfl
    exact (decode_of_format format).trans (Format.read_short ip s "LOOP" target)
  | push src => cases src <;> rfl
  | pop dest => cases dest <;> rfl
  | ret | pushFlags | popFlags | nop | halt | input | output => rfl

end Form

/-! ## Instructions -/

theorem Operand.Fits.plain {op : Operand} (h : op.Fits) : op.plain.Fits := by
  cases op with
  | register name => trivial
  | immediate value text => exact h
  | indirect base => trivial
  | direct displacement => exact h

theorem Operands.toList_map (f : Operand → Operand) (ops : Operands) :
    (ops.map f).toList = ops.toList.map f := by
  cases ops <;> rfl

/-- The text of numbers is not kept. -/
theorem Essence.of_plain (mnemonic : String) (ops : Operands) :
    of mnemonic (ops.map Operand.plain) = of mnemonic ops := by
  have plain : ∀ op : Operand, op.plain.plain = op.plain := by
    intro op
    cases op <;> rfl
  have shortened : ∀ op : Operand, op.plain.shortened = op.shortened := by
    intro op
    cases op <;> rfl
  unfold of
  split
  · cases ops <;> simp only [Operands.map, shortened]
  · cases ops <;> simp only [Operands.map, plain]

theorem Form.Tells.essence {f : Form} {i : Instruction} (h : f.Tells i.mnemonic i.operands) :
    f.essence = i.essence := by
  unfold Form.essence Instruction.essence
  rw [h.1, h.2, Essence.of_plain]

theorem Form.Tells.fits {f : Form} {i : Instruction} (h : f.Tells i.mnemonic i.operands)
    (words : ∀ op ∈ i.operands.toList, op.Fits) : f.Fits := by
  unfold Form.Fits
  rw [h.2, Operands.toList_map]
  intro op member
  obtain ⟨written, inside, rfl⟩ := List.mem_map.mp member
  exact (words written inside).plain

/-- The bytes of an assembled instruction. -/
def Assembled.bytes (a : Assembled) : List Byte := a.code.map CodeByte.value

/-- An instruction that was read from a line and that the machine knows. -/
structure Instruction.Known (i : Instruction) : Prop where
  read : ∃ line n, Instruction.parse line n = .ok i
  form : (Form.ofInstruction? i).isSome

/-- The bytes of an instruction that the machine knows tell its length and what is kept of it,
whatever follows them. -/
theorem Instruction.Known.decode_bytes {i : Instruction} (h : i.Known) (ip : Word)
    (s : List Byte) :
    decode ip ((Assembled.ofInstruction i ip).bytes ++ s) =
      some ((Assembled.ofInstruction i ip).bytes.length, i.essence) := by
  obtain ⟨⟨line, n, read⟩, form⟩ := h
  obtain ⟨f, hf⟩ := Option.isSome_iff_exists.mp form
  have tells := Form.tells_of_ofInstruction? hf
  have fits : f.Fits := tells.fits (Instruction.fits_of_parse read)
  have bytes : (Assembled.ofInstruction i ip).bytes = f.bytes ip := by
    unfold Assembled.bytes Assembled.ofInstruction
    rw [hf]
    rfl
  rw [bytes, ← tells.essence]
  exact Form.decode_bytes fits ip s

/-! ## Lists of instructions -/

/-- The bytes of instructions that lie one behind the other from an instruction pointer on. -/
def layout (ip : Word) : List Instruction → List Byte
  | [] => []
  | i :: is =>
    let bytes := (Assembled.ofInstruction i ip).bytes
    bytes ++ layout (ip + BitVec.ofNat 16 bytes.length) is

/-- The bytes of instructions that the machine knows are not none. -/
theorem layout_cons_ne_nil {i : Instruction} (h : i.Known) (ip : Word) (is : List Instruction) :
    layout ip (i :: is) ≠ [] := by
  intro empty
  have front := h.decode_bytes ip (layout (ip + BitVec.ofNat 16
    (Assembled.ofInstruction i ip).bytes.length) is)
  unfold layout at empty
  rw [empty] at front
  cases front

theorem essence_eq_of_layout_eq {is js : List Instruction} (his : ∀ i ∈ is, i.Known)
    (hjs : ∀ j ∈ js, j.Known) {ip : Word} (same : layout ip is = layout ip js) :
    is.map Instruction.essence = js.map Instruction.essence := by
  induction is generalizing js ip with
  | nil =>
    cases js with
    | nil => rfl
    | cons j js => exact absurd same.symm (layout_cons_ne_nil (hjs j (by simp)) ip js)
  | cons i is ih =>
    cases js with
    | nil => exact absurd same (layout_cons_ne_nil (his i (by simp)) ip is)
    | cons j js =>
      simp only [layout] at same
      -- The common bytes are read once as `i` and once as `j`, so both have one length, and what
      -- follows them starts at one instruction pointer.
      have first := (his i (by simp)).decode_bytes ip
        (layout (ip + BitVec.ofNat 16 (Assembled.ofInstruction i ip).bytes.length) is)
      have second := (hjs j (by simp)).decode_bytes ip
        (layout (ip + BitVec.ofNat 16 (Assembled.ofInstruction j ip).bytes.length) js)
      rw [same, second] at first
      obtain ⟨length, essence⟩ := Prod.ext_iff.mp (Option.some.inj first)
      obtain ⟨_, rest⟩ := List.append_inj same length.symm
      dsimp only at length essence
      rw [length] at rest
      rw [List.map_cons, List.map_cons, essence]
      exact congrArg _ (ih (fun k hk => his k (by simp [hk])) (fun k hk => hjs k (by simp [hk])) rest)

/-- Machine code delimits itself and can be read back: whatever bytes follow those of an instruction
that was read from a line and that the machine knows, they give its length, its mnemonic and its
operands. Two lists of such instructions with the same bytes are the same, up to what code does not
keep. -/
theorem code_tells_instructions :
    (∀ (line : String) (n : Int) (i : Instruction), Instruction.parse line n = .ok i →
      (Form.ofInstruction? i).isSome → ∀ (ip : Word) (s : List Byte),
        decode ip ((Assembled.ofInstruction i ip).bytes ++ s) =
          some ((Assembled.ofInstruction i ip).code.length, i.essence)) ∧
    ∀ (ip : Word) (is js : List Instruction), (∀ i ∈ is, i.Known) → (∀ j ∈ js, j.Known) →
      layout ip is = layout ip js → is.map Instruction.essence = js.map Instruction.essence := by
  refine ⟨?_, fun ip is js his hjs same => essence_eq_of_layout_eq his hjs same⟩
  intro line n i read form ip s
  have known : i.Known := ⟨⟨line, n, read⟩, form⟩
  rw [known.decode_bytes ip s, Assembled.bytes, List.length_map]

/-- A jump under one of its two mnemonics. -/
def jumpIfZero : Instruction := ⟨"JZ", .one (.immediate 0x105 "0105H"), "JZ 0105H", 1⟩

/-- The same jump under the other mnemonic, to a place 100H behind. -/
def jumpIfEqual : Instruction := ⟨"JE", .one (.immediate 0x205 "0205H"), "JE 0205H", 1⟩

/-- Both have the same two bytes, and these tell what the two have in common. -/
theorem jumpIfZero_code :
    decode 0x100 [0x74, 0x03, 0x90] = some (2, ⟨"JE", .one (numberOperand 5)⟩) ∧
      [jumpIfZero].map Instruction.essence = [jumpIfEqual].map Instruction.essence := by
  have zero : Instruction.parse "JZ 0105H" 1 = .ok jumpIfZero := by rfl
  have equal : Instruction.parse "JE 0205H" 1 = .ok jumpIfEqual := by rfl
  obtain ⟨reads, tells⟩ := code_tells_instructions
  refine ⟨reads "JZ 0105H" 1 jumpIfZero zero rfl 0x100 [0x90], ?_⟩
  refine tells 0x100 [jumpIfZero] [jumpIfEqual] ?_ ?_ (by decide +kernel)
  · intro i hi
    obtain rfl := List.mem_singleton.mp hi
    exact ⟨⟨_, _, zero⟩, rfl⟩
  · intro j hj
    obtain rfl := List.mem_singleton.mp hj
    exact ⟨⟨_, _, equal⟩, rfl⟩

end BusCycle
