-- What each instruction means, told in whole numbers: what every register holds and what every cell of
-- the memory holds after a step, from what they held before it. A step does what is told here and
-- nothing else.
import BusCycle.Proofs.Instruction.Forms
import BusCycle.Proofs.Machine.Frame
import BusCycle.Proofs.Session.Operations
import Mathlib.Logic.Function.Basic

namespace BusCycle

/-! ## Registers and memory in whole numbers -/

/-- What each register holds, and the byte and the tag of each cell that was written. -/
structure Contents where
  register : Register → Nat
  cell : Address → Option (Nat × String)

namespace Contents

def general (c : Contents) (r : General) : Nat := c.register (.general r)

def segment (c : Contents) (s : Segment) : Nat := c.register (.segment s)

/-- One register holds another number, and nothing else changes. -/
def set (c : Contents) (r : Register) (value : Nat) : Contents :=
  { c with register := Function.update c.register r value }

/-- One cell holds another byte, and nothing else changes. Addresses count modulo `2 ^ 20`. -/
def store (c : Contents) (address value : Nat) (tag : String) : Contents :=
  { c with cell := Function.update c.cell (BitVec.ofNat 20 address) (some (value, tag)) }

/-- The low byte of a word goes to an address and the high byte to the next one. -/
def storeWord (c : Contents) (address word : Nat) (lowTag highTag : String) : Contents :=
  (c.store address (word % 256) lowTag).store (address + 1) (word / 256) highTag

/-- The byte at an address, zero where nothing was written. -/
def byteAt (c : Contents) (address : Nat) : Nat :=
  ((c.cell (BitVec.ofNat 20 address)).map Prod.fst).getD 0

def wordAt (c : Contents) (address : Nat) : Nat := c.byteAt address + 256 * c.byteAt (address + 1)

/-- After the fetch: byte `i` of the code lies at `CS:(IP + i)`, and `IP` is behind the code. -/
def fetch (c : Contents) (code : List CodeByte) : Contents :=
  let cs := c.segment .cs
  let ip := c.register .ip
  let stored := code.zipIdx.foldl
    (fun d p => d.store (16 * cs + (ip + p.2) % 65536) p.1.value.toNat p.1.tag) c
  stored.set .ip ((ip + code.length) % 65536)

end Contents

/-! ## Arithmetic in whole numbers -/

/-- A number as an operand: what is left of it modulo `2 ^ 16`. -/
def operandNumber (value : Int) : Nat := (value % 65536).toNat

/-- The result of an operation on two words. -/
def BinaryOp.result : BinaryOp → Nat → Nat → Nat
  | add, a, b => (a + b) % 65536
  | sub, a, b | cmp, a, b => (65536 + a - b) % 65536
  | and, a, b => a &&& b
  | or, a, b => a ||| b
  | xor, a, b => a ^^^ b

/-- The result of an operation on one word. -/
def UnaryOp.result : UnaryOp → Nat → Nat
  | inc, a => (a + 1) % 65536
  | dec, a => (a + 65535) % 65536
  | not, a => 65535 - a
  | neg, a => (65536 - a) % 65536

/-- The flags after a result: bit 6 says whether it is zero and bit 7 whether its bit 15 is set. All
other bits stay. -/
def flagsAfter (flags result : Nat) : Nat :=
  256 * (flags / 256) +
    (128 * (if 32768 ≤ result then 1 else 0) +
      (64 * (if result = 0 then 1 else 0) + flags % 64))

/-- Whether a conditional jump is taken, by the zero flag and the sign flag. -/
def Condition.taken (zero sign : Bool) : Condition → Bool
  | je | jz => zero
  | jne | jnz => !zero
  | js | jl => sign
  | jns | jge => !sign
  | jle => zero || sign
  | jg => !zero && !sign

namespace Contents

/-- Whether a bit of the flags is set. -/
def flag (c : Contents) (bit : Nat) : Bool := (c.register .flags).testBit bit

def setFlagsOf (c : Contents) (result : Nat) : Contents :=
  c.set .flags (flagsAfter (c.register .flags) result)

/-- An operation on a register and a number. A comparison stores nothing. -/
def compute (c : Contents) (op : BinaryOp) (dest : General) (right : Nat) : Contents :=
  let result := op.result (c.general dest) right
  match op with
  | .cmp => c.setFlagsOf result
  | _ => (c.setFlagsOf result).set (.general dest) result

/-- Where `SS:SP` points. -/
def stackTop (c : Contents) : Nat := 16 * c.segment .ss + c.general .sp

/-- `SP` goes down by two, and a word goes to where it points then. -/
def push (c : Contents) (word : Nat) : Contents :=
  let moved := c.set (.general .sp) ((c.general .sp + 65534) % 65536)
  moved.storeWord moved.stackTop word "Stack low" "Stack high"

/-- `SP` goes up by two. -/
def dropWord (c : Contents) : Contents := c.set (.general .sp) ((c.general .sp + 2) % 65536)

/-- The address of a place in the data segment. -/
def addressOf (c : Contents) : Place → Nat
  | .si => 16 * c.segment .ds + c.general .si
  | .di => 16 * c.segment .ds + c.general .di
  | .literal displacement => 16 * c.segment .ds + operandNumber displacement

end Contents

/-! ## The meaning of the forms -/

open Contents in
/-- What a form makes of registers and memory as the fetch left them. -/
def Form.meaning (c : Contents) : Form → Contents
  | moveImmediate dest value => c.set (.general dest) (operandNumber value)
  | move dest src => c.set (.general dest) (c.general src)
  | loadSegment dest src => c.set (.segment dest.segment) (c.general src)
  | storeSegment dest src => c.set (.general dest) (c.segment src)
  | store dest src => c.storeWord (c.addressOf dest) (c.general src) "Data low" "Data high"
  | load dest src => c.set (.general dest) (c.wordAt (c.addressOf src))
  | binary op dest src => c.compute op dest (c.general src)
  | binaryImmediate op dest value => c.compute op dest (operandNumber value)
  | unary op dest =>
    let result := op.result (c.general dest)
    (c.set (.general dest) result).setFlagsOf result
  | jump target => c.set .ip (operandNumber target)
  | call target => (c.push (c.register .ip)).set .ip (operandNumber target)
  | ret => c.dropWord.set .ip (c.wordAt c.stackTop)
  | branch condition target =>
    if condition.taken (c.flag 6) (c.flag 7) then c.set .ip (operandNumber target) else c
  | loop target =>
    let cx := (c.general .cx + 65535) % 65536
    let counted := c.set (.general .cx) cx
    if cx = 0 then counted else counted.set .ip (operandNumber target)
  | push src => c.push (c.general src)
  | pop dest => c.dropWord.set (.general dest) (c.wordAt c.stackTop)
  | pushFlags => c.push (c.register .flags)
  | popFlags => c.dropWord.set .flags (c.wordAt c.stackTop ||| 2)
  | nop | halt | input | output => c

/-! ## Contents of registers and memory -/

/-- Registers and memory in whole numbers. -/
def Contents.of (r : Registers) (m : Memory) : Contents :=
  ⟨fun reg => (r.get reg).toNat, fun a => (m.cell? a).map fun c => (c.value.toNat, c.tag)⟩

/-- What a machine holds, in whole numbers. -/
def Machine.contents (m : Machine) : Contents := .of m.registers m.memory

namespace Contents

variable (r : Registers) (m : Memory)

/-- A register that is set in the file is set in the contents. -/
theorem of_eq_set {r r' : Registers} {reg : Register} {w : Word}
    (h : ∀ x, r'.get x = if x = reg then w else r.get x) : of r' m = (of r m).set reg w.toNat := by
  unfold of set
  congr 1
  funext x
  rw [Function.update_apply, h x]
  split <;> rfl

theorem of_setGeneral (g : General) (w : Word) :
    of (r.setGeneral g w) m = (of r m).set (.general g) w.toNat :=
  of_eq_set m (r.get_setGeneral g w)

theorem of_setSegment (s : Segment) (w : Word) :
    of (r.setSegment s w) m = (of r m).set (.segment s) w.toNat :=
  of_eq_set m (r.get_setSegment s w)

theorem of_setIp (w : Word) : of { r with ip := w } m = (of r m).set .ip w.toNat := by
  apply of_eq_set
  rintro (g | s | _ | _) <;> rfl

theorem of_setSp (w : Word) : of { r with sp := w } m = (of r m).set (.general .sp) w.toNat :=
  of_setGeneral r m .sp w

theorem of_setFlags (f : Flags) :
    of { r with flags := f } m = (of r m).set .flags f.word.toNat := by
  apply of_eq_set
  rintro (g | s | _ | _) <;> rfl

/-! ### Memory -/

theorem of_write (a : Nat) (v : Byte) (tag : String) :
    of r (m.write a v tag) = (of r m).store a v.toNat tag := by
  have address : Address.ofInt a = BitVec.ofNat 20 a := BitVec.ofInt_natCast 20 a
  unfold of store
  congr 1
  funext b
  rw [Function.update_apply, Memory.write, Memory.cell?_put, address]
  split <;> rfl

theorem of_writeWord (a : Nat) (w : Word) (lowTag highTag : String) :
    of r (m.writeWord a w lowTag highTag) = (of r m).storeWord a w.toNat lowTag highTag := by
  have next : (a : Int) + 1 = (a + 1 : Nat) := by omega
  unfold Memory.writeWord storeWord
  rw [next, of_write, of_write, toNat_lowByte, toNat_highByte]

theorem byteAt_of (a : Nat) : (of r m).byteAt a = (m.read a).toNat := by
  have address : Address.ofInt a = BitVec.ofNat 20 a := BitVec.ofInt_natCast 20 a
  simp only [byteAt, of, Memory.read, Memory.cellAt, address]
  cases m.cell? (BitVec.ofNat 20 a) with
  | none => rfl
  | some c => rfl

theorem wordAt_of (a : Nat) : (of r m).wordAt a = (m.readWord a).toNat := by
  have next : (a : Int) + 1 = (a + 1 : Nat) := by omega
  unfold wordAt Memory.readWord
  rw [next, toNat_wordOf, byteAt_of, byteAt_of]

end Contents

/-! ## Arithmetic -/

theorem toNat_ofInt_eq_operandNumber (value : Int) :
    (BitVec.ofInt 16 value).toNat = operandNumber value :=
  BitVec.toNat_ofInt value

theorem BinaryOp.toNat_apply (op : BinaryOp) (a b : Word) :
    (op.apply a b).toNat = op.result a.toNat b.toNat := by
  have := a.isLt
  have := b.isLt
  cases op with
  | add => exact BitVec.toNat_add a b
  | sub | cmp =>
    simp only [apply, result, BitVec.toNat_sub]
    omega
  | and => exact BitVec.toNat_and a b
  | or => exact BitVec.toNat_or a b
  | xor => exact BitVec.toNat_xor a b

theorem UnaryOp.toNat_apply (op : UnaryOp) (a : Word) :
    (op.apply a).toNat = op.result a.toNat := by
  have := a.isLt
  cases op with
  | inc => exact BitVec.toNat_add a 1
  | dec =>
    have one : (1 : Word).toNat = 1 := rfl
    simp only [apply, result, BitVec.toNat_sub, one]
    omega
  | not => exact BitVec.toNat_not
  | neg => exact BitVec.toNat_neg a

/-! ## Flags, bit by bit -/

theorem testBit_flagsAfter (flags result i : Nat) :
    (flagsAfter flags result).testBit i =
      if i = 6 then decide (result = 0)
      else if i = 7 then decide (32768 ≤ result) else flags.testBit i := by
  have zero : 2 ^ 6 * (if result = 0 then 1 else 0) + flags % 2 ^ 6 < 2 ^ 7 := by
    split <;> omega
  have sign : 2 ^ 7 * (if 32768 ≤ result then 1 else 0) +
      (2 ^ 6 * (if result = 0 then 1 else 0) + flags % 2 ^ 6) < 2 ^ 8 := by
    split <;> omega
  have bits : flagsAfter flags result =
      2 ^ 8 * (flags / 2 ^ 8) + (2 ^ 7 * (if 32768 ≤ result then 1 else 0) +
        (2 ^ 6 * (if result = 0 then 1 else 0) + flags % 2 ^ 6)) := rfl
  rw [bits, Nat.testBit_two_pow_mul_add _ sign, Nat.testBit_two_pow_mul_add _ zero,
    Nat.testBit_two_pow_mul_add _ (Nat.mod_lt _ (by decide)), Nat.testBit_mod_two_pow,
    Nat.testBit_div_two_pow]
  rcases Nat.lt_or_ge i 8 with inside | above
  · rw [if_pos inside]
    by_cases h7 : i = 7
    · subst h7
      by_cases h : 32768 ≤ result <;> simp [h]
    · rw [if_pos (by omega), if_neg h7]
      by_cases h6 : i = 6
      · subst h6
        by_cases h : result = 0 <;> simp [h]
      · have below : i < 6 := by omega
        simp [below, h6]
  · rw [if_neg (by omega), if_neg (by omega), if_neg (by omega), Nat.sub_add_cancel above]

namespace Flags

/-- The zero and the sign flag come from the word, and every other bit stays. -/
theorem getLsbD_setZeroSign (f : Flags) (w : Word) (i : Nat) :
    (f.setZeroSign w).word.getLsbD i =
      if i = 6 ∨ i = 7 then w.getLsbD i else f.word.getLsbD i := by
  have word : (f.setZeroSign w).word =
      f.word &&& ~~~(BitVec.twoPow 16 6 ||| BitVec.twoPow 16 7) |||
        w &&& (BitVec.twoPow 16 6 ||| BitVec.twoPow 16 7) ||| BitVec.twoPow 16 1 := rfl
  have reserved := f.reserved
  rw [word]
  simp only [BitVec.getLsbD_or, BitVec.getLsbD_and, BitVec.getLsbD_not, BitVec.getLsbD_twoPow]
  rcases Nat.lt_or_ge i 16 with inside | outside
  · by_cases both : i = 6 ∨ i = 7
    · rcases both with rfl | rfl <;> simp
    · by_cases h1 : i = 1
      · subst h1
        simp [reserved]
      · have : 6 ≠ i ∧ 7 ≠ i ∧ 1 ≠ i := by omega
        simp [inside, both, this]
  · rw [BitVec.getLsbD_of_ge _ _ outside, BitVec.getLsbD_of_ge _ _ outside]
    have : 1 ≠ i := by omega
    simp [this]

theorem getLsbD_flagsOfResult (w : Word) (i : Nat) :
    (flagsOfResult w).getLsbD i =
      if i = 6 then decide (w = 0) else if i = 7 then w.getLsbD 15 else false := by
  have bit (p : Prop) [Decidable p] (k : Nat) (inside : k < 16) :
      (if p then BitVec.twoPow 16 k else 0).getLsbD i = (decide p && decide (k = i)) := by
    split <;> simp [*, BitVec.getLsbD_twoPow]
  have word : flagsOfResult w =
      (if w = 0 then BitVec.twoPow 16 6 else 0) |||
        (if w.getLsbD 15 = true then BitVec.twoPow 16 7 else 0) := rfl
  rw [word, BitVec.getLsbD_or, bit _ 6 (by decide), bit _ 7 (by decide)]
  by_cases h6 : i = 6
  · simp [h6]
  · by_cases h7 : i = 7
    · simp [h7]
    · have : 6 ≠ i ∧ 7 ≠ i := by omega
      simp [h6, h7, this]

theorem toNat_setZeroSign (f : Flags) (w : Word) :
    (f.setZeroSign (flagsOfResult w)).word.toNat = flagsAfter f.word.toNat w.toNat := by
  have zero : decide (w = 0) = decide (w.toNat = 0) := by
    simp [BitVec.toNat_eq]
  have sign : w.getLsbD 15 = decide (32768 ≤ w.toNat) := by
    have := w.isLt
    rw [BitVec.getLsbD, Nat.testBit_eq_decide_div_mod_eq]
    simp only [decide_eq_decide]
    omega
  apply Nat.eq_of_testBit_eq
  intro i
  rw [testBit_flagsAfter, BitVec.testBit_toNat, BitVec.testBit_toNat, getLsbD_setZeroSign,
    getLsbD_flagsOfResult, zero, sign]
  by_cases h6 : i = 6
  · simp [h6]
  · by_cases h7 : i = 7
    · simp [h7]
    · simp [h6, h7]

end Flags

/-! ## Meaning and execution -/

namespace Contents

variable (r : Registers) (m : Memory)

theorem physical_place (p : Place) : (p.reference r).physical = ((of r m).addressOf p : Nat) := by
  cases p with
  | si => rfl
  | di => rfl
  | literal displacement =>
    simp only [addressOf, ← toNat_ofInt_eq_operandNumber]
    rfl

theorem physical_stackTop : (r.reference .ss "SP" r.sp).physical = ((of r m).stackTop : Nat) := rfl

theorem of_withFlagsOf (result : Word) :
    of (r.withFlagsOf result) m = (of r m).setFlagsOf result.toNat := by
  unfold Registers.withFlagsOf setFlagsOf
  rw [of_setFlags, Flags.toNat_setZeroSign]
  rfl

theorem compute_of (op : BinaryOp) (dest : General) (right : Word) :
    (of r m).compute op dest right.toNat = of (r.afterBinary op dest right) m := by
  have result : op.result ((of r m).general dest) right.toNat =
      (op.apply (r.general dest) right).toNat := (op.toNat_apply _ _).symm
  have flags := of_withFlagsOf r m (op.apply (r.general dest) right)
  unfold compute Registers.afterBinary
  dsimp only
  rw [result, ← flags]
  cases op with
  | cmp => rfl
  | _ => exact (of_setGeneral _ m dest _).symm

theorem unary_of (op : UnaryOp) (dest : General) :
    Form.meaning (of r m) (.unary op dest) = of (r.afterUnary op dest) m := by
  have result : op.result ((of r m).general dest) = (op.apply (r.general dest)).toNat :=
    (op.toNat_apply _).symm
  simp only [Form.meaning, Registers.afterUnary, result]
  rw [of_withFlagsOf, of_setGeneral]

theorem loop_of (target : Int) :
    Form.meaning (of r m) (.loop target) = of (r.afterLoop (BitVec.ofInt 16 target)) m := by
  have cx : ((of r m).general .cx + 65535) % 65536 = (r.cx - 1).toNat :=
    (UnaryOp.toNat_apply .dec r.cx).symm
  have zero : ((r.cx - 1).toNat = 0) ↔ r.cx - 1 = 0 := by
    rw [BitVec.toNat_eq]
    rfl
  simp only [Form.meaning, Registers.afterLoop, cx, zero, ← of_setGeneral,
    ← toNat_ofInt_eq_operandNumber]
  split
  · rfl
  · exact (of_setIp _ m _).symm

theorem taken_of (condition : Condition) :
    condition.taken ((of r m).flag 6) ((of r m).flag 7) = condition.holds r.flags := by
  have zero : (of r m).flag 6 = r.flags.zero := rfl
  have sign : (of r m).flag 7 = r.flags.sign := rfl
  rw [zero, sign]
  cases condition <;> rfl

theorem push_of (value : Word) :
    (of r m).push value.toNat =
      of { r with sp := r.sp - 2 }
        (m.writeWord (r.reference .ss "SP" (r.sp - 2)).physical value "Stack low" "Stack high") := by
  have sp : ((of r m).general .sp + 65534) % 65536 = (r.sp - 2).toNat := by
    have two : (2 : Word).toNat = 2 := rfl
    rw [BitVec.toNat_sub, two, Nat.add_comm]
    rfl
  have top := physical_stackTop { r with sp := r.sp - 2 } m
  unfold push
  rw [sp, ← of_setSp]
  dsimp only
  rw [← of_writeWord, ← top]
  rfl

theorem dropWord_of : (of r m).dropWord = of { r with sp := r.sp + 2 } m := by
  have sp : ((of r m).general .sp + 2) % 65536 = (r.sp + 2).toNat := (BitVec.toNat_add r.sp 2).symm
  unfold dropWord
  rw [sp]
  exact (of_setSp r m _).symm

theorem wordAt_stackTop :
    (of r m).wordAt (of r m).stackTop = (m.readWord (r.reference .ss "SP" r.sp).physical).toNat := by
  rw [physical_stackTop r m, wordAt_of]

end Contents

open Contents in
/-- What a form means is what its execution does to registers and memory. -/
theorem Form.meaning_of (f : Form) (r : Registers) (m : Memory) :
    f.meaning (of r m) =
      of (f.registersAfter r ((f.access? r).elim 0 (·.wordFrom m)))
        ((f.access? r).elim m (·.memoryAfter m)) := by
  cases f with
  | moveImmediate dest value =>
    simp only [meaning, ← toNat_ofInt_eq_operandNumber]
    exact (of_setGeneral r m dest _).symm
  | move dest src => exact (of_setGeneral r m dest _).symm
  | loadSegment dest src => exact (of_setSegment r m dest.segment _).symm
  | storeSegment dest src => exact (of_setGeneral r m dest _).symm
  | store dest src =>
    have stored := of_writeWord r m ((of r m).addressOf dest) (r.general src) "Data low" "Data high"
    rw [← physical_place r m dest] at stored
    exact stored.symm
  | load dest src =>
    simp only [meaning, wordAt_of, ← physical_place]
    exact (of_setGeneral r m dest _).symm
  | binary op dest src => exact compute_of r m op dest (r.general src)
  | binaryImmediate op dest value =>
    simp only [meaning, ← toNat_ofInt_eq_operandNumber]
    exact compute_of r m op dest _
  | unary op dest => exact unary_of r m op dest
  | jump target =>
    simp only [meaning, ← toNat_ofInt_eq_operandNumber]
    exact (of_setIp r m _).symm
  | call target =>
    simp only [meaning, ← toNat_ofInt_eq_operandNumber]
    have pushed := push_of r m r.ip
    exact (congrArg (·.set .ip (BitVec.ofInt 16 target).toNat) pushed).trans
      (of_setIp _ _ _).symm
  | ret =>
    simp only [meaning, dropWord_of, wordAt_stackTop]
    exact (of_setIp _ m _).symm
  | branch condition target =>
    simp only [meaning, taken_of, registersAfter, ← toNat_ofInt_eq_operandNumber]
    split
    · exact (of_setIp r m _).symm
    · rfl
  | loop target => exact loop_of r m target
  | push src => exact push_of r m (r.general src)
  | pop dest =>
    simp only [meaning, dropWord_of, wordAt_stackTop]
    exact (of_setGeneral _ m dest _).symm
  | pushFlags => exact push_of r m r.flags.word
  | popFlags =>
    simp only [meaning, dropWord_of, wordAt_stackTop]
    -- The reserved bit of the flags is always set.
    exact (of_setFlags _ m (.ofWord _)).symm
  | nop | halt | input | output => rfl

/-! ## Whole steps -/

/-- The address of a byte of the code, in whole numbers. -/
theorem Machine.codeAddress_eq (r : Registers) (i : Nat) :
    codeAddress r i = (16 * r.cs.toNat + (r.ip.toNat + i) % 65536 : Nat) := by
  unfold codeAddress physicalAddress
  simp only [BitVec.toNat_add, BitVec.toNat_ofNat]
  omega

namespace Contents

theorem fetch_of (r : Registers) (m : Memory) (code : List CodeByte) :
    (of r m).fetch code =
      of { r with ip := r.ip + BitVec.ofNat 16 code.length } (m.writeCode (placedCode r code)) := by
  have ip : ((of r m).register .ip + code.length) % 65536 =
      (r.ip + BitVec.ofNat 16 code.length).toNat := by
    simp only [BitVec.toNat_add, BitVec.toNat_ofNat, Nat.add_mod_mod]
    rfl
  -- By the bytes, each with its index. The memory and the contents take them in the same order.
  have stored (l : List (CodeByte × Nat)) (m' : Memory) :
      l.foldl (fun d p => d.store (16 * r.cs.toNat + (r.ip.toNat + p.2) % 65536) p.1.value.toNat
          p.1.tag) (of r m') =
        of r (l.foldl (fun m' p => m'.write (Machine.codeAddress r p.2) p.1.value p.1.tag) m') := by
    induction l generalizing m' with
    | nil => rfl
    | cons p rest ih =>
      rw [List.foldl_cons, List.foldl_cons, ← ih, Machine.codeAddress_eq, of_write]
  unfold fetch Memory.writeCode placedCode
  rw [List.mapIdx_eq_zipIdx_map, List.foldl_map]
  dsimp only
  rw [ip]
  exact (congrArg (fun c : Contents => c.set .ip (r.ip + BitVec.ofNat 16 code.length).toNat)
    (stored code.zipIdx m)).trans (of_setIp r _ _).symm

end Contents

/-- What an assembled instruction makes of registers and memory: its code is fetched, and then its
form, if it has one, does what it means. -/
def Assembled.meaning (a : Assembled) (c : Contents) : Contents :=
  a.form.elim (c.fetch a.code) (·.meaning (c.fetch a.code))

theorem Machine.contents_cycle (m : Machine) (a : Assembled) :
    (m.cycle a).contents = a.meaning m.contents := by
  have fetched : m.contents.fetch a.code = (m.fetch a.code).contents := Contents.fetch_of _ _ _
  unfold Machine.contents Assembled.meaning at *
  rw [registers_cycle, memory_cycle, fetched]
  unfold Assembled.registersAfter wordRead cycleAccess? Assembled.access?
  cases a.form with
  | none => rfl
  | some f => exact (f.meaning_of _ _).symm

namespace Session

/-- A step on a line that can be read makes of registers and memory what the instruction on the line
means, and nothing else. It means what the one form means that tells the mnemonic and the operands of
the line; where no form tells them, only the fetch is left. -/
theorem step_does_what_line_means {s : Session} {line : String} {i : Instruction}
    (hl : s.nextLine? = some line) (hi : Instruction.parse line (s.pc + 1) = .ok i) :
    ∃ log next, s.step = (.ok (.executed s.pc line log), next) ∧
      (∀ f, (s.assemble i).form = some f ↔ f.Tells i.mnemonic i.operands) ∧
      next.machine.contents = (s.assemble i).meaning s.machine.contents := by
  refine ⟨_, _, step_of_ok hl hi, fun f => ?_, s.ready.contents_cycle (s.assemble i)⟩
  rw [← Form.ofInstruction?_eq_some_iff, assemble, Assembled.form_ofInstruction]

/-- A session whose one line pushes the stack pointer itself. -/
def pushingSp : Session :=
  ((new ⟨.ofInt 8, .zeroed, .whole 0⟩).perform (.load "push sp" none)).2

/-- The word that is pushed is the stack pointer from before the step. -/
theorem pushingSp_step :
    ∃ log next, pushingSp.step = (.ok (.executed 0 "PUSH SP" log), next) ∧
      next.machine.contents.general .sp = 0xFFFC ∧
      next.machine.contents.wordAt 0xFFFC = 0xFFFE := by
  have next : pushingSp.nextLine? = some "PUSH SP" := by decide +kernel
  have read : Instruction.parse "PUSH SP" (pushingSp.pc + 1) =
      .ok ⟨"PUSH", .one (.register "SP"), "PUSH SP", 1⟩ := by rfl
  obtain ⟨log, after, step, _, contents⟩ := step_does_what_line_means next read
  refine ⟨log, after, step, ?_, ?_⟩
  · rw [contents]
    decide +kernel
  · rw [contents]
    decide +kernel

end Session

end BusCycle
