-- The machine told in whole numbers. A number is masked where it is put into a register, into a cell
-- of the memory or into the two halves of a word on the bus, and nowhere else: what is computed in
-- between may be negative or have more than 16 bits. Each part of a cycle does to the numbers what
-- the machine does to its words.
import BusCycle.Proofs.Instruction.ByName
import BusCycle.Proofs.Machine.Frame
import BusCycle.Proofs.Memory.Keyed
import Mathlib.Logic.Function.Basic

namespace BusCycle

/-! ## Registers -/

/-- A number in each register. -/
abbrev RawRegisters := Register → Int

namespace RawRegisters

/-- What a register holds of a number that is put into it. The flags keep their reserved bit. -/
def held (reg : Register) (v : Int) : Int :=
  if reg = .flags then Int.lor (mask 16 v) 2 else mask 16 v

/-- Every register with a number put into it. -/
def load (given : Register → Int) : RawRegisters := fun reg => held reg (given reg)

/-- The registers with a number put into one of them. -/
def set (r : RawRegisters) (reg : Register) (v : Int) : RawRegisters :=
  Function.update r reg (held reg v)

/-- The bits of the zero and the sign flag. -/
def zeroSign : Int := Int.lor 0x40 0x80

/-- The zero and the sign flag taken from a number, all other bits kept. -/
def setZeroSign (r : RawRegisters) (flags : Int) : RawRegisters :=
  r.set .flags (Int.lor (Int.land (r .flags) (Int.lnot zeroSign)) (Int.land flags zeroSign))

end RawRegisters

/-! ## Arithmetic -/

/-- The zero and the sign flag of a result. -/
def flagsOfNumber (v : Int) : Int :=
  Int.lor (if mask 16 v = 0 then 0x40 else 0) (if Int.land (mask 16 v) 0x8000 ≠ 0 then 0x80 else 0)

def BinaryOp.applyRaw (op : BinaryOp) (a b : Int) : Int :=
  mask 16 <| match op with
    | add => a + b
    | sub | cmp => a - b
    | and => Int.land a b
    | or => Int.lor a b
    | xor => Int.xor a b

def UnaryOp.applyRaw (op : UnaryOp) (a : Int) : Int :=
  mask 16 <| match op with
    | inc => a + 1
    | dec => a - 1
    | not => Int.lnot a
    | neg => -a

def Condition.holdsRaw (c : Condition) (flags : Int) : Bool :=
  let zero : Bool := Int.land flags 0x40 ≠ 0
  let sign : Bool := Int.land flags 0x80 ≠ 0
  match c with
  | je | jz => zero
  | jne | jnz => !zero
  | js | jl => sign
  | jns | jge => !sign
  | jle => zero || sign
  | jg => !zero && !sign

/-! ## The machine -/

/-- A machine of whole numbers, with the transactions of the current step. -/
structure RawMachine where
  registers : RawRegisters
  memory : KeyedMemory
  width : BusWidth
  busStep : Int
  transactions : List Transaction
  history : List Reference

namespace RawMachine

/-- A new machine with given numbers in its registers. -/
def fresh (registers : RawRegisters) (width : BusWidth) : RawMachine :=
  ⟨registers, .empty, width, 1, [], []⟩

def set (m : RawMachine) (reg : Register) (v : Int) : RawMachine :=
  { m with registers := m.registers.set reg v }

/-- The machine as a step finds it. -/
def beginStep (m : RawMachine) (width : BusWidth) : RawMachine :=
  { m with width, transactions := [] }

def transfer (m : RawMachine) (t : Transfer) : RawMachine :=
  { m with
    busStep := m.busStep + 2
    transactions := m.transactions ++ [{ t with step := m.busStep }] }

def refer (m : RawMachine) (r : Reference) : RawMachine := { m with history := m.history ++ [r] }

/-! ### Words through the bus -/

/-- The transfers of a word. Its address and its number may be any. -/
def transferWord (m : RawMachine) (kind : TransferKind) (address value : Int)
    (lowTag highTag : String) : RawMachine :=
  let v := mask 16 value
  if m.width.lines = 16 then m.transfer ⟨kind, address, v, 2, [lowTag, highTag]⟩
  else
    (m.transfer ⟨kind, address, mask 8 v, 1, [lowTag]⟩).transfer
      ⟨kind, address + 1, mask 8 (v >>> (8 : Nat)), 1, [highTag]⟩

def dataReference (m : RawMachine) (segment : Register) (offsetName : String) (offset : Int) :
    Reference :=
  ⟨.data, m.registers segment, mask 16 offset, segment.name, offsetName⟩

def writeWord (m : RawMachine) (segment : Register) (offsetName : String) (offset value : Int)
    (lowTag highTag : String) : RawMachine :=
  let r := m.dataReference segment offsetName offset
  let m := m.refer r
  let m := { m with memory := m.memory.writeWord r.physical value lowTag highTag }
  m.transferWord .write r.physical value lowTag highTag

def readWord (m : RawMachine) (segment : Register) (offsetName : String) (offset : Int) :
    Int × RawMachine :=
  let r := m.dataReference segment offsetName offset
  let m := m.refer r
  let value := m.memory.readWord r.physical
  (value, m.transferWord .read r.physical value (m.memory.tagAt r.physical)
    (m.memory.tagAt (r.physical + 1)))

def push (m : RawMachine) (value : Int) : RawMachine :=
  let m := m.set (.general .sp) (m.registers (.general .sp) - 2)
  m.writeWord (.segment .ss) "SP" (m.registers (.general .sp)) value "Stack low" "Stack high"

def pop (m : RawMachine) : Int × RawMachine :=
  let (value, m) := m.readWord (.segment .ss) "SP" (m.registers (.general .sp))
  (value, m.set (.general .sp) (m.registers (.general .sp) + 2))

/-! ### The fetch -/

/-- The bytes of an instruction with their addresses. -/
def placed (m : RawMachine) (code : List RawByte) : List (Int × RawByte) :=
  code.mapIdx fun i b =>
    (physicalAddress (m.registers (.segment .cs)) (mask 16 (m.registers .ip + i)), b)

def writeCode (m : RawMachine) (placed : List (Int × RawByte)) : RawMachine :=
  { m with memory := placed.foldl (fun k p => k.write p.1 p.2.value p.2.tag) m.memory }

/-- One transfer for each byte. -/
def transferBytes (m : RawMachine) : List (Int × RawByte) → RawMachine
  | [] => m
  | (a, b) :: rest => (m.transfer ⟨.fetch, a, b.value, 1, [b.tag]⟩).transferBytes rest

/-- One transfer for each two bytes, and one for a byte left over. -/
def transferPairs (m : RawMachine) : List (Int × RawByte) → RawMachine
  | [] => m
  | [(a, b)] => m.transfer ⟨.fetch, a, b.value, 1, [b.tag]⟩
  | (a, low) :: (_, high) :: rest =>
    (m.transfer ⟨.fetch, a, Int.lor (high.value <<< (8 : Nat)) low.value, 2, [low.tag, high.tag]⟩)
      |>.transferPairs rest

def fetch (m : RawMachine) (code : List RawByte) : RawMachine :=
  let placed := m.placed code
  let ip := m.registers .ip
  let m := (m.refer (.fetch (m.registers (.segment .cs)) ip)).writeCode placed
  let m := if m.width.lines = 8 then m.transferBytes placed else m.transferPairs placed
  m.set .ip (ip + code.length)

/-! ### Forms -/

/-- The name and the number of the offset that a place gives. -/
def offset (m : RawMachine) : Place → String × Int
  | .si => ("SI", m.registers (.general .si))
  | .di => ("DI", m.registers (.general .di))
  | .literal displacement => ("disp", displacement)

def computeBinary (m : RawMachine) (op : BinaryOp) (dest : General) (right : Int) : RawMachine :=
  let result := op.applyRaw (m.registers (.general dest)) right
  let m := { m with registers := m.registers.setZeroSign (flagsOfNumber result) }
  if op.stores then m.set (.general dest) result else m

def computeUnary (m : RawMachine) (op : UnaryOp) (dest : General) : RawMachine :=
  let result := op.applyRaw (m.registers (.general dest))
  let m := m.set (.general dest) result
  { m with registers := m.registers.setZeroSign (flagsOfNumber result) }

def loop (m : RawMachine) (target : Int) : RawMachine :=
  let m := m.set (.general .cx) (m.registers (.general .cx) - 1)
  if m.registers (.general .cx) ≠ 0 then m.set .ip target else m

/-- The machine after a known form was executed. -/
def executeForm (m : RawMachine) : Form → RawMachine
  | .moveImmediate dest value => m.set (.general dest) value
  | .move dest src => m.set (.general dest) (m.registers (.general src))
  | .loadSegment dest src => m.set (.segment dest.segment) (m.registers (.general src))
  | .storeSegment dest src => m.set (.general dest) (m.registers (.segment src))
  | .store dest src =>
    m.writeWord (.segment .ds) (m.offset dest).1 (m.offset dest).2 (m.registers (.general src))
      "Data low" "Data high"
  | .load dest src =>
    let (value, m) := m.readWord (.segment .ds) (m.offset src).1 (m.offset src).2
    m.set (.general dest) value
  | .binary op dest src => m.computeBinary op dest (m.registers (.general src))
  | .binaryImmediate op dest value => m.computeBinary op dest value
  | .unary op dest => m.computeUnary op dest
  | .jump target => m.set .ip target
  | .call target => (m.push (m.registers .ip)).set .ip target
  | .ret =>
    let (value, m) := m.pop
    m.set .ip value
  | .branch condition target =>
    if condition.holdsRaw (m.registers .flags) then m.set .ip target else m
  | .loop target => m.loop target
  | .push src => m.push (m.registers (.general src))
  | .pop dest =>
    let (value, m) := m.pop
    m.set (.general dest) value
  | .pushFlags => m.push (m.registers .flags)
  | .popFlags =>
    let (value, m) := m.pop
    m.set .flags value
  | .nop | .halt | .input | .output => m

/-- The machine after an instruction was executed. One of no known form does nothing. -/
def execute (m : RawMachine) (i : Instruction) : RawMachine :=
  (Form.ofInstruction? i).elim m m.executeForm

/-- The machine after an instruction was encoded, fetched and executed. -/
def cycle (m : RawMachine) (i : Instruction) : Except Lapse RawMachine := do
  return (m.fetch (← i.encodeByName (m.registers .ip))).execute i

end RawMachine

/-! ## The same registers -/

/-- A word is what its number is cut to. -/
@[simp] theorem ofInt_toNat_word (w : Word) : BitVec.ofInt 16 (w.toNat : Int) = w := by
  rw [BitVec.ofInt_natCast, BitVec.ofNat_toNat, BitVec.setWidth_eq]

/-- A word has a bit exactly if its number has something in common with the bit's own number. -/
theorem land_two_pow_ne_zero (w : Word) (i : Nat) :
    Int.land (w.toNat : Int) ((2 ^ i : Nat) : Int) ≠ 0 ↔ w.getLsbD i = true := by
  show ((w.toNat &&& 2 ^ i : Nat) : Int) ≠ 0 ↔ w.toNat.testBit i = true
  rw [Nat.and_two_pow]
  cases w.toNat.testBit i <;> simp

theorem Registers.get_set (file : Registers) (reg reg' : Register) (w : Word) :
    (file.set reg w).get reg' =
      if reg' = reg then (if reg = .flags then w ||| 0x0002 else w) else file.get reg' := by
  cases reg with
  | general g => simpa [Registers.set] using file.get_setGeneral g w reg'
  | segment s => simpa [Registers.set] using file.get_setSegment s w reg'
  | ip =>
    by_cases same : reg' = .ip
    · subst same
      rfl
    · rw [if_neg same]
      exact file.get_setIp w same
  | flags =>
    by_cases same : reg' = .flags
    · subst same
      rfl
    · rw [if_neg same]
      exact file.get_setFlags _ same

/-- Flags have their reserved bit already. -/
theorem Flags.word_or_reserved (f : Flags) : f.word ||| 0x0002 = f.word := by
  have others : ∀ i < 16, i ≠ 1 → (0x0002 : Word).getLsbD i = false := by decide
  apply BitVec.eq_of_getLsbD_eq
  intro i hi
  rw [BitVec.getLsbD_or]
  by_cases one : i = 1
  · subst one
    rw [f.reserved, Bool.true_or]
  · rw [others i hi one, Bool.or_false]

namespace RawRegisters

/-- The numbers show the words of a register file. -/
def Shows (r : RawRegisters) (file : Registers) : Prop := ∀ reg, r reg = ((file.get reg).toNat : Int)

variable {r : RawRegisters} {file : Registers}

theorem held_eq (reg : Register) {v : Int} {w : Word} (same : BitVec.ofInt 16 v = w) :
    held reg v = ((if reg = .flags then w ||| 0x0002 else w).toNat : Int) := by
  subst same
  unfold held
  split
  · rw [← toNat_ofInt_eq_mask, BitVec.toNat_or]
    rfl
  · rw [← toNat_ofInt_eq_mask]

/-- A register shows the word that its number is cut to. -/
theorem Shows.word (h : r.Shows file) (reg : Register) : BitVec.ofInt 16 (r reg) = file.get reg := by
  rw [h reg, ofInt_toNat_word]

theorem Shows.set (h : r.Shows file) (reg : Register) {v : Int} {w : Word}
    (same : BitVec.ofInt 16 v = w) : (r.set reg v).Shows (file.set reg w) := by
  intro reg'
  rw [RawRegisters.set, Function.update_apply, Registers.get_set]
  split
  · exact held_eq reg same
  · exact h reg'

/-- The numbers of a register file, put into registers, show that file. -/
theorem shows_load (file : Registers) :
    (load fun reg => ((file.get reg).toNat : Int)).Shows file := by
  intro reg
  rw [load, held_eq reg (ofInt_toNat_word _)]
  split
  · rename_i flags
    subst flags
    exact congrArg (fun w : Word => (w.toNat : Int)) file.flags.word_or_reserved
  · rfl

end RawRegisters

/-! ## The same arithmetic -/

theorem ofInt_flagsOfNumber (v : Int) :
    BitVec.ofInt 16 (flagsOfNumber v) = flagsOfResult (.ofInt 16 v) := by
  have zero : mask 16 v = 0 ↔ BitVec.ofInt 16 v = 0 := by
    rw [← toNat_ofInt_eq_mask, BitVec.toNat_eq]
    exact Int.natCast_eq_zero
  have sign : Int.land (mask 16 v) 0x8000 ≠ 0 ↔ (BitVec.ofInt 16 v).getLsbD 15 = true := by
    rw [← toNat_ofInt_eq_mask]
    exact land_two_pow_ne_zero _ 15
  rw [flagsOfNumber, ofInt_lor, flagsOfResult, if_congr zero rfl rfl, if_congr sign rfl rfl]
  congr 1
  · split <;> rfl
  · split <;> rfl

theorem RawRegisters.Shows.setZeroSign {r : RawRegisters} {file : Registers} (h : r.Shows file)
    (v : Int) :
    (r.setZeroSign (flagsOfNumber v)).Shows (file.withFlagsOf (.ofInt 16 v)) := by
  have word : BitVec.ofInt 16 (Int.lor (Int.land (r .flags) (Int.lnot RawRegisters.zeroSign))
        (Int.land (flagsOfNumber v) RawRegisters.zeroSign)) =
      (file.flags.word &&& ~~~(Flags.zeroMask ||| Flags.signMask)) |||
        (flagsOfResult (.ofInt 16 v) &&& (Flags.zeroMask ||| Flags.signMask)) := by
    rw [ofInt_lor, ofInt_land, ofInt_lnot, ofInt_land, ofInt_flagsOfNumber, h.word .flags]
    rfl
  exact h.set .flags word

theorem BinaryOp.applyRaw_eq (op : BinaryOp) (a : Word) (b : Int) :
    op.applyRaw a.toNat b = ((op.apply a (.ofInt 16 b)).toNat : Int) := by
  unfold applyRaw
  rw [← toNat_ofInt_eq_mask]
  cases op with
  | add => rw [BitVec.ofInt_add, ofInt_toNat_word]; rfl
  | sub | cmp => rw [ofInt_sub, ofInt_toNat_word]; rfl
  | and => rw [ofInt_land, ofInt_toNat_word]; rfl
  | or => rw [ofInt_lor, ofInt_toNat_word]; rfl
  | xor => rw [ofInt_xor, ofInt_toNat_word]; rfl

theorem UnaryOp.applyRaw_eq (op : UnaryOp) (a : Word) :
    op.applyRaw a.toNat = ((op.apply a).toNat : Int) := by
  unfold applyRaw
  rw [← toNat_ofInt_eq_mask]
  cases op with
  | inc => rw [BitVec.ofInt_add, ofInt_toNat_word]; rfl
  | dec => rw [ofInt_sub, ofInt_toNat_word]; rfl
  | not => rw [ofInt_lnot, ofInt_toNat_word]; rfl
  | neg => rw [BitVec.ofInt_neg, ofInt_toNat_word]; rfl

theorem Condition.holdsRaw_eq (c : Condition) (f : Flags) :
    c.holdsRaw f.word.toNat = c.holds f := by
  have zero : decide (Int.land (f.word.toNat : Int) 0x40 ≠ 0) = f.zero := by
    rw [Bool.eq_iff_iff, decide_eq_true_iff]
    exact land_two_pow_ne_zero f.word 6
  have sign : decide (Int.land (f.word.toNat : Int) 0x80 ≠ 0) = f.sign := by
    rw [Bool.eq_iff_iff, decide_eq_true_iff]
    exact land_two_pow_ne_zero f.word 7
  unfold holdsRaw
  rw [zero, sign]
  rfl

/-! ## The same machine -/

namespace RawMachine

/-- The numbers show a machine. What is noted in its log does not matter. -/
structure Shows (k : RawMachine) (m : Machine) : Prop where
  registers : k.registers.Shows m.registers
  memory : k.memory.Shows m.memory
  width : k.width = m.width
  busStep : k.busStep = m.bus.step
  transactions : k.transactions = m.bus.transactions
  history : k.history = m.history

namespace Shows

variable {k : RawMachine} {m : Machine}

theorem fresh {r : RawRegisters} {file : Registers} (h : r.Shows file) (width : BusWidth) :
    (RawMachine.fresh r width).Shows (.fresh file width) :=
  ⟨h, .empty, rfl, rfl, rfl, rfl⟩

theorem beginStep (h : k.Shows m) (width : BusWidth) :
    (k.beginStep width).Shows { m with width, bus := m.bus.beginStep } :=
  ⟨h.registers, h.memory, rfl, h.busStep, rfl, h.history⟩

theorem note (h : k.Shows m) (n : Note) : k.Shows (m.note n) :=
  { h with transactions := h.transactions.trans (m.bus.transactions_note n).symm }

theorem setRegisters (h : k.Shows m) {r : RawRegisters} {file : Registers} (shows : r.Shows file) :
    Shows { k with registers := r } { m with registers := file } :=
  { h with registers := shows }

theorem set (h : k.Shows m) (reg : Register) {v : Int} {w : Word} (same : BitVec.ofInt 16 v = w) :
    (k.set reg v).Shows (m.setRegister reg w) :=
  h.setRegisters (h.registers.set reg same)

theorem refer (h : k.Shows m) (r : Reference) : (k.refer r).Shows (m.refer r) :=
  have formed : (k.refer r).Shows { m with history := m.history ++ [r] } :=
    ⟨h.registers, h.memory, h.width, h.busStep, h.transactions, congrArg (· ++ [r]) h.history⟩
  formed.note (.formed r)

theorem transfer (h : k.Shows m) (t : Transfer) :
    (k.transfer t).Shows { m with bus := m.bus.transfer t } := by
  refine { h with busStep := congrArg (· + 2) h.busStep, transactions := ?_ }
  show k.transactions ++ [{ t with step := k.busStep }] = (m.bus.transfer t).transactions
  rw [BusLog.transactions_transfer, h.transactions, h.busStep]
  rfl

/-! ### Words through the bus -/

theorem transferWord (h : k.Shows m) (kind : TransferKind) (address : Int) {value : Int} {w : Word}
    (same : BitVec.ofInt 16 value = w) (lowTag highTag : String) :
    (k.transferWord kind address value lowTag highTag).Shows
      (m.transferAll (Transfer.word m.width kind address w lowTag highTag)) := by
  subst same
  have low : mask 8 (mask 16 value) = ((lowByte (.ofInt 16 value)).toNat : Int) := by
    rw [← toNat_lowByte_ofInt, ofInt_mask]
  have high : mask 8 (mask 16 value >>> (8 : Nat)) = ((highByte (.ofInt 16 value)).toNat : Int) := by
    rw [← toNat_highByte_ofInt, ofInt_mask]
  have whole : mask 16 value =
      ((wordOf (lowByte (.ofInt 16 value)) (highByte (.ofInt 16 value))).toNat : Int) := by
    rw [wordOf_lowByte_highByte, toNat_ofInt_eq_mask]
  unfold RawMachine.transferWord Transfer.word
  dsimp only
  rw [h.width, low, high]
  split
  · rw [whole]
    exact h.transfer _
  · exact (h.transfer _).transfer _

theorem dataReference (h : k.Shows m) (segment : Register) (offsetName : String) {offset : Int}
    {w : Word} (same : BitVec.ofInt 16 offset = w) :
    k.dataReference segment offsetName offset = m.dataReference segment offsetName w := by
  subst same
  rw [RawMachine.dataReference, h.registers segment, ← toNat_ofInt_eq_mask]
  rfl

theorem setMemory (h : k.Shows m) {k' : KeyedMemory} {m' : Memory} (shows : k'.Shows m') :
    Shows { k with memory := k' } { m with memory := m' } :=
  { h with memory := shows }

theorem writeWord (h : k.Shows m) (segment : Register) (offsetName : String) {offset value : Int}
    {o w : Word} (sameOffset : BitVec.ofInt 16 offset = o) (same : BitVec.ofInt 16 value = w)
    (lowTag highTag : String) :
    (k.writeWord segment offsetName offset value lowTag highTag).Shows
      (m.writeWord segment offsetName o w lowTag highTag) := by
  unfold RawMachine.writeWord
  rw [h.dataReference segment offsetName sameOffset]
  have formed := h.refer (m.dataReference segment offsetName o)
  have written := formed.memory.writeWord (m.dataReference segment offsetName o).physical value
    lowTag highTag
  rw [same] at written
  exact (formed.setMemory written).transferWord .write _ same lowTag highTag

/-- A word that is read shows, and so does the machine after it was read. -/
theorem readWord (h : k.Shows m) (segment : Register) (offsetName : String) {offset : Int} {o : Word}
    (same : BitVec.ofInt 16 offset = o) :
    BitVec.ofInt 16 (k.readWord segment offsetName offset).1 = (m.readWord segment offsetName o).1 ∧
      (k.readWord segment offsetName offset).2.Shows (m.readWord segment offsetName o).2 := by
  unfold RawMachine.readWord
  dsimp only
  rw [h.dataReference segment offsetName same]
  have formed := h.refer (m.dataReference segment offsetName o)
  rw [formed.memory.readWord, formed.memory.tagAt, formed.memory.tagAt]
  exact ⟨ofInt_toNat_word _, formed.transferWord .read _ (ofInt_toNat_word _) _ _⟩

theorem push (h : k.Shows m) {value : Int} {w : Word} (same : BitVec.ofInt 16 value = w) :
    (k.push value).Shows (m.push w) := by
  have lower : BitVec.ofInt 16 (k.registers (.general .sp) - 2) = m.registers.sp - 2 := by
    rw [ofInt_sub, h.registers.word]
    rfl
  have moved := h.set (.general .sp) lower
  exact (moved.writeWord (.segment .ss) "SP" (moved.registers.word (.general .sp)) same _ _).note _

theorem pop (h : k.Shows m) :
    BitVec.ofInt 16 k.pop.1 = m.pop.1 ∧ k.pop.2.Shows m.pop.2 := by
  obtain ⟨value, read⟩ := h.readWord (.segment .ss) "SP" (h.registers.word (.general .sp))
  have higher : BitVec.ofInt 16
      ((k.readWord (.segment .ss) "SP" (k.registers (.general .sp))).2.registers (.general .sp) + 2) =
      (m.readWord (.segment .ss) "SP" m.registers.sp).2.registers.sp + 2 := by
    rw [BitVec.ofInt_add, read.registers.word]
    rfl
  exact ⟨value, (read.set (.general .sp) higher).note _⟩

/-! ### The fetch -/

/-- A byte of code in its place, with its value as a number. -/
def rawPlaced (placed : List (Int × CodeByte)) : List (Int × RawByte) :=
  placed.map fun p => (p.1, .ofCode p.2)

theorem placed (h : k.Shows m) (code : List CodeByte) :
    k.placed (code.map .ofCode) = rawPlaced (placedCode m.registers code) := by
  have address (i : Nat) : mask 16 (k.registers .ip + i) =
      ((m.registers.ip + BitVec.ofNat 16 i).toNat : Int) := by
    rw [← toNat_ofInt_eq_mask, BitVec.ofInt_add, h.registers.word, BitVec.ofInt_natCast]
    rfl
  unfold RawMachine.placed rawPlaced placedCode
  apply List.ext_getElem?
  intro i
  rw [List.getElem?_mapIdx, List.getElem?_map, List.getElem?_map, List.getElem?_mapIdx, address,
    h.registers (.segment .cs)]
  cases code[i]? with
  | none => rfl
  | some b => rfl

theorem writeCode (h : k.Shows m) (placed : List (Int × CodeByte)) :
    (k.writeCode (rawPlaced placed)).Shows { m with memory := m.memory.writeCode placed } := by
  refine h.setMemory ?_
  have memory := h.memory
  unfold rawPlaced Memory.writeCode
  generalize k.memory = store at memory ⊢
  generalize m.memory = cells at memory ⊢
  induction placed generalizing store cells with
  | nil => exact memory
  | cons p rest ih =>
    refine ih _ _ ?_
    have written := memory.write p.1 p.2.value.toNat p.2.tag
    rwa [BitVec.ofInt_natCast, BitVec.ofNat_toNat, BitVec.setWidth_eq] at written

theorem transferBytes (h : k.Shows m) (placed : List (Int × CodeByte)) :
    (k.transferBytes (rawPlaced placed)).Shows (m.transferAll (byteTransfers placed)) := by
  induction placed generalizing k m with
  | nil => exact h
  | cons p rest ih => exact ih (h.transfer _)

theorem transferPairs (h : k.Shows m) (placed : List (Int × CodeByte)) :
    (k.transferPairs (rawPlaced placed)).Shows (m.transferAll (pairTransfers placed)) := by
  induction placed using pairTransfers.induct generalizing k m with
  | case1 => exact h
  | case2 a b => exact h.transfer _
  | case3 a low b high rest ih =>
    have moved : (k.transfer ⟨.fetch, a,
        Int.lor ((high.value.toNat : Int) <<< (8 : Nat)) low.value.toNat, 2, [low.tag, high.tag]⟩).Shows
        { m with bus := m.bus.transfer (.pair .fetch a low.value high.value low.tag high.tag) } := by
      rw [shiftLeft_lor_bytes]
      exact h.transfer _
    exact ih moved

theorem fetch (h : k.Shows m) (code : List CodeByte) :
    (k.fetch (code.map .ofCode)).Shows (m.fetch code) := by
  have next : BitVec.ofInt 16 (k.registers .ip + (code.map RawByte.ofCode).length) =
      m.registers.ip + BitVec.ofNat 16 code.length := by
    rw [BitVec.ofInt_add, h.registers.word, BitVec.ofInt_natCast, List.length_map]
    rfl
  have reference :
      Reference.fetch (k.registers (.segment .cs)) (k.registers .ip) = m.fetchReference := by
    rw [h.registers, h.registers]
    rfl
  unfold RawMachine.fetch
  dsimp only
  rw [reference, h.placed]
  have laid := (h.refer m.fetchReference).writeCode (placedCode m.registers code)
  refine note (set ?_ .ip next) _
  rw [laid.width, fetchTransfers]
  dsimp only
  split
  · exact laid.transferBytes _
  · exact laid.transferPairs _

/-! ### Forms -/

theorem offset (h : k.Shows m) (place : Place) :
    (k.offset place).1 = (place.offset m.registers).1 ∧
      BitVec.ofInt 16 (k.offset place).2 = (place.offset m.registers).2 := by
  cases place with
  | si => exact ⟨rfl, h.registers.word (.general .si)⟩
  | di => exact ⟨rfl, h.registers.word (.general .di)⟩
  | literal displacement => exact ⟨rfl, rfl⟩

theorem moveTo (h : k.Shows m) (dest : Register) {v : Int} {w : Word}
    (same : BitVec.ofInt 16 v = w) : (k.set dest v).Shows (m.moveTo dest w) :=
  (h.set dest same).note _

theorem jumpTo (h : k.Shows m) {target : Int} {w : Word} (same : BitVec.ofInt 16 target = w) :
    (k.set .ip target).Shows (m.jumpTo w) :=
  (h.set .ip same).note _

theorem setResultFlags (h : k.Shows m) {result : Int} {w : Word}
    (same : BitVec.ofInt 16 result = w) :
    Shows { k with registers := k.registers.setZeroSign (flagsOfNumber result) }
      (m.setResultFlags w) := by
  subst same
  exact h.setRegisters (h.registers.setZeroSign result)

theorem computeBinary (h : k.Shows m) (op : BinaryOp) (dest : General) {right right' : Int}
    (same : BitVec.ofInt 16 right = .ofInt 16 right') :
    (k.computeBinary op dest right).Shows (m.computeBinary op dest right') := by
  have result : BitVec.ofInt 16 (op.applyRaw (k.registers (.general dest)) right) =
      op.apply (m.registers.general dest) (.ofInt 16 right') := by
    rw [h.registers, op.applyRaw_eq, ofInt_toNat_word, same]
    rfl
  have flagged := h.setResultFlags result
  unfold RawMachine.computeBinary Machine.computeBinary
  dsimp only
  split
  · exact (flagged.set (.general dest) result).note _
  · exact flagged.note _

theorem computeUnary (h : k.Shows m) (op : UnaryOp) (dest : General) :
    (k.computeUnary op dest).Shows (m.computeUnary op dest) := by
  have result : BitVec.ofInt 16 (op.applyRaw (k.registers (.general dest))) =
      op.apply (m.registers.general dest) := by
    rw [h.registers, op.applyRaw_eq, ofInt_toNat_word]
    rfl
  exact ((h.set (.general dest) result).setResultFlags result).note _

theorem branch (h : k.Shows m) (condition : Condition) (target : Int) :
    (if condition.holdsRaw (k.registers .flags) then k.set .ip target else k).Shows
      (m.branch condition (.ofInt 16 target)) := by
  have decided : condition.holdsRaw (k.registers .flags) = condition.holds m.registers.flags := by
    rw [h.registers]
    exact condition.holdsRaw_eq m.registers.flags
  rw [decided, Machine.branch]
  split
  · exact h.jumpTo rfl
  · exact h.note _

theorem loop (h : k.Shows m) (target : Int) :
    (k.loop target).Shows (m.loop (.ofInt 16 target)) := by
  have lower : BitVec.ofInt 16 (k.registers (.general .cx) - 1) = m.registers.cx - 1 := by
    rw [ofInt_sub, h.registers.word]
    rfl
  have counted := (h.set (.general .cx) lower).note (.counted (m.registers.cx - 1))
  have spent : (k.set (.general .cx) (k.registers (.general .cx) - 1)).registers (.general .cx) = 0 ↔
      m.registers.cx - 1 = 0 := by
    rw [counted.registers, Int.natCast_eq_zero, BitVec.toNat_eq]
    rfl
  unfold RawMachine.loop Machine.loop
  dsimp only
  by_cases zero : m.registers.cx - 1 = 0
  · rw [if_neg (not_not_intro (spent.mpr zero)), if_pos zero]
    exact counted.note _
  · rw [if_pos (mt spent.mp zero), if_neg zero]
    exact counted.jumpTo rfl

/-- What a form does to the numbers is what it does to the words. -/
theorem executeForm (h : k.Shows m) (f : Form) : (k.executeForm f).Shows (m.executeForm f) := by
  have word (reg : Register) := h.registers.word reg
  cases f with
  | moveImmediate dest value => exact h.moveTo (.general dest) rfl
  | move dest src => exact h.moveTo (.general dest) (word (.general src))
  | loadSegment dest src => exact h.moveTo (.segment dest.segment) (word (.general src))
  | storeSegment dest src => exact h.moveTo (.general dest) (word (.segment src))
  | store dest src =>
    obtain ⟨name, offset⟩ := h.offset dest
    have stored := h.writeWord (.segment .ds) (k.offset dest).1 offset (word (.general src))
      "Data low" "Data high"
    rw [name] at stored
    rwa [RawMachine.executeForm, name]
  | load dest src =>
    obtain ⟨name, offset⟩ := h.offset src
    obtain ⟨value, loaded⟩ := h.readWord (.segment .ds) (k.offset src).1 offset
    rw [name] at value loaded
    rw [RawMachine.executeForm, name]
    exact loaded.moveTo (.general dest) value
  | binary op dest src =>
    refine h.computeBinary op dest ?_
    rw [word (.general src)]
    exact (ofInt_toNat_word _).symm
  | binaryImmediate op dest value => exact h.computeBinary op dest rfl
  | unary op dest => exact h.computeUnary op dest
  | jump target => exact h.jumpTo rfl
  | call target => exact (h.push (word .ip)).jumpTo rfl
  | ret => exact h.pop.2.jumpTo h.pop.1
  | branch condition target => exact h.branch condition target
  | loop target => exact h.loop target
  | push src => exact h.push (word (.general src))
  | pop dest => exact h.pop.2.moveTo (.general dest) h.pop.1
  | pushFlags => exact h.push (word .flags)
  | popFlags => exact h.pop.2.moveTo .flags h.pop.1
  | nop | halt | input | output => exact h.note _

theorem execute (h : k.Shows m) (i : Instruction) (ip : Word) :
    (k.execute i).Shows (m.execute (.ofInstruction i ip)) := by
  unfold RawMachine.execute Machine.execute
  rw [Assembled.form_ofInstruction]
  cases Form.ofInstruction? i with
  | none => exact h.note _
  | some f => exact h.executeForm f

/-- The numbers of a machine lead to those of the machine after an instruction, without a fault. -/
theorem cycle (h : k.Shows m) (i : Instruction) :
    ∃ next, k.cycle i = .ok next ∧ next.Shows (m.cycle (.ofInstruction i m.registers.ip)) := by
  have code : i.encodeByName (k.registers .ip) =
      .ok ((Assembled.ofInstruction i m.registers.ip).code.map .ofCode) := by
    rw [h.registers]
    exact i.encodeByName_eq m.registers.ip
  refine ⟨_, ?_, (h.fetch (Assembled.ofInstruction i m.registers.ip).code).execute i _⟩
  rw [RawMachine.cycle, code]
  rfl

end Shows

end RawMachine

end BusCycle
