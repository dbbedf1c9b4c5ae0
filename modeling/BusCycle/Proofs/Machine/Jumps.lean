-- Jumps go where their code says. The code of a jump holds a distance and its execution takes a target;
-- here both are held against each other, with the instruction pointer behind the fetch between them.
import BusCycle.Proofs.Instruction.RoundTrip
import BusCycle.Proofs.Machine.Line
import BusCycle.Proofs.Session.Account

namespace BusCycle

/-! ## Targets -/

namespace Form

/-- The target of a form that has one. -/
def target? : Form → Option Int
  | jump target | call target | branch _ target | loop target => some target
  | _ => none

/-- Whether a form with a target leaves for it. A branch does if the flags meet its condition, and a
loop if `CX` is not zero once it is counted down. -/
def taken (r : Registers) : Form → Bool
  | branch condition _ => condition.holds r.flags
  | loop _ => r.cx - 1 ≠ 0
  | _ => true

/-- A jump or a call to a target, with a distance of two bytes in its code. -/
def IsNear (f : Form) (target : Int) : Prop := f = jump target ∨ f = call target

/-- A conditional jump or a loop to a target, with a distance of one byte in its code. -/
def IsShort (f : Form) (target : Int) : Prop :=
  (∃ condition, f = branch condition target) ∨ f = loop target

variable {f : Form} {target : Int}

theorem IsNear.target? (h : f.IsNear target) : f.target? = some target := by
  rcases h with rfl | rfl
  · rfl
  · rfl

theorem IsShort.target? (h : f.IsShort target) : f.target? = some target := by
  rcases h with ⟨condition, rfl⟩ | rfl
  · rfl
  · rfl

theorem IsNear.taken (h : f.IsNear target) (r : Registers) : f.taken r = true := by
  rcases h with rfl | rfl
  · rfl
  · rfl

/-- A form with a target leads to it, or leaves the instruction pointer behind the fetch. -/
theorem ip_registersAfter (h : f.target? = some target) (r : Registers) (w : Word) :
    (f.registersAfter r w).ip = if f.taken r then BitVec.ofInt 16 target else r.ip := by
  cases f with
  | jump t | call t =>
    cases h
    rfl
  | branch condition t =>
    cases h
    unfold registersAfter Form.taken
    dsimp only
    by_cases holds : condition.holds r.flags = true
    · rw [if_pos holds, if_pos holds]
    · rw [if_neg holds, if_neg holds]
  | loop t =>
    cases h
    unfold registersAfter Form.taken Registers.afterLoop
    dsimp only
    by_cases done : r.cx - 1 = 0
    · rw [if_pos done, if_neg (by simpa using done)]
      rfl
    · rw [if_neg done, if_pos (by simpa using done)]
  | _ => cases h

/-- The fetch changes nothing that a jump asks for. -/
theorem taken_setIp (f : Form) (r : Registers) (ip : Word) :
    f.taken { r with ip := ip } = f.taken r := by
  cases f <;> rfl

/-! ## Distances in code -/

theorem IsNear.bytes (h : f.IsNear target) (ip : Word) :
    ∃ opcode, f.bytes ip =
      [opcode, lowByte (distance target ip 3), highByte (distance target ip 3)] := by
  rcases h with rfl | rfl
  · exact ⟨_, rfl⟩
  · exact ⟨_, rfl⟩

theorem IsShort.bytes (h : f.IsShort target) (ip : Word) :
    ∃ opcode, f.bytes ip = [opcode, lowByte (distance target ip 2)] := by
  rcases h with ⟨condition, rfl⟩ | rfl
  · exact ⟨_, rfl⟩
  · exact ⟨_, rfl⟩

/-- A target that was read is a word. -/
theorem Fits.of_target? (fits : f.Fits) (h : f.target? = some target) :
    0 ≤ target ∧ target < 0x10000 := by
  cases f with
  | jump t | call t | branch _ t | loop t =>
    cases h
    exact fits (numberOperand _) (by simp [operands, Operands.toList])
  | _ => cases h

end Form

/-- The word of a distance leads from behind the instruction to the target. -/
theorem toNat_add_distance (target : Int) (ip length : Word) :
    (BitVec.ofInt 16 target).toNat =
      ((ip + length).toNat + ((lowByte (distance target ip length)).toNat +
        256 * (highByte (distance target ip length)).toNat)) % 65536 := by
  rw [← add_distance target ip length, BitVec.toNat_add, ← toNat_wordOf, wordOf_lowByte_highByte]

/-- The low byte of a distance, read as signed, leads from behind the instruction to the target but for
a multiple of 256, and right to the target just if the distance fits in a signed byte. -/
theorem lowByte_distance_leads {target : Int} (word : 0 ≤ target ∧ target < 0x10000)
    (ip length : Word) :
    let behind : Int := (ip + length).toNat
    let reached := behind + (lowByte (distance target ip length)).toInt
    target % 256 = reached % 256 ∧
      (target % 65536 = reached % 65536 ↔
        -128 ≤ signedReading ((target - behind) % 65536) ∧
          signedReading ((target - behind) % 65536) ≤ 127) := by
  have value : ((distance target ip length).toNat : Int) =
      (target - (ip + length).toNat) % 65536 := by
    have back := congrArg BitVec.toNat (add_distance target ip length)
    have := (distance target ip length).isLt
    have := (ip + length).isLt
    have goal := toNat_ofInt_of_fits word
    rw [BitVec.toNat_add] at back
    omega
  have low := toNat_lowByte (distance target ip length)
  have signed := BitVec.toInt_eq_toNat_cond (lowByte (distance target ip length))
  have := (distance target ip length).isLt
  dsimp only
  rw [signed, ← value]
  unfold signedReading
  constructor
  · split <;> omega
  · split <;> split <;> omega

/-! ## Jumps that are executed -/

namespace Program

theorem parse_of_form? {line : String} {f : Form} (h : form? line = some f) (n : Int) :
    ∃ i, Instruction.parse line n = .ok i ∧ Form.ofInstruction? i = some f := by
  unfold form? at h
  rcases hp : Instruction.parse line 0 with e | i
  · rw [hp] at h
    cases h
  · rw [hp] at h
    exact ⟨_, Instruction.parse_renumber hp n, h⟩

theorem fits_of_form? {line : String} {f : Form} (h : form? line = some f) : f.Fits := by
  obtain ⟨i, read, form⟩ := parse_of_form? h 0
  exact (Form.tells_of_ofInstruction? form).fits (Instruction.fits_of_parse read)

end Program

theorem Machine.codeOf_of_form? {line : String} {f : Form} (h : Program.form? line = some f)
    (m : Machine) : (m.codeOf line).map CodeByte.value = f.bytes m.registers.ip := by
  obtain ⟨i, read, form⟩ := Program.parse_of_form? h 0
  rw [Machine.codeOf_of_parse read m, Assembled.ofInstruction, form]
  rfl

/-- A jump with a distance of two bytes, from `ip` over `behind`, where its fetch ends, to `final`: the
distance leads from there to where the jump goes. -/
structure LeadsByWord (ip behind final : Word) (code : List Byte) : Prop where
  fetched : code.length = 3 ∧ behind.toNat = (ip.toNat + 3) % 65536
  distance : ∃ opcode low high, code = [opcode, low, high] ∧
    final.toNat = (behind.toNat + (low.toNat + 256 * high.toNat)) % 65536

/-- A jump with a distance of one byte, from `ip` over `behind`, where its fetch ends, to `final`. One
that is not taken stays there. One that is taken goes to its target, where the distance leads but for a
multiple of 256; and it leads there exactly if the way, read as signed, fits in a byte. -/
structure LeadsByByte (ip behind final : Word) (code : List Byte) (target : Int) (taken : Bool) :
    Prop where
  fetched : code.length = 2 ∧ behind.toNat = (ip.toNat + 2) % 65536
  stays : taken = false → final = behind
  goes : taken = true → (final.toNat : Int) = target
  distance : taken = true → ∃ opcode low, code = [opcode, low] ∧
    (final.toNat : Int) % 256 = (behind.toNat + low.toInt) % 256 ∧
    ((final.toNat : Int) % 65536 = (behind.toNat + low.toInt) % 65536 ↔
      -128 ≤ signedReading ((target - behind.toNat) % 65536) ∧
        signedReading ((target - behind.toNat) % 65536) ≤ 127)

namespace Form

variable {f : Form} {target : Int}

/-- The distance of a near jump leads to its target. -/
theorem IsNear.leads (h : f.IsNear target) (ip : Word) :
    LeadsByWord ip (ip + 3) (BitVec.ofInt 16 target) (f.bytes ip) := by
  obtain ⟨opcode, bytes⟩ := h.bytes ip
  rw [bytes]
  exact ⟨⟨rfl, BitVec.toNat_add _ _⟩, opcode, _, _, rfl, toNat_add_distance target ip 3⟩

/-- The distance of a short jump that is taken leads to its target as far as one byte can. -/
theorem IsShort.leads (h : f.IsShort target) (word : 0 ≤ target ∧ target < 0x10000) (ip : Word)
    (taken : Bool) :
    LeadsByByte ip (ip + 2) (if taken then BitVec.ofInt 16 target else ip + 2) (f.bytes ip) target
      taken := by
  obtain ⟨opcode, bytes⟩ := h.bytes ip
  have goes := toNat_ofInt_of_fits word
  rw [bytes]
  refine ⟨⟨rfl, BitVec.toNat_add _ _⟩, ?_, ?_, ?_⟩
  · rintro rfl
    rfl
  · rintro rfl
    exact goes
  · rintro rfl
    refine ⟨opcode, _, rfl, ?_⟩
    rw [if_pos rfl, goes]
    exact lowByte_distance_leads word ip 2

end Form

/-- The fetch leads behind the bytes of the form, also where the code segment wraps around. -/
theorem Machine.ip_fetched_of_form? {line : String} {f : Form} (h : Program.form? line = some f)
    (m : Machine) :
    (m.fetched line).registers.ip =
      m.registers.ip + BitVec.ofNat 16 (f.bytes m.registers.ip).length := by
  rw [← Machine.codeOf_of_form? h, List.length_map]
  rfl

namespace Session

/-- Where a step ends whose form has a target. -/
theorem ip_advance {s : Session} {line : String} {i : Instruction} {f : Form} {target : Int}
    (hi : Instruction.parse line (s.pc + 1) = .ok i) (form : Form.ofInstruction? i = some f)
    (h : f.target? = some target) :
    (s.advance line i).machine.registers.ip =
      if f.taken s.machine.registers then BitVec.ofInt 16 target
      else (s.machine.fetched line).registers.ip := by
  have assembled : (s.assemble i).form = some f := (Assembled.form_ofInstruction i _).trans form
  have same : (s.assemble i).code = s.machine.codeOf line :=
    (Machine.codeOf_of_parse hi s.machine).symm
  have cycled := s.ready.registers_cycle (s.assemble i)
  rw [Assembled.registersAfter, assembled, same] at cycled
  have ends := congrArg Registers.ip cycled
  have asked : f.taken (s.ready.fetch (s.machine.codeOf line)).registers =
      f.taken s.machine.registers := f.taken_setIp _ _
  rw [Option.elim_some, f.ip_registersAfter h, asked] at ends
  exact ends

/-- A step on a jump ends where the distance in its code leads from behind the fetch, whatever the
state of the machine, and its code is as long as the distance supposes. -/
theorem jumps_lead_where_code_says {s : Session} {line : String} {f : Form}
    (hl : s.nextLine? = some line) (hf : Program.form? line = some f) :
    ∃ log next, s.step = (.ok (.executed s.pc line log), next) ∧
      let ip := s.machine.registers.ip
      let behind := (s.machine.fetched line).registers.ip
      let final := next.machine.registers.ip
      let code := (s.machine.codeOf line).map CodeByte.value
      (∀ target, f.IsNear target → LeadsByWord ip behind final code) ∧
        ∀ target, f.IsShort target →
          LeadsByByte ip behind final code target (f.taken s.machine.registers) := by
  obtain ⟨i, hi, form⟩ := Program.parse_of_form? hf (s.pc + 1)
  have code := Machine.codeOf_of_form? hf s.machine
  have behind := s.machine.ip_fetched_of_form? hf
  refine ⟨_, _, step_of_ok hl hi, ?_, ?_⟩
  · intro target near
    obtain ⟨opcode, bytes⟩ := near.bytes s.machine.registers.ip
    have three : (s.machine.fetched line).registers.ip = s.machine.registers.ip + 3 := by
      rw [behind, bytes]
      rfl
    rw [ip_advance hi form near.target?, near.taken, code, three]
    exact near.leads _
  · intro target short
    obtain ⟨opcode, bytes⟩ := short.bytes s.machine.registers.ip
    have two : (s.machine.fetched line).registers.ip = s.machine.registers.ip + 2 := by
      rw [behind, bytes]
      rfl
    have word := (Program.fits_of_form? hf).of_target? short.target?
    rw [ip_advance hi form short.target?, code, two]
    exact short.leads word _ _

/-- A session at the last byte of the code segment, with a jump in front of it that will be taken and
whose target lies 2FFH behind the jump. -/
def jumpingFar : Session :=
  (new .default).performAll [.load "cmp ax, ax\njmp 0ffffh\nje 0300h" none, .step, .step]

/-- The byte of the distance leads back by one, and so not to the target but 300H in front of it. -/
theorem jumpingFar_leads :
    ∃ log next, jumpingFar.step = (.ok (.executed 2 "JE 0300H" log), next) ∧
      next.machine.registers.ip = 0x0300 ∧
      (jumpingFar.machine.codeOf "JE 0300H").map CodeByte.value = [0x74, 0xFF] ∧
      LeadsByByte 0xFFFF 0x0001 0x0300 [0x74, 0xFF] 0x300 true := by
  have found : jumpingFar.nextLine? = some "JE 0300H" ∧ jumpingFar.pc = 2 ∧
      jumpingFar.machine.registers.ip = 0xFFFF ∧
      (jumpingFar.machine.fetched "JE 0300H").registers.ip = 0x0001 ∧
      (jumpingFar.machine.codeOf "JE 0300H").map CodeByte.value = [0x74, 0xFF] ∧
      (Form.branch .je 0x300).taken jumpingFar.machine.registers = true := by
    decide +kernel
  obtain ⟨next, pc, ip, behind, code, taken⟩ := found
  have form : Program.form? "JE 0300H" = some (.branch .je 0x300) := by decide +kernel
  obtain ⟨log, after, step, -, short⟩ := jumps_lead_where_code_says next form
  have leads := short 0x300 (Or.inl ⟨.je, rfl⟩)
  rw [ip, behind, code, taken] at leads
  have final : after.machine.registers.ip = 0x0300 := by
    have goes := leads.goes rfl
    have value : (0x0300 : Word).toNat = 0x300 := rfl
    apply BitVec.eq_of_toNat_eq
    omega
  rw [pc] at step
  rw [final] at leads
  exact ⟨log, after, step, final, code, leads⟩

end Session

end BusCycle
