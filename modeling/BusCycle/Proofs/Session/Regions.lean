-- The regions of the classic layout. Code, stack and data have a segment of 10000H bytes each, one
-- behind the other, and no program can make one of them reach into another, except for the high byte
-- of a word at the very end of a segment. For that the program must leave the two segment registers
-- alone that it is able to load.
import BusCycle.Proofs.Session.Consistency

namespace BusCycle

/-! ## Tags -/

/-- The tags of the bytes that a fetch writes. -/
def codeTags : List String :=
  ["Opcode", "ModRM", "Displacement low", "Displacement high", "Immediate low", "Immediate high",
    "Byte"]

def stackTags : List String := ["Stack low", "Stack high"]

def dataTags : List String := ["Data low", "Data high"]

/-- The tags of the bytes of a word that was pushed or stored. -/
def wordTags : List String := stackTags ++ dataTags

/-- Machine code in which each byte has a tag of code. -/
def TaggedAsCode (code : List CodeByte) : Prop := ∀ b ∈ code, b.tag ∈ codeTags

theorem taggedAsCode_nil : TaggedAsCode [] := List.forall_mem_nil _

theorem taggedAsCode_cons {b : CodeByte} {code : List CodeByte} :
    TaggedAsCode (b :: code) ↔ b.tag ∈ codeTags ∧ TaggedAsCode code := List.forall_mem_cons

theorem TaggedAsCode.opcode {code : List CodeByte} (h : TaggedAsCode code) (n : Nat) :
    TaggedAsCode (.opcode n :: code) :=
  taggedAsCode_cons.mpr ⟨by simp [CodeByte.opcode, codeTags], h⟩

theorem TaggedAsCode.modRm {code : List CodeByte} (h : TaggedAsCode code) (mode reg rm : Nat) :
    TaggedAsCode (.modRm mode reg rm :: code) :=
  taggedAsCode_cons.mpr ⟨by simp [CodeByte.modRm, codeTags], h⟩

theorem taggedAsCode_immediateBytes (w : Word) : TaggedAsCode (immediateBytes w) := by
  simp [TaggedAsCode, immediateBytes, codeTags]

theorem taggedAsCode_displacementBytes (w : Word) : TaggedAsCode (displacementBytes w) := by
  simp [TaggedAsCode, displacementBytes, codeTags]

theorem taggedAsCode_shortDisplacementBytes (w : Word) :
    TaggedAsCode (shortDisplacementBytes w) := by
  simp [TaggedAsCode, shortDisplacementBytes, codeTags]

theorem taggedAsCode_encodePlace (reg : General) (p : Place) : TaggedAsCode (p.encode reg) := by
  cases p with
  | si | di => exact taggedAsCode_nil.modRm _ _ _
  | literal d => exact (taggedAsCode_displacementBytes _).modRm _ _ _

theorem taggedAsCode_encodeTransfer (opcode short : Nat) (reg : General) (p : Place) :
    TaggedAsCode (encodeTransfer opcode short reg p) := by
  unfold encodeTransfer
  split
  · exact (taggedAsCode_displacementBytes _).opcode _
  · exact (taggedAsCode_encodePlace reg p).opcode _

theorem taggedAsCode_encodeBinaryImmediate (op : BinaryOp) (dest : General) (w : Word) :
    TaggedAsCode (encodeBinaryImmediate op dest w) := by
  unfold encodeBinaryImmediate
  split
  · exact (taggedAsCode_immediateBytes w).opcode _
  · exact ((taggedAsCode_immediateBytes w).modRm _ _ _).opcode _

theorem taggedAsCode_encodeUnary (op : UnaryOp) (r : General) : TaggedAsCode (encodeUnary op r) := by
  cases op with
  | inc | dec => exact taggedAsCode_nil.opcode _
  | not | neg => exact (taggedAsCode_nil.modRm _ _ _).opcode _

theorem Form.taggedAsCode_encode (f : Form) (ip : Word) : TaggedAsCode (f.encode ip) := by
  cases f with
  | moveImmediate dest value => exact (taggedAsCode_immediateBytes _).opcode _
  | move | loadSegment | storeSegment | binary => exact (taggedAsCode_nil.modRm _ _ _).opcode _
  | store dest src => exact taggedAsCode_encodeTransfer _ _ src dest
  | load dest src => exact taggedAsCode_encodeTransfer _ _ dest src
  | binaryImmediate op dest value => exact taggedAsCode_encodeBinaryImmediate op dest _
  | unary op dest => exact taggedAsCode_encodeUnary op dest
  | jump | call => exact (taggedAsCode_displacementBytes _).opcode _
  | branch | loop => exact (taggedAsCode_shortDisplacementBytes _).opcode _
  | ret | push | pop | pushFlags | popFlags | nop | halt | input | output =>
    exact taggedAsCode_nil.opcode _

theorem Assembled.taggedAsCode_placeholders (i : Instruction) : TaggedAsCode (placeholders i) := by
  unfold placeholders
  split <;> simp [TaggedAsCode, CodeByte.placeholder, codeTags]

/-- Whatever is fetched is tagged as code, known form or not. -/
theorem Assembled.taggedAsCode_ofInstruction (i : Instruction) (ip : Word) :
    TaggedAsCode (ofInstruction i ip).code := by
  unfold ofInstruction
  split
  · exact Form.taggedAsCode_encode _ ip
  · exact taggedAsCode_placeholders i

/-! ## Regions -/

/-- A cell whose tag belongs at its address. The end of the stack and the end of the data reach one
byte further than their segments. -/
inductive Cell.FitsAt (c : Cell) (a : Address) : Prop
  | code (low : 0x10000 ≤ a.toNat) (high : a.toNat ≤ 0x1FFFF) (tag : c.tag ∈ codeTags)
  | stack (low : 0x20000 ≤ a.toNat) (high : a.toNat ≤ 0x2FFFF) (tag : c.tag ∈ stackTags)
  | border (key : a.toNat = 0x30000) (tag : c.tag = "Stack high" ∨ c.tag = "Data low")
  | data (low : 0x30001 ≤ a.toNat) (high : a.toNat ≤ 0x3FFFF) (tag : c.tag ∈ dataTags)
  | beyond (key : a.toNat = 0x40000) (tag : c.tag = "Data high")

/-- A byte with a tag of code lies in the code segment. -/
theorem Cell.FitsAt.in_code {c : Cell} {a : Address} (h : c.FitsAt a) (tag : c.tag ∈ codeTags) :
    a.toNat ≤ 0x1FFFF := by
  cases h with
  | code _ high _ => exact high
  | stack _ _ other =>
    have apart : ∀ t ∈ codeTags, t ∉ stackTags := by decide
    exact absurd other (apart _ tag)
  | border _ other =>
    rcases other with other | other <;>
      · rw [other] at tag
        exact absurd tag (by decide)
  | data _ _ other =>
    have apart : ∀ t ∈ codeTags, t ∉ dataTags := by decide
    exact absurd other (apart _ tag)
  | beyond _ other =>
    rw [other] at tag
    exact absurd tag (by decide)

/-- A byte with a tag of the stack or of the data lies behind the code segment. -/
theorem Cell.FitsAt.behind_code {c : Cell} {a : Address} (h : c.FitsAt a)
    (tag : c.tag ∈ wordTags) : 0x20000 ≤ a.toNat := by
  cases h with
  | code _ _ other =>
    have apart : ∀ t ∈ wordTags, t ∉ codeTags := by decide
    exact absurd other (apart _ tag)
  | stack low _ _ => exact low
  | border key _ => omega
  | data low _ _ => omega
  | beyond key _ => omega

namespace Memory

/-- Every cell of the memory is as `P` says for its address. -/
def Every (P : Address → Cell → Prop) (m : Memory) : Prop := ∀ a c, m.cell? a = some c → P a c

variable {P : Address → Cell → Prop} {m : Memory}

theorem every_empty : empty.Every P := fun _ _ h => nomatch h

theorem Every.write (h : m.Every P) {a : Int} {v : Byte} {tag : String}
    (new : P (.ofInt a) ⟨v, tag⟩) : (m.write a v tag).Every P := by
  intro b c hc
  rw [cell?_write] at hc
  split at hc
  · rename_i same
    cases hc
    rw [same]
    exact new
  · exact h b c hc

theorem Every.writeWord (h : m.Every P) {a : Int} {w : Word} {lowTag highTag : String}
    (low : P (.ofInt a) ⟨lowByte w, lowTag⟩) (high : P (.ofInt (a + 1)) ⟨highByte w, highTag⟩) :
    (m.writeWord a w lowTag highTag).Every P :=
  (h.write low).write high

theorem Every.writeCode (h : m.Every P) {placed : List (Int × CodeByte)}
    (new : ∀ p ∈ placed, P (.ofInt p.1) ⟨p.2.value, p.2.tag⟩) : (m.writeCode placed).Every P := by
  induction placed generalizing m with
  | nil => exact h
  | cons p rest ih =>
    obtain ⟨first, later⟩ := List.forall_mem_cons.mp new
    exact ih (h.write first) later

end Memory

/-- An address below the end of the memory is the cell of its own number. -/
theorem Address.toNat_ofInt_of_lt {n : Nat} (h : n < 0x100000) : (ofInt n).toNat = n := by
  rw [ofInt, BitVec.toNat_ofInt]
  omega

/-! ## Where a cycle writes -/

namespace Machine

/-- A machine whose segment registers are those of the classic layout, and whose memory is in
order. -/
structure InRegions (m : Machine) : Prop where
  cs : m.registers.cs = 0x1000
  ss : m.registers.ss = 0x2000
  ds : m.registers.ds = 0x3000
  cells : m.memory.Every fun a c => c.FitsAt a

variable {m : Machine}

/-- Code lies in the code segment, wherever the instruction pointer is. -/
theorem toNat_codeCell {r : Registers} (cs : r.cs = 0x1000) (i : Nat) :
    0x10000 ≤ (Address.ofInt (codeAddress r i)).toNat ∧
      (Address.ofInt (codeAddress r i)).toNat ≤ 0x1FFFF := by
  have offset := (r.ip + BitVec.ofNat 16 i).isLt
  have place : codeAddress r i = (0x10000 + (r.ip + BitVec.ofNat 16 i).toNat : Nat) := by
    rw [codeAddress, cs]
    rfl
  rw [place, Address.toNat_ofInt_of_lt (by omega)]
  omega

theorem InRegions.fits_of_mem_placedCode (h : m.InRegions) {code : List CodeByte}
    (tagged : TaggedAsCode code) :
    ∀ p ∈ placedCode m.registers code, Cell.FitsAt ⟨p.2.value, p.2.tag⟩ (.ofInt p.1) := by
  intro p hp
  obtain ⟨i, within, rfl⟩ := List.mem_mapIdx.mp hp
  obtain ⟨low, high⟩ := toNat_codeCell h.cs i
  exact .code low high (tagged _ (List.getElem_mem within))

theorem InRegions.fetch (h : m.InRegions) {code : List CodeByte} (tagged : TaggedAsCode code) :
    (m.fetch code).InRegions where
  cs := h.cs
  ss := h.ss
  ds := h.ds
  cells := h.cells.writeCode (h.fits_of_mem_placedCode tagged)

end Machine

/-! ## Words -/

/-- The two cells of a word in a segment that begins at `base`. -/
theorem Address.toNat_wordCells {base : Nat} (room : base ≤ 0xE0000) (offset : Word) {place : Int}
    (h : place = (base + offset.toNat : Nat)) :
    (ofInt place).toNat = base + offset.toNat ∧
      (ofInt (place + 1)).toNat = base + offset.toNat + 1 := by
  have bound := offset.isLt
  have next : place + 1 = (base + offset.toNat + 1 : Nat) := by omega
  rw [next, h, toNat_ofInt_of_lt (by omega), toNat_ofInt_of_lt (by omega)]
  exact ⟨rfl, rfl⟩

namespace WordAccess

/-- A word that is written with tags that its two cells may have, but not with tags of code. -/
def Fits : WordAccess → Prop
  | read _ => True
  | write r value lowTag highTag =>
    (lowTag ∈ wordTags ∧ Cell.FitsAt ⟨lowByte value, lowTag⟩ (.ofInt r.physical)) ∧
      highTag ∈ wordTags ∧ Cell.FitsAt ⟨highByte value, highTag⟩ (.ofInt (r.physical + 1))

variable {a : WordAccess}

theorem Fits.memoryAfter (h : a.Fits) {m : Memory} (cells : m.Every fun b c => c.FitsAt b) :
    (a.memoryAfter m).Every fun b c => c.FitsAt b := by
  cases a with
  | read r => exact cells
  | write r value lowTag highTag => exact cells.writeWord h.1.2 h.2.2

/-- No word is written to the code segment. -/
theorem Fits.behind_code (h : a.Fits) : ∀ b ∈ a.written, 0x20000 ≤ b.toNat := by
  cases a with
  | read r => exact List.forall_mem_nil _
  | write r value lowTag highTag =>
    obtain ⟨⟨lowTag, low⟩, highTag, high⟩ := h
    refine List.forall_mem_cons.mpr ⟨low.behind_code lowTag, ?_⟩
    exact List.forall_mem_singleton.mpr (high.behind_code highTag)

end WordAccess

/-- At the last offset of the stack segment the high byte lies just behind the segment. -/
theorem Registers.fits_pushOf {r : Registers} (ss : r.ss = 0x2000) (value : Word) :
    (r.pushOf value).Fits := by
  have bound := (r.sp - 2).isLt
  have place : (r.reference .ss "SP" (r.sp - 2)).physical = (0x20000 + (r.sp - 2).toNat : Nat) := by
    unfold reference Reference.physical physicalAddress segment
    rw [ss]
    rfl
  obtain ⟨low, high⟩ := Address.toNat_wordCells (by decide) _ place
  refine ⟨⟨by decide, .stack (by omega) (by omega) (by simp [stackTags])⟩, by decide, ?_⟩
  by_cases last : (r.sp - 2).toNat = 0xFFFF
  · exact .border (by omega) (Or.inl rfl)
  · exact .stack (by omega) (by omega) (by simp [stackTags])

/-- The first byte of the data segment is the one that the stack can reach, and at the last offset
the high byte lies just behind the segment. -/
theorem Place.fits_write {r : Registers} (ds : r.ds = 0x3000) (p : Place) (value : Word) :
    (WordAccess.write (p.reference r) value "Data low" "Data high").Fits := by
  have bound := (p.offset r).2.isLt
  have place : (p.reference r).physical = (0x30000 + (p.offset r).2.toNat : Nat) := by
    unfold reference Registers.reference Reference.physical physicalAddress Registers.segment
    rw [ds]
    rfl
  obtain ⟨low, high⟩ := Address.toNat_wordCells (by decide) _ place
  refine ⟨⟨by decide, ?_⟩, by decide, ?_⟩
  · by_cases first : (p.offset r).2.toNat = 0
    · exact .border (by omega) (Or.inr rfl)
    · exact .data (by omega) (by omega) (by simp [dataTags])
  · by_cases last : (p.offset r).2.toNat = 0xFFFF
    · exact .beyond (by omega) rfl
    · exact .data (by omega) (by omega) (by simp [dataTags])

theorem Form.fits_access? {f : Form} {r : Registers} {access : WordAccess} (ss : r.ss = 0x2000)
    (ds : r.ds = 0x3000) (h : f.access? r = some access) : access.Fits := by
  cases f <;> cases h
  case store dest src => exact dest.fits_write ds _
  case call | push | pushFlags => exact Registers.fits_pushOf ss _
  all_goals exact trivial

/-! ## Segment registers -/

namespace Form

/-- The segment register that a form loads, if it loads one. -/
def loadedSegment? : Form → Option LoadableSegment
  | loadSegment dest _ => some dest
  | _ => none

/-- A form that loads neither the data segment register nor the stack segment register. -/
def KeepsSegments (f : Form) : Prop :=
  f.loadedSegment? ≠ some .ds ∧ f.loadedSegment? ≠ some .ss

/-- Only a load of a segment register changes one. -/
theorem segment_registersAfter {f : Form} {s : Segment}
    (h : ∀ dest ∈ f.loadedSegment?, dest.segment ≠ s) (r : Registers) (w : Word) :
    (f.registersAfter r w).segment s = r.segment s := by
  have other : f.dest? ≠ some (.segment s) := by
    cases f with
    | loadSegment dest src => simpa [dest?] using h dest rfl
    | binary op | binaryImmediate op => cases op <;> simp [dest?, BinaryOp.stores]
    | _ => simp [dest?]
  exact (get_registersAfter r w other (by simp) (by simp)).trans (by cases s <;> rfl)

/-- No form at all loads the code segment register. -/
theorem cs_registersAfter (f : Form) (r : Registers) (w : Word) :
    (f.registersAfter r w).cs = r.cs :=
  f.segment_registersAfter (s := .cs) (fun dest _ => by cases dest <;> decide) r w

theorem KeepsSegments.ss_registersAfter {f : Form} (h : f.KeepsSegments) (r : Registers)
    (w : Word) : (f.registersAfter r w).ss = r.ss := by
  refine f.segment_registersAfter (s := .ss) (fun dest loaded => ?_) r w
  cases dest with
  | ds | es => decide
  | ss => exact absurd loaded h.2

theorem KeepsSegments.ds_registersAfter {f : Form} (h : f.KeepsSegments) (r : Registers)
    (w : Word) : (f.registersAfter r w).ds = r.ds := by
  refine f.segment_registersAfter (s := .ds) (fun dest loaded => ?_) r w
  cases dest with
  | ss | es => decide
  | ds => exact absurd loaded h.1

end Form

namespace Program

/-- The segment register that the instruction on a line loads, if it loads one. -/
def loadedSegment? (line : String) : Option LoadableSegment := (form? line).bind Form.loadedSegment?

/-- A line that loads neither the data segment register nor the stack segment register. -/
def KeepsSegments (line : String) : Prop :=
  loadedSegment? line ≠ some .ds ∧ loadedSegment? line ≠ some .ss

instance (line : String) : Decidable (KeepsSegments line) :=
  inferInstanceAs (Decidable (loadedSegment? line ≠ some .ds ∧ loadedSegment? line ≠ some .ss))

theorem KeepsSegments.form {line : String} (h : KeepsSegments line) {f : Form}
    (hf : form? line = some f) : f.KeepsSegments := by
  unfold KeepsSegments loadedSegment? at h
  rw [hf] at h
  exact h

end Program

/-! ## A cycle keeps the regions apart -/

namespace Machine

variable {m : Machine} {a : Assembled}

theorem InRegions.executeForm (h : m.InRegions) {f : Form} (keeps : f.KeepsSegments) :
    (m.executeForm f).InRegions := by
  have did := m.did_executeForm f
  refine ⟨?_, ?_, ?_, ?_⟩
  · rw [did.registers, f.cs_registersAfter, h.cs]
  · rw [did.registers, keeps.ss_registersAfter, h.ss]
  · rw [did.registers, keeps.ds_registersAfter, h.ds]
  · rw [did.memory]
    rcases access : f.access? m.registers with _ | word
    · exact h.cells
    · exact (Form.fits_access? h.ss h.ds access).memoryAfter h.cells

theorem InRegions.execute (h : m.InRegions) (keeps : ∀ f, a.form = some f → f.KeepsSegments) :
    (m.execute a).InRegions := by
  unfold Machine.execute
  rcases form : a.form with _ | f
  · exact ⟨h.cs, h.ss, h.ds, h.cells⟩
  · exact h.executeForm (keeps f form)

/-- A fetch changes nothing behind the code segment. -/
theorem InRegions.cell?_fetch (h : m.InRegions) (code : List CodeByte) {b : Address}
    (behind : 0x20000 ≤ b.toNat) : (m.fetch code).memory.cell? b = m.memory.cell? b := by
  apply Machine.cell?_fetch
  intro mem
  obtain ⟨p, hp, rfl⟩ := List.mem_map.mp mem
  obtain ⟨i, _, rfl⟩ := List.mem_mapIdx.mp hp
  have inside := (toNat_codeCell h.cs i).2
  dsimp only at behind
  omega

/-- An execution changes nothing in the code segment. -/
theorem InRegions.cell?_execute (h : m.InRegions) (a : Assembled) {b : Address}
    (inside : b.toNat ≤ 0x1FFFF) : (m.execute a).memory.cell? b = m.memory.cell? b := by
  rw [(m.did_execute a).memory]
  rcases access : a.access? m.registers with _ | word
  · rfl
  · obtain ⟨f, _, moved⟩ := Option.bind_eq_some_iff.mp access
    have fits := Form.fits_access? h.ss h.ds moved
    refine word.cell?_memoryAfter _ fun written => ?_
    have behind := fits.behind_code b written
    omega

theorem inRegions_fresh (w : BusWidth) : (fresh Preset.classic.registers w).InRegions :=
  ⟨rfl, rfl, rfl, Memory.every_empty⟩

end Machine

/-! ## Sessions -/

/-- The fetch of the next instruction in a session. -/
theorem Machine.InRegions.fetch_ready {s : Session} (h : s.machine.InRegions) (i : Instruction) :
    (s.ready.fetch (s.assemble i).code).InRegions := by
  have ready : s.ready.InRegions := ⟨h.cs, h.ss, h.ds, h.cells⟩
  exact ready.fetch (Assembled.taggedAsCode_ofInstruction i s.machine.registers.ip)

namespace Account

/-- The regions are apart in a session with the classic layout whose program leaves the segments of
stack and data where they are. -/
def HasRegions (a : Account) : Prop :=
  a.session.config.preset = .classic ∧
    ((∀ line ∈ a.session.program, Program.KeepsSegments line) → a.session.machine.InRegions)

theorem HasRegions.of_fresh {s : Session} {begun : List Session} {w : BusWidth}
    (classic : s.config.preset = .classic) (machine : s.machine = .fresh s.config.preset.registers w)
    (inForce : BusWidth) : HasRegions ⟨s, begun, inForce⟩ := by
  refine ⟨classic, fun _ => ?_⟩
  dsimp only
  rw [machine, classic]
  exact Machine.inRegions_fresh w

theorem kept_hasRegions : Kept HasRegions where
  start a w program h _ _ := .of_fresh (s := a.session.start w program) h.1 rfl w
  reset a h := .of_fresh (s := a.session.reset) h.1 rfl a.session.width
  advance a line i h hl hi := by
    refine ⟨h.1, fun keeps => ?_⟩
    have mem : line ∈ a.session.program :=
      List.mem_of_getElem? (Session.getElem?_of_nextLine? hl)
    refine ((h.2 keeps).fetch_ready i).execute fun f form => (keeps line mem).form ?_
    rw [Program.form?_of_parse hi, ← Assembled.form_ofInstruction]
    exact form
  setWidth _ _ h _ := h

end Account

namespace Session

/-- In a session with the classic layout whose program loads neither the data segment register nor
the stack segment register, whatever operations led to it: the code segment is where it was, and each
byte in memory has a tag that belongs at its address. So the fetch of the next step leaves all bytes
of stack and data as they are, and what it then writes leaves all bytes of code as they are. -/
theorem regions_stay_apart {c : Config} {s : Session} (classic : c.preset = .classic)
    (reachable : Reachable c s) (keeps : ∀ line ∈ s.program, Program.KeepsSegments line) :
    s.machine.registers.cs = 0x1000 ∧
      (∀ a cell, s.machine.memory.cell? a = some cell → cell.FitsAt a) ∧
      (s.executes = true →
        (∀ a cell, s.machine.memory.cell? a = some cell → cell.tag ∈ wordTags →
          (s.machine.fetched s.line).memory.cell? a = some cell) ∧
        ∀ a cell, (s.machine.fetched s.line).memory.cell? a = some cell → cell.tag ∈ codeTags →
          s.step.2.machine.memory.cell? a = some cell) := by
  obtain ⟨ops, rfl⟩ := Account.exists_of_reachable reachable
  have regions : (Account.ofOperations c ops).session.machine.InRegions :=
    (Account.kept_hasRegions.ofOperations (.of_fresh classic rfl _) ops).2 keeps
  generalize (Account.ofOperations c ops).session = s at *
  refine ⟨regions.cs, regions.cells, fun executes => ⟨fun a cell held word => ?_, ?_⟩⟩
  · rw [← held]
    exact regions.cell?_fetch _ ((regions.cells a cell held).behind_code word)
  · intro a cell held code
    obtain ⟨line, i, hl, hi⟩ := line_of_executes executes
    have fetched := regions.fetch_ready i
    have same : (s.machine.fetched s.line).memory = (s.ready.fetch (s.assemble i).code).memory := by
      rw [line_of_nextLine? hl, Machine.fetched, Machine.codeOf_of_parse hi]
      rfl
    rw [same] at held
    rw [step_of_ok hl hi, ← held]
    exact fetched.cell?_execute _ ((fetched.cells a cell held).in_code code)

/-- A session that pushed a word at the end of the stack segment and is to store one among the data. -/
def atRegionEnds : Session :=
  (new .default).performAll [.load "mov sp, 1\npush ax\nmov [si], ax" none, .step, .step]

/-- The high byte of the word that was pushed lies just behind the stack segment. The next step leaves
it and the first byte of the code as they are. -/
theorem atRegionEnds_apart :
    atRegionEnds.machine.registers.cs = 0x1000 ∧
      (atRegionEnds.machine.fetched atRegionEnds.line).memory.cell? 0x30000 =
        some ⟨0, "Stack high"⟩ ∧
      atRegionEnds.step.2.machine.memory.cell? 0x10100 = some ⟨0xBC, "Opcode"⟩ := by
  have found : (∀ line ∈ atRegionEnds.program, Program.KeepsSegments line) ∧
      atRegionEnds.executes = true ∧
      atRegionEnds.machine.memory.cell? 0x30000 = some ⟨0, "Stack high"⟩ ∧
      (atRegionEnds.machine.fetched atRegionEnds.line).memory.cell? 0x10100 =
        some ⟨0xBC, "Opcode"⟩ := by
    decide +kernel
  obtain ⟨keeps, executes, stack, opcode⟩ := found
  have reachable : Reachable .default atRegionEnds := reachable_performAll .default _
  obtain ⟨cs, -, next⟩ := regions_stay_apart rfl reachable keeps
  obtain ⟨words, code⟩ := next executes
  have stays := words _ _ stack (by decide)
  have same := code _ _ opcode (by decide)
  exact ⟨cs, stays, same⟩

end Session

end BusCycle
