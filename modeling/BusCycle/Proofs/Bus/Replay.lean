-- The transactions of a step are a full account of what it did to the memory: played back over the
-- memory from before the step they give the memory after it, and what they read is what was there.
import BusCycle.Proofs.Machine.Effect
import BusCycle.Proofs.Session.Operations

namespace BusCycle

/-! ## Playing transactions back -/

namespace Transfer

/-- The memory after a transfer, told from its data and its tags alone. A read stores nothing. -/
def storeIn (m : Memory) (t : Transfer) : Memory :=
  match t.kind, t.width with
  | .read, _ => m
  | _, 1 => m.write t.address (BitVec.ofInt 8 t.data) (t.tags.getD 0 "")
  | _, 2 =>
    (m.write t.address (BitVec.ofInt 8 (t.data % 256)) (t.tags.getD 0 "")).write (t.address + 1)
      (BitVec.ofInt 8 (t.data / 256)) (t.tags.getD 1 "")
  | _, _ => m

/-- A transfer has the bytes and the tags that a memory holds at its address. -/
def Shows (m : Memory) (t : Transfer) : Prop :=
  match t.width with
  | 1 => t.data = (m.read t.address).toNat ∧ t.tags = [m.tagAt t.address]
  | 2 =>
    t.data = (m.read t.address).toNat + 256 * (m.read (t.address + 1)).toNat ∧
      t.tags = [m.tagAt t.address, m.tagAt (t.address + 1)]
  | _ => False

end Transfer

/-- Wherever two code bytes are fetched as a pair, the second lies behind the first. -/
def PairsMeet (placed : List (Int × CodeByte)) : Prop :=
  ∀ i, (h : 2 * i + 1 < placed.length) → placed[2 * i + 1].1 = placed[2 * i].1 + 1

namespace Memory

/-- The memory after transfers were played back. -/
def replay (m : Memory) (ts : List Transfer) : Memory := ts.foldl Transfer.storeIn m

/-- Every read among transfers shows what the memory holds when its turn comes. -/
def ReadsShow (m : Memory) : List Transfer → Prop
  | [] => True
  | t :: ts => (t.kind = .read → t.Shows m) ∧ (t.storeIn m).ReadsShow ts

@[simp] theorem replay_nil (m : Memory) : m.replay [] = m := rfl

@[simp] theorem replay_cons (m : Memory) (t : Transfer) (ts : List Transfer) :
    m.replay (t :: ts) = (t.storeIn m).replay ts := rfl

theorem replay_append (m : Memory) (ts us : List Transfer) :
    m.replay (ts ++ us) = (m.replay ts).replay us :=
  List.foldl_append

theorem readsShow_append {m : Memory} {ts us : List Transfer} :
    m.ReadsShow (ts ++ us) ↔ m.ReadsShow ts ∧ (m.replay ts).ReadsShow us := by
  induction ts generalizing m with
  | nil => simp [ReadsShow]
  | cons t ts ih =>
    simp only [List.cons_append, ReadsShow, replay_cons, ih, and_assoc]

theorem readsShow_of_no_read {m : Memory} {ts : List Transfer} (h : ∀ t ∈ ts, t.kind ≠ .read) :
    m.ReadsShow ts := by
  induction ts generalizing m with
  | nil => trivial
  | cons t ts ih =>
    refine ⟨fun read => absurd read (h t (by simp)), ih fun u hu => h u (by simp [hu])⟩

/-! ## Bytes and words -/

theorem storeIn_byte (m : Memory) {kind : TransferKind} (h : kind ≠ .read) (a : Int) (v : Byte)
    (tag : String) : (Transfer.byte kind a v tag).storeIn m = m.write a v tag := by
  have value : BitVec.ofInt 8 (v.toNat : Int) = v := by simp
  cases kind with
  | read => exact absurd rfl h
  | fetch => simp only [Transfer.storeIn, Transfer.byte, value, List.getD_cons_zero]
  | write => simp only [Transfer.storeIn, Transfer.byte, value, List.getD_cons_zero]

theorem storeIn_pair (m : Memory) {kind : TransferKind} (h : kind ≠ .read) (a : Int)
    (low high : Byte) (lowTag highTag : String) :
    (Transfer.pair kind a low high lowTag highTag).storeIn m =
      (m.write a low lowTag).write (a + 1) high highTag := by
  have hl := low.isLt
  have hh := high.isLt
  have first : BitVec.ofInt 8 (((wordOf low high).toNat : Int) % 256) = low := by
    apply BitVec.eq_of_toNat_eq
    rw [BitVec.toNat_ofInt, toNat_wordOf]
    omega
  have second : BitVec.ofInt 8 (((wordOf low high).toNat : Int) / 256) = high := by
    apply BitVec.eq_of_toNat_eq
    rw [BitVec.toNat_ofInt, toNat_wordOf]
    omega
  cases kind with
  | read => exact absurd rfl h
  | fetch =>
    simp only [Transfer.storeIn, Transfer.pair, first, second, List.getD_cons_zero,
      List.getD_cons_succ]
  | write =>
    simp only [Transfer.storeIn, Transfer.pair, first, second, List.getD_cons_zero,
      List.getD_cons_succ]

/-- A word that is written leaves the same memory on either bus. -/
theorem replay_word_write (m : Memory) (width : BusWidth) (a : Int) (value : Word)
    (lowTag highTag : String) :
    m.replay (Transfer.word width .write a value lowTag highTag) =
      m.writeWord a value lowTag highTag := by
  unfold Transfer.word
  split
  · rw [replay_cons, replay_nil, storeIn_pair _ (by decide)]
    rfl
  · rw [replay_cons, replay_cons, replay_nil, storeIn_byte _ (by decide), storeIn_byte _ (by decide)]
    rfl

theorem replay_word_read (m : Memory) (width : BusWidth) (a : Int) (value : Word)
    (lowTag highTag : String) :
    m.replay (Transfer.word width .read a value lowTag highTag) = m := by
  unfold Transfer.word
  split
  · rfl
  · rfl

theorem readsShow_word (m : Memory) (width : BusWidth) (a : Int) :
    m.ReadsShow (Transfer.word width .read a (m.readWord a) (m.tagAt a) (m.tagAt (a + 1))) := by
  unfold Transfer.word
  split
  · refine ⟨fun _ => ⟨?_, rfl⟩, trivial⟩
    simp only [Transfer.pair, wordOf_lowByte_highByte, readWord, toNat_wordOf]
    omega
  · refine ⟨fun _ => ⟨?_, rfl⟩, fun _ => ⟨?_, rfl⟩, trivial⟩
    · simp only [Transfer.byte, readWord, lowByte_wordOf]
    · simp only [Transfer.byte, Transfer.storeIn, readWord, highByte_wordOf]

/-! ## Machine code -/

theorem replay_byteTransfers (m : Memory) (placed : List (Int × CodeByte)) :
    m.replay (byteTransfers placed) = m.writeCode placed := by
  induction placed generalizing m with
  | nil => rfl
  | cons p rest ih =>
    have head : (Transfer.byte .fetch p.1 p.2.value p.2.tag).storeIn m =
        m.write p.1 p.2.value p.2.tag := m.storeIn_byte (by decide) _ _ _
    exact (congrArg (fun m => m.replay (byteTransfers rest)) head).trans (ih _)

theorem replay_pairTransfers (m : Memory) {placed : List (Int × CodeByte)}
    (meet : PairsMeet placed) : m.replay (pairTransfers placed) = m.writeCode placed := by
  induction placed using pairTransfers.induct generalizing m with
  | case1 => rfl
  | case2 a b =>
    rw [pairTransfers, replay_cons, replay_nil, storeIn_byte _ (by decide)]
    rfl
  | case3 a low b high rest ih =>
    have next : b = a + 1 := meet 0 (by simp)
    have tail : PairsMeet rest := fun i h => meet (i + 1) (by simp only [List.length_cons]; omega)
    subst next
    rw [pairTransfers, replay_cons, storeIn_pair _ (by decide), ih _ tail]
    rfl

theorem readsShow_of_fetch (m : Memory) (width : BusWidth) (placed : List (Int × CodeByte)) :
    m.ReadsShow (fetchTransfers width placed) := by
  apply readsShow_of_no_read
  intro t ht
  unfold fetchTransfers at ht
  split at ht
  · obtain ⟨p, _, rfl⟩ := List.mem_map.mp ht
    exact TransferKind.noConfusion
  · induction placed using pairTransfers.induct with
    | case1 => simp [pairTransfers] at ht
    | case2 a b =>
      obtain rfl := List.mem_singleton.mp ht
      exact TransferKind.noConfusion
    | case3 a low b high rest ih =>
      rcases List.mem_cons.mp ht with rfl | ht
      · exact TransferKind.noConfusion
      · exact ih ht

end Memory

namespace Machine

/-- Two code bytes lie one behind the other unless the first is the last one of the segment. -/
theorem codeAddress_succ (r : Registers) {i : Nat} (h : (r.ip.toNat + i) % 65536 ≠ 0xFFFF) :
    codeAddress r (i + 1) = codeAddress r i + 1 := by
  unfold codeAddress physicalAddress
  simp only [BitVec.toNat_add, BitVec.toNat_ofNat]
  omega

theorem pairsMeet_placedCode (r : Registers) (code : List CodeByte)
    (h : ∀ i, i % 2 = 0 → i + 1 < code.length → (r.ip.toNat + i) % 65536 ≠ 0xFFFF) :
    PairsMeet (placedCode r code) := by
  intro i hi
  simp only [placedCode, List.length_mapIdx, List.getElem_mapIdx] at hi ⊢
  exact codeAddress_succ r (h (2 * i) (Nat.mul_mod_right 2 i) hi)

variable {m : Machine} {a : Assembled}

theorem replay_codeTransfers {code : List CodeByte}
    (h : m.width.lines ≠ 8 → PairsMeet (placedCode m.registers code)) :
    m.memory.replay (m.codeTransfers code) = (m.fetch code).memory := by
  unfold codeTransfers fetchTransfers
  split
  · exact m.memory.replay_byteTransfers _
  · exact m.memory.replay_pairTransfers (h ‹_›)

/-- The word that crosses the bus after the fetch is stored, or is what the memory holds. -/
theorem replay_accessTransfers (m : Machine) (access : Option WordAccess) :
    m.memory.replay (m.accessTransfers access) =
        access.elim m.memory (·.memoryAfter m.memory) ∧
      m.memory.ReadsShow (m.accessTransfers access) := by
  rcases access with _ | r | ⟨r, value, lowTag, highTag⟩
  · exact ⟨rfl, trivial⟩
  · exact ⟨m.memory.replay_word_read _ _ _ _ _, m.memory.readsShow_word _ _⟩
  · refine ⟨m.memory.replay_word_write _ _ _ _ _, Memory.readsShow_of_no_read ?_⟩
    intro t ht
    simp only [accessTransfers, Option.elim_some, WordAccess.transfers, Transfer.word] at ht
    split at ht
    · obtain rfl := List.mem_singleton.mp ht
      exact TransferKind.noConfusion
    · rcases List.mem_cons.mp ht with rfl | ht
      · exact TransferKind.noConfusion
      · obtain rfl := List.mem_singleton.mp ht
        exact TransferKind.noConfusion

theorem replay_cycleTransfers
    (h : m.width.lines ≠ 8 → PairsMeet (placedCode m.registers a.code)) :
    m.memory.replay (m.cycleTransfers a) = (m.cycle a).memory ∧
      m.memory.ReadsShow (m.cycleTransfers a) := by
  obtain ⟨stored, shown⟩ := (m.fetch a.code).replay_accessTransfers (m.cycleAccess? a)
  have fetched := replay_codeTransfers h
  refine ⟨?_, ?_⟩
  · rw [cycleTransfers, Memory.replay_append, fetched, stored, memory_cycle]
  · rw [cycleTransfers, Memory.readsShow_append, fetched]
    exact ⟨Memory.readsShow_of_fetch _ _ _, shown⟩

end Machine

namespace Session

/-! ## Steps -/

/-- The machine code that the next step fetches, if it fetches any. -/
def nextCode (s : Session) : List CodeByte :=
  match s.nextLine? with
  | none => []
  | some line =>
    match Instruction.parse line (s.pc + 1) with
    | .error _ => []
    | .ok i => (s.assemble i).code

/-- The next fetch takes, as one pair, the last byte of the code segment and the first one. -/
def PairsSegmentEnds (s : Session) : Prop :=
  s.width.lines = 16 ∧
    ∃ i, i % 2 = 0 ∧ i + 1 < s.nextCode.length ∧
      (s.machine.registers.ip.toNat + i) % 65536 = 0xFFFF

theorem nextCode_of_ok {s : Session} {line : String} {i : Instruction}
    (h : s.nextLine? = some line) (hi : Instruction.parse line (s.pc + 1) = .ok i) :
    s.nextCode = (s.assemble i).code := by
  simp only [nextCode, h, hi]

/-- The transactions of an executed step are those of its cycle. -/
theorem transactions_advance (s : Session) (line : String) (i : Instruction) :
    (s.advance line i).machine.bus.transactions =
      Transfer.numbered s.machine.bus.step (s.ready.cycleTransfers (s.assemble i)) :=
  (s.ready.transactions_cycle (s.assemble i)).trans (List.nil_append _)

theorem replay_advance {s : Session} {line : String} {i : Instruction}
    (offered : s.width.IsOffered) (hl : s.nextLine? = some line)
    (hi : Instruction.parse line (s.pc + 1) = .ok i) (apart : ¬ s.PairsSegmentEnds) :
    let made := (s.advance line i).machine.bus.transactions.map Transaction.toTransfer
    s.machine.memory.replay made = (s.advance line i).machine.memory ∧
      s.machine.memory.ReadsShow made := by
  have meet : s.width.lines ≠ 8 → PairsMeet (placedCode s.machine.registers (s.assemble i).code) := by
    intro wide
    apply Machine.pairsMeet_placedCode
    intro k even hk wraps
    rw [← nextCode_of_ok hl hi] at hk
    exact apart ⟨offered.resolve_left wide, k, even, hk, wraps⟩
  dsimp only
  rw [transactions_advance, Transfer.map_toTransfer_numbered]
  exact s.ready.replay_cycleTransfers meet

/-- The transactions of every executed step of a session that operations lead to, played back over
the memory from before it, give the memory after it; and each read shows the bytes and the tags
that are there when its turn comes. The one exception is a fetch that takes the last byte of the
code segment and the first one as a pair. -/
theorem transactions_replay_memory {c : Config} {s next : Session} {index : Nat}
    {line log : String} (accepted : c.Accepted) (reachable : Reachable c s)
    (executed : s.step = (.ok (.executed index line log), next)) (apart : ¬ s.PairsSegmentEnds) :
    s.machine.memory.replay (next.machine.bus.transactions.map Transaction.toTransfer) =
        next.machine.memory ∧
      ∀ before t after, next.machine.bus.transactions = before ++ t :: after → t.kind = .read →
        t.Shows (s.machine.memory.replay (before.map Transaction.toTransfer)) := by
  obtain ⟨i, hl, hi, rfl⟩ := step_eq_executed executed
  obtain ⟨stored, shown⟩ := replay_advance (reachable.isOffered_width accepted) hl hi apart
  refine ⟨stored, fun before t after split read => ?_⟩
  rw [split, List.map_append, List.map_cons, Memory.readsShow_append] at shown
  exact shown.2.1 read

/-- A session whose one line loads a word from where its own code is about to be fetched to. -/
def readingItsCode : Session :=
  ((new ⟨.ofInt 16, .zeroed, .whole 0⟩).perform (.load "MOV BX, [0101H]" none)).2

/-- The word that the line reads is the one that its fetch has just stored. -/
theorem readingItsCode_replay :
    readingItsCode.machine.memory.replay
        (readingItsCode.step.2.machine.bus.transactions.map Transaction.toTransfer) =
      readingItsCode.step.2.machine.memory ∧
    (readingItsCode.step.2.machine.bus.transactions.map (·.data)) = [0x1E8B, 0x101, 0x11E] ∧
    ∀ before t after, readingItsCode.step.2.machine.bus.transactions = before ++ t :: after →
      t.kind = .read →
      t.Shows (readingItsCode.machine.memory.replay (before.map Transaction.toTransfer)) := by
  have accepted : Config.Accepted ⟨.ofInt 16, .zeroed, .whole 0⟩ :=
    ⟨.number (.whole 16), .text "zeroed-v1", .number (.whole 0), by rfl⟩
  have next : readingItsCode.nextLine? = some "MOV BX, [0101H]" := by decide +kernel
  have read : Instruction.parse "MOV BX, [0101H]" (readingItsCode.pc + 1) =
      .ok ⟨"MOV", .two (.register "BX") (.direct 0x101), "MOV BX, [0101H]", 1⟩ := by rfl
  have executed : readingItsCode.step =
      (.ok (.executed readingItsCode.pc "MOV BX, [0101H]" readingItsCode.step.2.machine.bus.text),
        readingItsCode.step.2) := by
    rw [step_of_ok next read]
  have apart : ¬ readingItsCode.PairsSegmentEnds := by
    rintro ⟨_, i, _, inside, wraps⟩
    have length : readingItsCode.nextCode.length = 4 := by decide +kernel
    have start : readingItsCode.machine.registers.ip.toNat = 0x100 := by decide +kernel
    omega
  obtain ⟨stored, shown⟩ := transactions_replay_memory accepted (.perform _ .new) executed apart
  exact ⟨stored, by decide +kernel, shown⟩

end Session

end BusCycle
