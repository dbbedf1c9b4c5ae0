-- A bus of 16 lines carries the same bytes between the same places as one of 8 lines. A pair that it
-- moves at once lies at two addresses in a row, save one: the pair of the last byte of the code segment
-- and the first, which a fetch makes when it runs over the end of the segment.
import BusCycle.Proofs.Bus.Replay
import BusCycle.Proofs.Machine.Meaning
import BusCycle.Proofs.Session.Account
import BusCycle.Proofs.Session.WidthIndependence

namespace BusCycle

/-! ## Transfers byte by byte -/

namespace Transfer

/-- A transfer of two bytes taken apart, with the second byte at `second`. One of a single byte stays
as it is. -/
def takeApart (second : Int) (t : Transfer) : List Transfer :=
  match t.width, t.tags with
  | 2, [lowTag, highTag] =>
    [⟨t.kind, t.address, t.data % 256, 1, [lowTag]⟩, ⟨t.kind, second, t.data / 256, 1, [highTag]⟩]
  | _, _ => [t]

/-- The single bytes of a transfer whose second byte, if it has one, lies behind its first. -/
def bytes (t : Transfer) : List Transfer := t.takeApart (t.address + 1)

end Transfer

/-- The address of the code byte that follows one in the code segment `cs`: the next address, but from
the last byte of the segment back to the first. -/
def nextInSegment (cs : Word) (address : Int) : Int :=
  if address = physicalAddress cs.toNat 0xFFFF then physicalAddress cs.toNat 0 else address + 1

namespace Transfer

/-- The single bytes of a transfer, with code lying in the segment `cs`. -/
def bytesIn (cs : Word) (t : Transfer) : List Transfer :=
  t.takeApart (if t.kind = .fetch then nextInSegment cs t.address else t.address + 1)

@[simp] theorem takeApart_byte (second : Int) (kind : TransferKind) (a : Int) (v : Byte)
    (tag : String) : (byte kind a v tag).takeApart second = [byte kind a v tag] := rfl

theorem takeApart_pair (second : Int) (kind : TransferKind) (a : Int) (low high : Byte)
    (lowTag highTag : String) :
    (pair kind a low high lowTag highTag).takeApart second =
      [byte kind a low lowTag, byte kind second high highTag] := by
  have hl := low.isLt
  have hh := high.isLt
  have first : ((wordOf low high).toNat : Int) % 256 = low.toNat := by
    rw [toNat_wordOf]
    omega
  have last : ((wordOf low high).toNat : Int) / 256 = high.toNat := by
    rw [toNat_wordOf]
    omega
  simp only [takeApart, pair, byte, first, last]

theorem bytesIn_of_ne_fetch {t : Transfer} (h : t.kind ≠ .fetch) (cs : Word) :
    t.bytesIn cs = t.bytes := by
  rw [bytesIn, if_neg h]
  rfl

theorem bytesIn_of_fetch {t : Transfer} (h : t.kind = .fetch) (cs : Word) :
    t.bytesIn cs = t.takeApart (nextInSegment cs t.address) := by
  rw [bytesIn, if_pos h]

/-! ## Words -/

theorem kind_of_mem_word {width : BusWidth} {kind : TransferKind} {a : Int} {value : Word}
    {lowTag highTag : String} {t : Transfer} (h : t ∈ word width kind a value lowTag highTag) :
    t.kind = kind := by
  unfold word at h
  split at h
  · obtain rfl := List.mem_singleton.mp h
    rfl
  · rcases List.mem_cons.mp h with rfl | h
    · rfl
    · obtain rfl := List.mem_singleton.mp h
      rfl

/-- A word that crosses a wide bus, byte by byte, is the word that crosses a narrow one. -/
theorem bytes_word {wide narrow : BusWidth} (hw : wide.lines = 16) (hn : narrow.lines = 8)
    (kind : TransferKind) (a : Int) (value : Word) (lowTag highTag : String) :
    (word wide kind a value lowTag highTag).flatMap bytes =
      word narrow kind a value lowTag highTag := by
  have other : narrow.lines ≠ 16 := by omega
  rw [word, if_pos hw, word, if_neg other, List.flatMap_singleton, bytes, takeApart_pair]
  rfl

end Transfer

/-! ## Machine code -/

theorem kind_of_mem_fetchTransfers {width : BusWidth} {placed : List (Int × CodeByte)}
    {t : Transfer} (h : t ∈ fetchTransfers width placed) : t.kind = .fetch := by
  unfold fetchTransfers at h
  split at h
  · obtain ⟨p, _, rfl⟩ := List.mem_map.mp h
    rfl
  · induction placed using pairTransfers.induct with
    | case1 => cases h
    | case2 a b =>
      obtain rfl := List.mem_singleton.mp h
      rfl
    | case3 a low b high rest ih =>
      rcases List.mem_cons.mp h with rfl | h
      · rfl
      · exact ih h

/-- Code bytes that are fetched in pairs and then taken apart are those that are fetched one by one,
just if the second byte of every pair lies where it is taken to lie. -/
theorem takeApart_pairTransfers (next : Int → Int) (placed : List (Int × CodeByte)) :
    (pairTransfers placed).flatMap (fun t => t.takeApart (next t.address)) = byteTransfers placed ↔
      ∀ i, (h : 2 * i + 1 < placed.length) →
        (placed.get ⟨2 * i + 1, h⟩).1 = next (placed.get ⟨2 * i, Nat.lt_of_succ_lt h⟩).1 := by
  induction placed using pairTransfers.induct with
  | case1 => simp [pairTransfers, byteTransfers]
  | case2 a b => simp [pairTransfers, byteTransfers]
  | case3 a low b high rest ih =>
    have apart : (pairTransfers ((a, low) :: (b, high) :: rest)).flatMap
          (fun t => t.takeApart (next t.address)) =
        .byte .fetch a low.value low.tag :: .byte .fetch (next a) high.value high.tag ::
          (pairTransfers rest).flatMap fun t => t.takeApart (next t.address) := by
      rw [pairTransfers, List.flatMap_cons, Transfer.takeApart_pair]
      rfl
    have single : byteTransfers ((a, low) :: (b, high) :: rest) =
        .byte .fetch a low.value low.tag :: .byte .fetch b high.value high.tag ::
          byteTransfers rest := rfl
    have second : Transfer.byte .fetch (next a) high.value high.tag =
        .byte .fetch b high.value high.tag ↔ b = next a := by
      simp [Transfer.byte, eq_comm]
    rw [apart, single, List.cons_eq_cons, List.cons_eq_cons, ih, second]
    constructor
    · rintro ⟨-, here, there⟩ i h
      cases i with
      | zero => exact here
      | succ i =>
        simp only [List.length_cons] at h
        exact there i (by omega)
    · intro all
      refine ⟨rfl, all 0 (by simp), fun i h => ?_⟩
      exact all (i + 1) (by simp only [List.length_cons]; omega)

namespace Machine

/-- The next code byte lies where the segment goes on. -/
theorem codeAddress_succ_eq (r : Registers) (i : Nat) :
    codeAddress r (i + 1) = nextInSegment r.cs (codeAddress r i) := by
  unfold nextInSegment physicalAddress
  rw [codeAddress_eq, codeAddress_eq]
  split <;> omega

/-- Two code bytes lie one behind the other just if the first is not the last of the segment. -/
theorem codeAddress_succ_iff (r : Registers) (i : Nat) :
    codeAddress r (i + 1) = codeAddress r i + 1 ↔ (r.ip.toNat + i) % 65536 ≠ 0xFFFF := by
  refine ⟨fun follows last => ?_, codeAddress_succ r⟩
  rw [codeAddress_eq, codeAddress_eq] at follows
  omega

theorem pairsMeet_placedCode_iff (r : Registers) (code : List CodeByte) :
    PairsMeet (placedCode r code) ↔
      ∀ i, i % 2 = 0 → i + 1 < code.length → (r.ip.toNat + i) % 65536 ≠ 0xFFFF := by
  refine ⟨fun meet i even inside => ?_, pairsMeet_placedCode r code⟩
  obtain ⟨k, rfl⟩ : ∃ k, i = 2 * k := ⟨i / 2, by omega⟩
  have follows := meet k (by simpa [placedCode] using inside)
  simp only [placedCode, List.getElem_mapIdx] at follows
  exact (codeAddress_succ_iff r (2 * k)).mp follows

variable {m n : Machine}

theorem bytes_codeTransfers_iff (same : SameInside m n) (hm : m.width.lines = 16)
    (hn : n.width.lines = 8) (code : List CodeByte) :
    (m.codeTransfers code).flatMap Transfer.bytes = n.codeTransfers code ↔
      PairsMeet (placedCode m.registers code) := by
  have wide : m.width.lines ≠ 8 := by omega
  unfold codeTransfers fetchTransfers
  rw [if_neg wide, if_pos hn, ← same.registers]
  exact takeApart_pairTransfers (· + 1) _

/-- The code that crosses a wide bus, byte by byte within its segment, is the code that crosses a
narrow one. -/
theorem bytesIn_codeTransfers (same : SameInside m n) (hm : m.width.lines = 16)
    (hn : n.width.lines = 8) (code : List CodeByte) :
    (m.codeTransfers code).flatMap (Transfer.bytesIn m.registers.cs) = n.codeTransfers code := by
  have wide : m.width.lines ≠ 8 := by omega
  have fetched : (m.codeTransfers code).flatMap (Transfer.bytesIn m.registers.cs) =
      (m.codeTransfers code).flatMap fun t =>
        t.takeApart (nextInSegment m.registers.cs t.address) := by
    apply List.flatMap_congr
    intro t ht
    exact Transfer.bytesIn_of_fetch (kind_of_mem_fetchTransfers ht) _
  rw [fetched]
  unfold codeTransfers fetchTransfers
  rw [if_neg wide, if_pos hn, ← same.registers, takeApart_pairTransfers]
  intro i h
  simp only [placedCode, List.get_eq_getElem, List.getElem_mapIdx]
  exact codeAddress_succ_eq m.registers (2 * i)

/-! ## The word of an instruction -/

theorem bytes_accessTransfers (same : SameInside m n) (hm : m.width.lines = 16)
    (hn : n.width.lines = 8) (access : Option WordAccess) :
    (m.accessTransfers access).flatMap Transfer.bytes = n.accessTransfers access := by
  unfold accessTransfers
  rw [← same.memory]
  rcases access with _ | r | ⟨r, value, lowTag, highTag⟩
  · rfl
  · exact Transfer.bytes_word hm hn _ _ _ _ _
  · exact Transfer.bytes_word hm hn _ _ _ _ _

theorem kind_of_mem_accessTransfers {access : Option WordAccess} {t : Transfer}
    (h : t ∈ m.accessTransfers access) : t.kind ≠ .fetch := by
  rcases access with _ | r | ⟨r, value, lowTag, highTag⟩
  · cases h
  · rw [Transfer.kind_of_mem_word h]
    exact TransferKind.noConfusion
  · rw [Transfer.kind_of_mem_word h]
    exact TransferKind.noConfusion

theorem bytesIn_accessTransfers (same : SameInside m n) (hm : m.width.lines = 16)
    (hn : n.width.lines = 8) (access : Option WordAccess) (cs : Word) :
    (m.accessTransfers access).flatMap (Transfer.bytesIn cs) = n.accessTransfers access := by
  rw [← bytes_accessTransfers same hm hn access]
  apply List.flatMap_congr
  intro t ht
  exact Transfer.bytesIn_of_ne_fetch (kind_of_mem_accessTransfers ht) cs

/-! ## Whole cycles -/

variable {a : Assembled}

theorem cycleAccess?_congr (same : SameInside m n) (a : Assembled) :
    m.cycleAccess? a = n.cycleAccess? a := by
  rw [cycleAccess?, cycleAccess?, (same.fetch a.code).registers]

theorem bytesIn_cycleTransfers (same : SameInside m n) (hm : m.width.lines = 16)
    (hn : n.width.lines = 8) :
    (m.cycleTransfers a).flatMap (Transfer.bytesIn m.registers.cs) = n.cycleTransfers a := by
  unfold cycleTransfers
  rw [List.flatMap_append, bytesIn_codeTransfers same hm hn, ← cycleAccess?_congr same,
    bytesIn_accessTransfers (same.fetch a.code) hm hn]

theorem bytes_cycleTransfers_iff (same : SameInside m n) (hm : m.width.lines = 16)
    (hn : n.width.lines = 8) :
    (m.cycleTransfers a).flatMap Transfer.bytes = n.cycleTransfers a ↔
      PairsMeet (placedCode m.registers a.code) := by
  unfold cycleTransfers
  rw [List.flatMap_append, ← cycleAccess?_congr same,
    bytes_accessTransfers (same.fetch a.code) hm hn, List.append_left_inj]
  exact bytes_codeTransfers_iff same hm hn a.code

end Machine

namespace Session

/-! ## Steps -/

/-- The session with a bus of so many lines set, if there is one. -/
def onBus (s : Session) (lines : Int) : Session :=
  (s.perform (.setWidth (.number (.whole lines)))).2

/-- The transfers of the step that was executed last. -/
def transfers (s : Session) : List Transfer :=
  s.machine.bus.transactions.map Transaction.toTransfer

theorem transfers_advance (s : Session) (line : String) (i : Instruction) :
    (s.advance line i).transfers = s.ready.cycleTransfers (s.assemble i) := by
  rw [transfers, transactions_advance, Transfer.map_toTransfer_numbered]

/-- A fetch makes a pair of the ends of the segment just if some pair of its bytes does not meet. -/
theorem pairsSegmentEnds_iff {s : Session} {line : String} {i : Instruction}
    (wide : s.width.lines = 16) (hl : s.nextLine? = some line)
    (hi : Instruction.parse line (s.pc + 1) = .ok i) :
    s.PairsSegmentEnds ↔ ¬ PairsMeet (placedCode s.machine.registers (s.assemble i).code) := by
  rw [Machine.pairsMeet_placedCode_iff, PairsSegmentEnds, nextCode_of_ok hl hi]
  simp only [wide, true_and, not_forall, not_not, exists_prop]

/-- A step on a bus of 16 lines carries the same bytes to and from the same places as a step on a bus
of 8 lines that begins in the same session: with each pair taken apart, the transfers of the first
are those of the second. The second byte of a pair lies behind the first, but the byte of code that
follows the last one of the code segment is the first one. So the second byte of every pair lies
behind the first unless a fetch makes a pair of the two ends of the segment. -/
theorem wide_bus_carries_same_bytes {s : Session} (executes : s.executes = true) :
    let wide := (s.onBus 16).step
    let narrow := (s.onBus 8).step
    (s.onBus 16).executes = true ∧
      narrow.1.map StepResult.withoutLog = wide.1.map StepResult.withoutLog ∧
      wide.2.transfers.flatMap (Transfer.bytesIn s.machine.registers.cs) = narrow.2.transfers ∧
      (wide.2.transfers.flatMap Transfer.bytes = narrow.2.transfers ↔
        ¬ (s.onBus 16).PairsSegmentEnds) := by
  obtain ⟨line, i, hl, hi⟩ := line_of_executes executes
  have same : (s.onBus 16).ready.SameInside (s.onBus 8).ready := ⟨rfl, rfl, rfl⟩
  have ends := pairsSegmentEnds_iff (s := s.onBus 16) rfl hl hi
  dsimp only
  have wide := step_of_ok (s := s.onBus 16) hl hi
  rw [wide, step_of_ok (s := s.onBus 8) hl hi]
  dsimp only
  rw [transfers_advance, transfers_advance]
  refine ⟨executes_of_ok (congrArg Prod.fst wide), rfl, Machine.bytesIn_cycleTransfers same rfl rfl, ?_⟩
  rw [ends, not_not]
  exact Machine.bytes_cycleTransfers_iff same rfl rfl

/-- A session that is to fetch three bytes of code, the first of them the last of the code segment. -/
def atSegmentEnd : Session :=
  (new .default).performAll [.load "jmp 0ffffh\nmov ax, 1234h" none, .step]

/-- The pair that the fetch makes holds the byte at 1FFFFH and the one at 10000H. -/
theorem atSegmentEnd_bytes :
    atSegmentEnd.executes = true ∧
      (atSegmentEnd.onBus 16).step.2.transfers.map (·.address) = [0x1FFFF, 0x10001] ∧
      (atSegmentEnd.onBus 8).step.2.transfers.map (·.address) = [0x1FFFF, 0x10000, 0x10001] ∧
      (atSegmentEnd.onBus 16).step.2.transfers.flatMap (Transfer.bytesIn 0x1000) =
        (atSegmentEnd.onBus 8).step.2.transfers := by
  have found : atSegmentEnd.executes = true ∧ atSegmentEnd.machine.registers.cs = 0x1000 ∧
      (atSegmentEnd.onBus 16).step.2.transfers.map (·.address) = [0x1FFFF, 0x10001] ∧
      (atSegmentEnd.onBus 8).step.2.transfers.map (·.address) = [0x1FFFF, 0x10000, 0x10001] := by
    decide +kernel
  obtain ⟨executes, cs, wide, narrow⟩ := found
  obtain ⟨-, -, carried, -⟩ := wide_bus_carries_same_bytes executes
  rw [cs] at carried
  exact ⟨executes, wide, narrow, carried⟩

/-- Not every pair lies at two addresses in a row: in a session that operations lead to, the pairs of
a step, each with its second byte behind its first, are not the bytes that a narrow bus carries. -/
theorem pair_of_segment_ends_not_in_a_row :
    ¬ ∀ (c : Config) (s : Session), c.Accepted → Reachable c s → s.executes = true →
      (s.onBus 16).step.2.transfers.flatMap Transfer.bytes = (s.onBus 8).step.2.transfers := by
  intro all
  have found : atSegmentEnd.executes = true ∧
      (atSegmentEnd.onBus 16).step.2.transfers.flatMap Transfer.bytes ≠
        (atSegmentEnd.onBus 8).step.2.transfers := by
    decide +kernel
  exact found.2 (all _ _ Config.accepted_default (reachable_performAll .default _) found.1)

end Session

end BusCycle
