-- What a fetch of machine code does, for code of any length up to a whole segment. The bytes go to
-- cells of their own, though addresses wrap at the end of the segment and at the end of the memory,
-- and the transactions carry the same bytes in the same order, one or two at a time.
import BusCycle.Proofs.Machine.Frame
import BusCycle.Proofs.Machine.Meaning
import BusCycle.Proofs.Session.BusSteps
import BusCycle.Proofs.Text.Hexadecimal
import Mathlib.Algebra.GroupWithZero.Nat

namespace BusCycle

/-! ## The bytes in memory -/

/-- A byte that goes to a cell of its own stays there. -/
theorem Memory.cell?_writeCode_of_mem (m : Memory) {placed : List (Int × CodeByte)}
    {p : Int × CodeByte} (distinct : placed.Pairwise fun p q => Address.ofInt p.1 ≠ Address.ofInt q.1)
    (h : p ∈ placed) :
    (m.writeCode placed).cell? (Address.ofInt p.1) = some ⟨p.2.value, p.2.tag⟩ := by
  induction placed generalizing m with
  | nil => cases h
  | cons q rest ih =>
    obtain ⟨apart, distinct⟩ := List.pairwise_cons.mp distinct
    have unfolded : m.writeCode (q :: rest) = (m.write q.1 q.2.value q.2.tag).writeCode rest := rfl
    rw [unfolded]
    rcases List.mem_cons.mp h with rfl | h
    · rw [cell?_writeCode_of_not_mem _ apart, cell?_write, if_pos rfl]
    · exact ih _ distinct h

namespace Machine

/-- The cell for a byte of the code, by its place in the code: sixteen times the code segment plus an
offset that wraps within the segment, less what lies above twenty bits. -/
def codeCell (m : Machine) (i : Nat) : Address :=
  BitVec.ofNat 20 (16 * m.registers.cs.toNat + (m.registers.ip.toNat + i) % 65536)

theorem ofInt_codeAddress (m : Machine) (i : Nat) :
    Address.ofInt (codeAddress m.registers i) = m.codeCell i := by
  rw [codeAddress_eq, Address.ofInt, BitVec.ofInt_natCast, codeCell]

/-- No two bytes of one segment share a cell. -/
theorem codeCell_ne (m : Machine) {i j : Nat} (lt : i < j) (small : j < 65536) :
    m.codeCell i ≠ m.codeCell j := by
  intro same
  have numbers := congrArg BitVec.toNat same
  simp only [codeCell, BitVec.toNat_ofNat] at numbers
  omega

theorem getElem?_placedCode (m : Machine) (code : List CodeByte) (i : Nat) :
    (placedCode m.registers code)[i]? =
      code[i]?.map fun b => (codeAddress m.registers i, b) :=
  List.getElem?_mapIdx

theorem map_snd_placedCode (m : Machine) (code : List CodeByte) :
    (placedCode m.registers code).map Prod.snd = code := by
  apply List.ext_getElem?
  intro i
  rw [List.getElem?_map, getElem?_placedCode, Option.map_map]
  exact Option.map_id_apply

theorem pairwise_placedCode (m : Machine) {code : List CodeByte} (fits : code.length ≤ 65536) :
    (placedCode m.registers code).Pairwise fun p q => Address.ofInt p.1 ≠ Address.ofInt q.1 := by
  rw [List.pairwise_iff_getElem]
  intro i j hi hj lt
  rw [length_placedCode] at hj
  simp only [placedCode, List.getElem_mapIdx, ofInt_codeAddress]
  exact m.codeCell_ne lt (by omega)

/-- Every byte of the code is in its cell after the fetch, with its tag. -/
theorem cell?_fetch_codeCell (m : Machine) {code : List CodeByte} (fits : code.length ≤ 65536)
    {i : Nat} {b : CodeByte} (h : code[i]? = some b) :
    (m.fetch code).memory.cell? (m.codeCell i) = some ⟨b.value, b.tag⟩ := by
  have placed : (placedCode m.registers code)[i]? = some (codeAddress m.registers i, b) := by
    rw [getElem?_placedCode, h, Option.map_some]
  rw [memory_fetch, ← ofInt_codeAddress]
  exact m.memory.cell?_writeCode_of_mem (m.pairwise_placedCode fits)
    (List.mem_of_getElem? placed)

theorem mem_codeCells_iff (m : Machine) (code : List CodeByte) (a : Address) :
    a ∈ m.codeCells code ↔ ∃ i < code.length, a = m.codeCell i := by
  simp only [codeCells, placedCode, List.mem_map, List.mem_mapIdx]
  constructor
  · rintro ⟨p, ⟨i, hi, rfl⟩, rfl⟩
    exact ⟨i, hi, m.ofInt_codeAddress i⟩
  · rintro ⟨i, hi, rfl⟩
    exact ⟨_, ⟨i, hi, rfl⟩, m.ofInt_codeAddress i⟩

end Machine

/-! ## The bytes on the bus -/

namespace Transfer

/-- The bytes that a transfer carries, the low one first. -/
def dataBytes (t : Transfer) : List Int := (List.range t.width).map fun k => t.data / 256 ^ k % 256

@[simp] theorem dataBytes_byte (kind : TransferKind) (a : Int) (v : Byte) (tag : String) :
    (byte kind a v tag).dataBytes = [(v.toNat : Int)] := by
  have small := v.isLt
  simp only [dataBytes, byte, List.range_one, List.map_singleton, Int.pow_zero, Int.ediv_one,
    List.cons.injEq, and_true]
  omega

@[simp] theorem dataBytes_pair (kind : TransferKind) (a : Int) (low high : Byte)
    (lowTag highTag : String) :
    (pair kind a low high lowTag highTag).dataBytes = [(low.toNat : Int), (high.toNat : Int)] := by
  have hl := low.isLt
  have hh := high.isLt
  have two : List.range 2 = [0, 1] := rfl
  simp only [dataBytes, pair, two, List.map_cons, List.map_nil, Int.pow_zero, Int.ediv_one,
    Int.pow_one, toNat_wordOf, List.cons.injEq, and_true]
  omega

/-- A transfer fetches the placed bytes `front` at once: it goes to the first of them, and it carries
all of them with their tags. -/
structure Fetches (t : Transfer) (front : List (Int × CodeByte)) : Prop where
  kind : t.kind = .fetch
  address : front.head?.map Prod.fst = some t.address
  width : t.width = front.length
  data : t.dataBytes = (front.map Prod.snd).map fun b => (b.value.toNat : Int)
  tags : t.tags = (front.map Prod.snd).map CodeByte.tag

theorem fetches_byte (a : Int) (b : CodeByte) :
    (byte .fetch a b.value b.tag).Fetches [(a, b)] :=
  ⟨rfl, rfl, rfl, dataBytes_byte .., rfl⟩

theorem fetches_pair (a c : Int) (low high : CodeByte) :
    (pair .fetch a low.value high.value low.tag high.tag).Fetches [(a, low), (c, high)] :=
  ⟨rfl, rfl, rfl, dataBytes_pair .., rfl⟩

/-- Transfers that fetch placed bytes in their order, each of them those in front. -/
inductive FetchInOrder : List Transfer → List (Int × CodeByte) → Prop
  | nil : FetchInOrder [] []
  | cons {t : Transfer} {ts : List Transfer} {front rest : List (Int × CodeByte)} :
      t.Fetches front → FetchInOrder ts rest → FetchInOrder (t :: ts) (front ++ rest)

theorem fetchInOrder_byteTransfers (placed : List (Int × CodeByte)) :
    FetchInOrder (byteTransfers placed) placed := by
  induction placed with
  | nil => exact .nil
  | cons p rest ih => exact .cons (fetches_byte p.1 p.2) ih

theorem fetchInOrder_pairTransfers (placed : List (Int × CodeByte)) :
    FetchInOrder (pairTransfers placed) placed := by
  induction placed using pairTransfers.induct with
  | case1 => exact .nil
  | case2 a b => exact .cons (fetches_byte a b) .nil
  | case3 a low c high rest ih => exact .cons (fetches_pair a c low high) ih

theorem fetchInOrder_fetchTransfers (width : BusWidth) (placed : List (Int × CodeByte)) :
    FetchInOrder (fetchTransfers width placed) placed := by
  unfold fetchTransfers
  split
  · exact fetchInOrder_byteTransfers placed
  · exact fetchInOrder_pairTransfers placed

namespace FetchInOrder

variable {ts : List Transfer} {placed : List (Int × CodeByte)}

theorem each (h : FetchInOrder ts placed) : ∀ t ∈ ts, ∃ front, t.Fetches front := by
  induction h with
  | nil => intro t ht; cases ht
  | cons first _ ih =>
    intro t ht
    rcases List.mem_cons.mp ht with rfl | ht
    · exact ⟨_, first⟩
    · exact ih t ht

/-- What they carry is all of the bytes in their order. -/
theorem data (h : FetchInOrder ts placed) :
    ts.flatMap dataBytes = (placed.map Prod.snd).map fun b => (b.value.toNat : Int) := by
  induction h with
  | nil => rfl
  | cons first _ ih => rw [List.flatMap_cons, List.map_append, List.map_append, first.data, ih]

theorem tags (h : FetchInOrder ts placed) :
    ts.flatMap (·.tags) = (placed.map Prod.snd).map CodeByte.tag := by
  induction h with
  | nil => rfl
  | cons first _ ih => rw [List.flatMap_cons, List.map_append, List.map_append, first.tags, ih]

/-- Each goes to the byte that follows those which the ones before it carry. -/
theorem address (h : FetchInOrder ts placed) {j : Nat} {t : Transfer} (ht : ts[j]? = some t) :
    placed[((ts.take j).map (·.width)).sum]?.map Prod.fst = some t.address := by
  induction h generalizing j with
  | nil => simp at ht
  | @cons u us front rest first _ ih =>
    cases j with
    | zero =>
      obtain rfl : u = t := by simpa using ht
      obtain ⟨p, hp, at_p⟩ := Option.map_eq_some_iff.mp first.address
      obtain ⟨tail, rfl⟩ := List.head?_eq_some_iff.mp hp
      simpa using at_p
    | succ j =>
      rw [List.take_succ_cons, List.map_cons, List.sum_cons, first.width,
        List.getElem?_append_right (Nat.le_add_right ..), Nat.add_sub_cancel_left]
      exact ih (by simpa using ht)

end FetchInOrder

theorem widths_byteTransfers (placed : List (Int × CodeByte)) :
    (byteTransfers placed).map (·.width) = List.replicate placed.length 1 := by
  induction placed with
  | nil => rfl
  | cons p rest ih => rw [List.length_cons, List.replicate_succ, ← ih]; rfl

/-- Pairs as long as there are two bytes left, then the byte that is left over, if there is one. -/
theorem widths_pairTransfers (placed : List (Int × CodeByte)) :
    (pairTransfers placed).map (·.width) =
      List.replicate (placed.length / 2) 2 ++ List.replicate (placed.length % 2) 1 := by
  induction placed using pairTransfers.induct with
  | case1 => rfl
  | case2 a b => simp [pairTransfers, byte]
  | case3 a low c high rest ih =>
    have half : (rest.length + 1 + 1) / 2 = rest.length / 2 + 1 := by omega
    have odd : (rest.length + 1 + 1) % 2 = rest.length % 2 := by omega
    rw [pairTransfers, List.map_cons, ih, List.length_cons, List.length_cons, half, odd,
      List.replicate_succ, List.cons_append]
    rfl

end Transfer

/-! ## The fetch -/

namespace Machine

/-- What the transactions of a fetch of `code` are. Together they carry the bytes of the code with
their tags in order, and each of them goes to the address of the first byte that it carries. -/
structure FetchTransactions (m : Machine) (code : List CodeByte) (made : List Transaction) : Prop where
  kind : ∀ t ∈ made, t.kind = .fetch
  narrow : m.width.lines = 8 → made.map (·.width) = List.replicate code.length 1
  wide : m.width.lines ≠ 8 → made.map (·.width) =
    List.replicate (code.length / 2) 2 ++ List.replicate (code.length % 2) 1
  data : made.flatMap (·.dataBytes) = code.map fun b => (b.value.toNat : Int)
  tags : made.flatMap (·.tags) = code.map CodeByte.tag
  tagForByte : ∀ t ∈ made, t.tags.length = t.dataBytes.length
  address : ∀ (j : Nat) (t : Transaction), made[j]? = some t →
    t.address = (16 * m.registers.cs.toNat +
      (m.registers.ip.toNat + ((made.take j).map (·.width)).sum) % 65536 : Nat)
  step : ∀ (j : Nat) (t : Transaction), made[j]? = some t → t.step = m.bus.step + 2 * j

/-- What a fetch of `code` makes of a machine. -/
structure Fetched (m : Machine) (code : List CodeByte) (next : Machine) : Prop where
  stored : ∀ (i : Nat) (b : CodeByte), code[i]? = some b →
    next.memory.cell? (m.codeCell i) = some ⟨b.value, b.tag⟩
  kept : ∀ a : Address, (∀ i < code.length, a ≠ m.codeCell i) →
    next.memory.cell? a = m.memory.cell? a
  ip : next.registers.ip.toNat = (m.registers.ip.toNat + code.length) % 65536
  registers : ∀ r : Register, r ≠ .ip → next.registers.get r = m.registers.get r
  width : next.width = m.width
  history : next.history =
    m.history ++ [⟨.fetch, m.registers.cs.toNat, m.registers.ip.toNat, "CS", "IP"⟩]
  bus : ∃ made, next.bus.transactions = m.bus.transactions ++ made ∧
    next.bus.step = m.bus.step + 2 * made.length ∧ m.FetchTransactions code made

theorem fetchTransactions_numbered (m : Machine) (code : List CodeByte) :
    m.FetchTransactions code (Transfer.numbered m.bus.step (m.codeTransfers code)) := by
  have inOrder := Transfer.fetchInOrder_fetchTransfers m.width (placedCode m.registers code)
  have transfers := Transfer.map_toTransfer_numbered m.bus.step (m.codeTransfers code)
  generalize hmade : Transfer.numbered m.bus.step (m.codeTransfers code) = made at transfers ⊢
  -- The numbers apart, the transactions are the transfers.
  have carried : Transfer.FetchInOrder (made.map Transaction.toTransfer)
      (placedCode m.registers code) := transfers ▸ inOrder
  have single (t : Transaction) (ht : t ∈ made) : ∃ front, t.toTransfer.Fetches front :=
    carried.each t.toTransfer (List.mem_map_of_mem ht)
  have widths : made.map (·.width) = (m.codeTransfers code).map (·.width) := by
    rw [← transfers, List.map_map]
    rfl
  have data := carried.data
  have tags := carried.tags
  rw [List.flatMap_map, map_snd_placedCode] at data tags
  refine ⟨?kind, ?narrow, ?wide, data, tags, ?tagForByte, ?address, ?step⟩
  case kind =>
    intro t ht
    obtain ⟨front, fetches⟩ := single t ht
    exact fetches.kind
  case narrow =>
    intro eight
    rw [widths, codeTransfers, fetchTransfers, if_pos eight, Transfer.widths_byteTransfers,
      length_placedCode]
  case wide =>
    intro other
    rw [widths, codeTransfers, fetchTransfers, if_neg other, Transfer.widths_pairTransfers,
      length_placedCode]
  case tagForByte =>
    intro t ht
    obtain ⟨front, fetches⟩ := single t ht
    rw [fetches.tags, fetches.data]
    simp only [List.length_map]
  case address =>
    intro j t ht
    have address := carried.address (j := j) (t := t.toTransfer) (by rw [List.getElem?_map, ht]; rfl)
    rw [← List.map_take, List.map_map, getElem?_placedCode, Option.map_map] at address
    obtain ⟨b, -, at_b⟩ := Option.map_eq_some_iff.mp address
    rw [← at_b]
    exact codeAddress_eq m.registers _
  case step =>
    intro j t ht
    rw [← hmade] at ht
    exact Transfer.step_of_getElem?_numbered ht

/-- A fetch of machine code that fits into a segment lays every byte down in a cell of its own, changes
no other cell, moves the instruction pointer past the code and changes no other register, and puts
one entry into the history. Its transactions carry the code in order, byte by byte on a bus of 8
lines and else in pairs with a byte left over if the length is odd. -/
theorem fetched_fetch (m : Machine) {code : List CodeByte} (fits : code.length ≤ 65536) :
    m.Fetched code (m.fetch code) where
  stored i b h := m.cell?_fetch_codeCell fits h
  kept a apart := by
    apply m.cell?_fetch
    rw [mem_codeCells_iff]
    rintro ⟨i, hi, rfl⟩
    exact apart i hi rfl
  ip := by
    simp only [registers_fetch, BitVec.toNat_add, BitVec.toNat_ofNat]
    omega
  registers r ne := m.registers.get_setIp _ ne
  width := rfl
  history := rfl
  bus := by
    have numbers := Transfer.length_numbered m.bus.step (m.codeTransfers code)
    refine ⟨_, m.transactions_fetch code, ?_, m.fetchTransactions_numbered code⟩
    rw [numbers]
    exact m.step_fetch code

/-- A machine on a bus of 16 lines that is to fetch near the end of its code segment, which reaches
over the end of the memory. -/
def atBothEnds : Machine :=
  fresh { Config.default.preset.registers with cs := 0xFFFF, ip := 0xFFFE } (.ofInt 16)

/-- The third byte of its code lies in front of the first two. -/
theorem fetched_atBothEnds :
    let code : List CodeByte := [⟨0xB8, "Opcode"⟩, ⟨0x34, "Immediate low"⟩, ⟨0x12, "Immediate high"⟩]
    code.length ≤ 65536 ∧ atBothEnds.Fetched code (atBothEnds.fetch code) ∧
      (List.range 3).map (fun i => (atBothEnds.codeCell i).toNat) = [0x0FFEE, 0x0FFEF, 0xFFFF0] ∧
      (atBothEnds.fetch code).registers.ip = 1 ∧
      (atBothEnds.fetch code).bus.transactions.map (fun t => (t.address, t.data, t.step)) =
        [(0x10FFEE, 0x34B8, 1), (0xFFFF0, 0x12, 3)] := by
  refine ⟨by decide, atBothEnds.fetched_fetch (by decide), ?_⟩
  decide +kernel

end Machine

end BusCycle
