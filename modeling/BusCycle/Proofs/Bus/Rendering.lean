-- Transactions read back from their lines. The two lines of a transaction hold all that it is, except
-- for the bits of its address that are not on the bus. So what two transactions show is the same only
-- if they are the same on the bus.
import BusCycle.Bus.Transaction
import BusCycle.Proofs.Text.Hexadecimal
import Mathlib.Algebra.Group.Int.Defs
import Mathlib.Algebra.Group.Nat.Defs
import Mathlib.Data.List.Basic

namespace BusCycle

open Numeral

/-! ## Cuts -/

namespace Text

/-- Two texts that are the same are cut alike at their first marks. -/
theorem cut_inj {mark : Char} {s t rest more : List Char} (hs : mark ∉ s) (ht : mark ∉ t)
    (h : s ++ mark :: rest = t ++ mark :: more) : s = t ∧ rest = more := by
  induction s generalizing t with
  | nil =>
    cases t with
    | nil => exact ⟨rfl, (List.cons.inj h).2⟩
    | cons d t =>
      obtain ⟨rfl, -⟩ := List.cons.inj h
      exact absurd List.mem_cons_self ht
  | cons c s ih =>
    cases t with
    | nil =>
      obtain ⟨rfl, -⟩ := List.cons.inj h
      exact absurd List.mem_cons_self hs
    | cons d t =>
      obtain ⟨rfl, later⟩ := List.cons.inj h
      obtain ⟨rfl, same⟩ := ih (fun inside => hs (List.mem_cons_of_mem c inside))
        (fun inside => ht (List.mem_cons_of_mem c inside)) later
      exact ⟨rfl, same⟩

/-! ## Numbers -/

theorem decimalField_inj {width : Nat} {v w : Int} (hv : 0 ≤ v) (hw : 0 ≤ w)
    (h : decimalField width v = decimalField width w) : v = w := by
  have read (u : Int) := valueOf_field valueOf_decimalDigits width (v := u)
  rw [← read v hv, ← read w hw]
  exact congrArg (fun s : String => (valueOf 10 s.toList : Int)) h

theorem isDecimal_of_mem_decimalField {width : Nat} {v : Int} (h : 0 ≤ v) {c : Char}
    (hc : c ∈ (decimalField width v).toList) : isDecimal c = true := by
  rw [decimalField, field, if_neg (by omega), String.toList_ofList] at hc
  rcases List.mem_append.mp hc with zero | digit
  · rw [(List.mem_replicate.mp zero).2]
    decide
  · exact isDecimal_of_mem_decimalDigits digit

/-! ## Lists in one text -/

/-- Texts without commas are read back from their list. -/
theorem joined_inj {texts others : List String} (ht : ∀ t ∈ texts, ',' ∉ t.toList)
    (ho : ∀ t ∈ others, ',' ∉ t.toList) (filled : texts ≠ []) (filled' : others ≠ [])
    (h : String.intercalate ", " texts = String.intercalate ", " others) : texts = others := by
  induction texts generalizing others with
  | nil => exact absurd rfl filled
  | cons a rest ih =>
    obtain ⟨b, more, rfl⟩ := List.exists_cons_of_ne_nil filled'
    obtain ⟨first, later⟩ := List.forall_mem_cons.mp ht
    obtain ⟨front, behind⟩ := List.forall_mem_cons.mp ho
    cases rest with
    | nil =>
      cases more with
      | nil => simpa using h
      | cons d more =>
        rw [String.intercalate_singleton, String.intercalate_cons_cons] at h
        rw [h] at first
        simp at first
    | cons c rest =>
      cases more with
      | nil =>
        rw [String.intercalate_singleton, String.intercalate_cons_cons] at h
        rw [← h] at front
        simp at front
      | cons d more =>
        rw [String.intercalate_cons_cons, String.intercalate_cons_cons, ← String.toList_inj] at h
        simp only [String.toList_append, List.append_assoc] at h
        obtain ⟨same, tails⟩ := cut_inj first front h
        have joined := String.toList_inj.mp (List.cons.inj tails).2
        rw [String.toList_inj.mp same, ih later behind (by simp) (by simp) joined]

end Text

namespace Transaction

open Text

/-! ## Transactions -/

/-- One byte or two that fit the width, at a bus step from zero on, with tags that hold no comma. -/
structure Proper (t : Transaction) : Prop where
  width : t.width = 1 ∨ t.width = 2
  data : 0 ≤ t.data ∧ t.data < 256 ^ t.width
  step : 0 ≤ t.step
  tags : ∀ tag ∈ t.tags, ',' ∉ tag.toList

/-- Transactions that differ at most in the bits of the address that are not on the bus. -/
structure SameOnBus (t u : Transaction) : Prop where
  kind : t.kind = u.kind
  step : t.step = u.step
  width : t.width = u.width
  data : t.data = u.data
  tags : t.tags = u.tags
  address : t.address % 0x100000 = u.address % 0x100000

variable {t u : Transaction}

/-! ## The two lines -/

/-- The number of the step stands in front of the first bracket that closes. -/
theorem bracket_not_mem (h : 0 ≤ t.step) : ']' ∉ (decimalField 3 t.step).toList := fun inside =>
  absurd (isDecimal_of_mem_decimalField h inside) (by decide)

theorem addressLine_inj (ht : 0 ≤ t.step) (hu : 0 ≤ u.step) (h : t.addressLine = u.addressLine) :
    t.step = u.step ∧ Address.ofInt t.address = Address.ofInt u.address ∧ t.kind = u.kind := by
  rw [addressLine, addressLine, ← String.toList_inj] at h
  simp only [String.toList_append, List.append_assoc] at h
  obtain ⟨steps, rest⟩ := cut_inj (bracket_not_mem ht) (bracket_not_mem hu)
    (List.cons.inj h).2
  have lengths : (Address.ofInt t.address).key.toList.length =
      (Address.ofInt u.address).key.toList.length := by
    rw [(Address.isHexField_key _).length, (Address.isHexField_key _).length]
  obtain ⟨keys, names⟩ := List.append_inj ((List.append_right_inj " ADDR  ".toList).mp rest) lengths
  refine ⟨decimalField_inj ht hu (String.toList_inj.mp steps),
    Address.key_injective (String.toList_inj.mp keys), ?_⟩
  have name := String.toList_inj.mp (List.append_cancel_left names)
  revert name
  cases t.kind <;> cases u.kind <;> decide

/-- What the data show: as many digits as two for each byte, and their value. -/
theorem Proper.isHexField (h : t.Proper) :
    IsHexField (2 * t.width) (hex (2 * t.width) t.data) t.data.toNat := by
  obtain ⟨n, value⟩ := Int.eq_ofNat_of_zero_le h.data.1
  have fits := h.data.2
  have pos : 0 < 2 * t.width := by
    have := h.width
    omega
  have power : Nat.pow 16 (2 * t.width) = 256 ^ t.width := Nat.pow_mul 16 2 t.width
  rw [value] at fits ⊢
  have bound : (n : Int) < (256 ^ t.width : Nat) := by
    rw [Int.natCast_pow]
    exact fits
  exact isHexField_hex pos (power ▸ Int.ofNat_lt.mp bound)

theorem Proper.letter_not_mem (h : t.Proper) : 'H' ∉ (hex (2 * t.width) t.data).toList := fun inside =>
  absurd (h.isHexField.digits _ inside) (by decide)

/-- Without tags nothing is shown, and with tags there are at least their parentheses. -/
theorem tagText_inj (ht : ∀ tag ∈ t.tags, ',' ∉ tag.toList) (hu : ∀ tag ∈ u.tags, ',' ∉ tag.toList)
    (h : t.tagText = u.tagText) : t.tags = u.tags := by
  unfold tagText at h
  by_cases bare : t.tags = []
  · by_cases empty : u.tags = []
    · rw [bare, empty]
    · simp [bare, empty, ← String.toList_inj] at h
  · by_cases empty : u.tags = []
    · simp [bare, empty, ← String.toList_inj] at h
    · simp only [List.isEmpty_iff, bare, empty, if_false, String.append_left_inj,
        String.append_right_inj] at h
      exact joined_inj ht hu bare empty h

theorem dataLine_inj (ht : t.Proper) (hu : u.Proper) (step : t.step = u.step)
    (kind : t.kind = u.kind) (h : t.dataLine = u.dataLine) :
    t.width = u.width ∧ t.data = u.data ∧ t.tags = u.tags := by
  simp only [dataLine, dataStep, dataText, padEnd, step, kind, String.append_assoc,
    String.append_right_inj] at h
  have cut := h
  rw [← String.toList_inj] at cut
  simp only [String.toList_append] at cut
  obtain ⟨digits, -⟩ := cut_inj ht.letter_not_mem hu.letter_not_mem cut
  have width : t.width = u.width := by
    have lengths := congrArg List.length digits
    rw [ht.isHexField.length, hu.isHexField.length] at lengths
    omega
  have data : t.data = u.data := by
    have values := congrArg (valueOf 16) digits
    rw [ht.isHexField.value, hu.isHexField.value] at values
    have := ht.data.1
    have := hu.data.1
    omega
  simp only [width, data, String.append_right_inj] at h
  exact ⟨width, data, tagText_inj ht.tags hu.tags h⟩

/-- The two lines of a transaction tell all of it but the bits of its address that are not on the
bus. -/
theorem lines_eq_iff (ht : t.Proper) (hu : u.Proper) : t.lines = u.lines ↔ t.SameOnBus u := by
  constructor
  · intro h
    obtain ⟨first, second⟩ := List.cons_eq_cons.mp h
    obtain ⟨step, cell, kind⟩ := addressLine_inj ht.step hu.step first
    obtain ⟨width, data, tags⟩ := dataLine_inj ht hu step kind (List.cons.inj second).1
    exact ⟨kind, step, width, data, tags, Address.ofInt_eq_ofInt_iff.mp cell⟩
  · intro same
    have cell := Address.ofInt_eq_ofInt_iff.mpr same.address
    simp only [lines, addressLine, dataLine, dataStep, dataText, tagText, same.kind, same.step,
      same.width, same.data, same.tags, cell]

end Transaction

end BusCycle
