-- Texts on one line. Neither an instruction line of a program nor anything that is said about one has
-- a line break in it, so a message about it stays on the line it was put on.
import BusCycle.Config.Basic
import BusCycle.Proofs.Instruction.Literals
import BusCycle.Proofs.Text.Cleaning
import BusCycle.Proofs.Text.Hexadecimal
import Mathlib.Data.List.Basic

namespace BusCycle

namespace Text

/-- A text without line breaks. -/
def Unbroken (s : List Char) : Prop := ∀ c ∈ s, isLineBreak c = false

instance (s : List Char) : Decidable (Unbroken s) := List.decidableBAll _ s

theorem isLineBreak_of_not_isBlank {c : Char} (h : isBlank c = false) : isLineBreak c = false := by
  rw [Bool.eq_false_iff] at h ⊢
  exact fun breaks => h (isBlank_of_isLineBreak breaks)

namespace Unbroken

variable {s t : List Char}

theorem mono (h : Unbroken s) (sub : t ⊆ s) : Unbroken t := fun c hc => h c (sub hc)

theorem append (hs : Unbroken s) (ht : Unbroken t) : Unbroken (s ++ t) := by
  intro c hc
  rcases List.mem_append.mp hc with hc | hc
  · exact hs c hc
  · exact ht c hc

theorem cons {c : Char} (hc : isLineBreak c = false) (hs : Unbroken s) : Unbroken (c :: s) :=
  append (s := [c]) (by simpa [Unbroken] using hc) hs

theorem replicate {c : Char} (hc : isLineBreak c = false) (n : Nat) :
    Unbroken (List.replicate n c) := by
  intro d hd
  rw [(List.mem_replicate.mp hd).2]
  exact hc

end Unbroken

/-! ## Cuts -/

theorem trimEnd_subset (s : List Char) : trimEnd s ⊆ s := by
  intro c hc
  rw [trimEnd, List.mem_reverse] at hc
  exact List.mem_reverse.mp ((List.dropWhile_sublist _).subset hc)

theorem trim_subset (s : List Char) : trim s ⊆ s := fun _ hc =>
  (List.dropWhile_sublist _).subset (trimEnd_subset _ hc)

/-- What stands between separators is of the text and no separator. -/
theorem mem_of_mem_splitOnP {p : Char → Bool} {s piece : List Char} (h : piece ∈ s.splitOnP p)
    {c : Char} (hc : c ∈ piece) : c ∈ s ∧ p c = false := by
  induction s generalizing piece with
  | nil =>
    rw [List.mem_singleton.mp h] at hc
    cases hc
  | cons d s ih =>
    rw [List.splitOnP_cons_eq_if_modifyHead] at h
    split at h
    · rcases List.mem_cons.mp h with rfl | h
      · cases hc
      · exact ⟨List.mem_cons_of_mem _ (ih h hc).1, (ih h hc).2⟩
    · rename_i other
      obtain ⟨first, rest, pieces⟩ := List.exists_cons_of_ne_nil (List.splitOnP_ne_nil p s)
      rw [pieces, List.modifyHead_cons] at h
      rcases List.mem_cons.mp h with rfl | h
      · rcases List.mem_cons.mp hc with rfl | hc
        · exact ⟨List.mem_cons_self, by simpa using other⟩
        · have := ih (pieces ▸ List.mem_cons_self) hc
          exact ⟨List.mem_cons_of_mem _ this.1, this.2⟩
      · have := ih (pieces ▸ List.mem_cons_of_mem _ h) hc
        exact ⟨List.mem_cons_of_mem _ this.1, this.2⟩

theorem unbroken_upper {s : List Char} (h : Unbroken s) : Unbroken (upper s) := by
  intro d hd
  obtain ⟨c, hc, hd⟩ := List.mem_flatMap.mp hd
  rcases capital_cases c with ⟨_, same⟩ | ⟨_, _, no_blank⟩
  · rw [same, List.mem_singleton] at hd
    rw [hd]
    exact h c hc
  · exact isLineBreak_of_not_isBlank (no_blank d hd)

/-- Lines put one behind another, with what is no break between them, are one line. -/
theorem Unbroken.intercalate {between : List Char} {texts : List (List Char)}
    (hb : Unbroken between) (h : ∀ t ∈ texts, Unbroken t) : Unbroken (between.intercalate texts) := by
  unfold List.intercalate
  induction texts with
  | nil => exact List.forall_mem_nil _
  | cons t rest ih =>
    have later := ih fun u hu => h u (List.mem_cons_of_mem _ hu)
    cases rest with
    | nil => simpa using h t List.mem_cons_self
    | cons u rest =>
      rw [List.intersperse_cons_cons, List.flatten_cons, List.flatten_cons]
      exact (h t List.mem_cons_self).append (hb.append later)

/-- Words with single spaces between them are on one line. -/
theorem unbroken_intercalate_words (s : List Char) : Unbroken ([' '].intercalate (words s)) := by
  refine Unbroken.intercalate (by decide) ?_
  intro w hw c hc
  rw [words, List.mem_filter] at hw
  exact isLineBreak_of_not_isBlank (mem_of_mem_splitOnP hw.1 hc).2

/-! ## Numbers -/

theorem isLineBreak_of_isHex {c : Char} (h : Numeral.isHex c = true) : isLineBreak c = false := by
  have range : (48 ≤ c.toNat ∧ c.toNat ≤ 57) ∨ (65 ≤ c.toNat ∧ c.toNat ≤ 70) := by
    simpa [Numeral.isHex, Numeral.isDecimal, Char.le_def, UInt32.le_iff_toNat_le] using h
  rw [Bool.eq_false_iff]
  simp only [isLineBreak, ne_eq, Bool.or_eq_true, Bool.and_eq_true, decide_eq_true_eq, beq_iff_eq]
  omega

theorem unbroken_decimalDigits (n : Nat) : Unbroken (decimalDigits n) := by
  intro c hc
  refine isLineBreak_of_isHex ?_
  rw [Numeral.isHex, isDecimal_of_mem_decimalDigits hc, Bool.true_or]

theorem unbroken_hexDigits (n : Nat) : Unbroken (hexDigits n) := fun _ hc =>
  isLineBreak_of_isHex (isHex_of_mem_hexDigits hc)

theorem unbroken_fillZeros (width : Nat) {digits : List Char} (h : Unbroken digits) :
    Unbroken (fillZeros width digits) :=
  (Unbroken.replicate (by decide) _).append h

/-- A field of digits is on one line, with a sign or without. -/
theorem unbroken_field {digits : Nat → List Char} (h : ∀ n, Unbroken (digits n)) (width : Nat)
    (v : Int) : Unbroken (field digits width v).toList := by
  unfold field
  split
  · rw [String.toList_ofList]
    exact (unbroken_fillZeros _ (h _)).cons (by decide)
  · rw [String.toList_ofList]
    exact unbroken_fillZeros _ (h _)

theorem unbroken_decimal (v : Int) : Unbroken (decimal v).toList :=
  unbroken_field unbroken_decimalDigits 0 v

/-- A sign is put in front of a number that has none. -/
theorem unbroken_signed (v : Int) : Unbroken (signed v).toList := by
  unfold signed
  split
  · exact unbroken_decimal v
  · rw [String.toList_append]
    exact Unbroken.append (by decide) (unbroken_decimal v)

theorem unbroken_hex (width : Nat) (v : Int) : Unbroken (hex width v).toList :=
  unbroken_field unbroken_hexDigits width v

end Text

open Text

theorem unbroken_hexWord (w : Word) : Unbroken (hexWord w).toList := unbroken_hex 4 _

namespace Binary64

theorem unbroken_layout (d : Decimal) : Unbroken (layout d) := by
  have digits : Unbroken (significant (decimalDigits d.digits)) := by
    refine (unbroken_decimalDigits d.digits).mono fun c hc => ?_
    rw [significant, List.mem_reverse] at hc
    exact List.mem_reverse.mp ((List.dropWhile_sublist _).subset hc)
  have zeros (n : Nat) : Unbroken (List.replicate n '0') := .replicate (by decide) n
  unfold layout
  dsimp only
  split
  · unfold positional
    dsimp only
    split
    · exact (((zeros _).append digits).cons (by decide)).cons (by decide)
    · split
      · exact (digits.append (zeros _)).append (by decide)
      · exact (digits.mono (List.take_subset _ _)).append
          ((digits.mono (List.drop_subset _ _)).cons (by decide))
  · unfold scientific
    dsimp only
    refine Unbroken.append (Unbroken.append ?_ ?_) (unbroken_fillZeros 2 (unbroken_decimalDigits _))
    · split
      · rename_i first second rest shown
        rw [shown] at digits
        have tail : Unbroken (second :: rest) := digits.mono (List.subset_cons_self _ _)
        exact (tail.cons (by decide)).cons (digits first List.mem_cons_self)
      · exact digits
    · split <;> decide

theorem unbroken_display (x : Binary64) : Unbroken x.display.toList := by
  unfold display
  split
  · decide
  · decide
  · decide
  · rename_i negative m e
    have body : Unbroken (if m == 0 then ['0', '.', '0'] else layout (Decimal.shortest m e)) := by
      split
      · decide
      · exact unbroken_layout _
    dsimp only
    rw [String.toList_ofList]
    split
    · exact body.cons (by decide)
    · exact body

end Binary64

/-- A message about a width or a pause of a command is one line. -/
theorem Quantity.unbroken_display (q : Quantity) : Unbroken q.display.toList := by
  cases q with
  | whole n => exact unbroken_decimal n
  | real x => exact x.unbroken_display

/-! ## Messages about lines -/

theorem unbroken_after {before text : String} (hb : Unbroken before.toList)
    (h : Unbroken text.toList) : Unbroken (before ++ text).toList := by
  rw [String.toList_append]
  exact hb.append h

/-- A text between two others that are on one line. -/
theorem unbroken_between {before text after : String} (hb : Unbroken before.toList)
    (h : Unbroken text.toList) (ha : Unbroken after.toList) :
    Unbroken (before ++ text ++ after).toList :=
  unbroken_after (unbroken_after hb h) ha

theorem Numeral.unbroken_of_read {text : List Char} (h : Unbroken text) {fault : Fault}
    (failed : Numeral.read text = .error (.fault fault)) : Unbroken fault.message.toList := by
  have malformed : Unbroken (Fault.malformed (String.ofList text)).message.toList :=
    unbroken_between (by decide) (by rwa [String.toList_ofList]) (by decide)
  have outOfRange : Unbroken (Fault.outOfRange (String.ofList text)).message.toList :=
    unbroken_between (by decide) (by rwa [String.toList_ofList]) (by decide)
  have told {digits : List Char} {signed : Nat → Int}
      (failed : readUnsigned text digits signed = .error (.fault fault)) :
      Unbroken fault.message.toList := by
    unfold readUnsigned at failed
    split at failed
    · cases failed
    split at failed
    · unfold fit at failed
      split at failed
      · cases failed
      · cases failed
        exact outOfRange
    · cases failed
      exact malformed
  unfold Numeral.read at failed
  split at failed
  · exact told failed
  · dsimp only at failed
    split at failed
    · cases failed
    · exact told failed

theorem unbroken_of_readNumber {text : List Char} (h : Unbroken text) {fault : LineFault}
    (failed : readNumber text = .error (.fault fault)) : Unbroken fault.message.toList := by
  unfold readNumber at failed
  rcases read : Numeral.read text with failure | w
  · rw [read] at failed
    cases failure with
    | fault inner =>
      cases failed
      exact Numeral.unbroken_of_read h read
    | conversion c => cases failed
  · rw [read] at failed
    cases failed

theorem Operand.unbroken_of_readPlace {inner : List Char} (h : Unbroken inner) {fault : LineFault}
    (failed : readPlace inner = .error (.fault fault)) : Unbroken fault.message.toList := by
  unfold readPlace at failed
  split at failed
  · cases failed
    decide
  · split at failed
    · cases failed
    · exact unbroken_of_readNumber h (error_of_map_error failed)

theorem Operand.unbroken_of_read {text : List Char} (h : Unbroken text) {fault : LineFault}
    (failed : read text = .error (.fault fault)) : Unbroken fault.message.toList := by
  unfold read at failed
  split at failed
  · cases failed
    decide
  · rename_i rest
    split at failed
    · refine unbroken_of_readPlace (h.mono fun c hc => ?_) failed
      exact List.mem_cons_of_mem _ (List.dropLast_subset _ (trim_subset _ hc))
    · cases failed
      exact unbroken_between (by decide) (by rwa [String.toList_ofList]) (by decide)
  · split at failed
    · cases failed
    · exact unbroken_of_readNumber h (error_of_map_error failed)

theorem Operands.unbroken_of_read {rest : List Char} (h : Unbroken rest) {fault : LineFault}
    (failed : read rest = .error (.fault fault)) : Unbroken fault.message.toList := by
  have field : ∀ a ∈ (rest.splitOn ',').map trim, Unbroken a := by
    intro a ha
    obtain ⟨piece, hp, rfl⟩ := List.mem_map.mp ha
    exact h.mono fun c hc => (mem_of_mem_splitOnP hp (trim_subset _ hc)).1
  unfold read at failed
  split at failed
  · cases failed
  · generalize (rest.splitOn ',').map trim = fields at failed field
    split at failed
    · cases failed
    · rename_i a
      exact Operand.unbroken_of_read (field a (by simp)) (error_of_map_error failed)
    · rename_i a b
      rcases first : Operand.read a with failure | x
      · rw [first] at failed
        cases failed
        exact Operand.unbroken_of_read (field a (by simp)) first
      · rw [first] at failed
        exact Operand.unbroken_of_read (field b (by simp)) (error_of_map_error failed)
    · cases failed
      exact unbroken_between (by decide) (unbroken_decimal _) (by decide)

/-- What follows a mnemonic is of the line. -/
theorem Instruction.subset_of_split? {s mnemonic rest : List Char}
    (h : split? s = some (mnemonic, rest)) : rest ⊆ s := by
  cases s with
  | nil => cases h
  | cons c r =>
    unfold split? at h
    dsimp only at h
    by_cases capital : isCapital c = true
    · rw [if_pos capital] at h
      split at h
      · cases h
        intro d hd
        have after := (List.dropWhile_sublist isBlank).subset hd
        exact List.mem_cons_of_mem _ ((List.dropWhile_sublist _).subset after)
      · cases h
    · rw [if_neg capital] at h
      cases h

/-- What is wrong with a line that is one line is said in one line. -/
theorem Instruction.unbroken_of_parse {line : String} (h : Unbroken line.toList) {n : Int}
    {e : LineError} (failed : parse line n = .error (.fault e)) : Unbroken e.message.toList := by
  have fault : Unbroken e.fault.message.toList := by
    have upper : Unbroken (upper (trim line.toList)) := unbroken_upper (h.mono (trim_subset _))
    unfold parse at failed
    dsimp only at failed
    split at failed
    · cases failed
      exact unbroken_between (by decide) h (by decide)
    · rename_i mnemonic rest cut
      have tail : Unbroken rest := upper.mono (subset_of_split? cut)
      rcases operands : Operands.read rest with failure | ops
      · rw [operands] at failed
        cases failure with
        | fault f =>
          cases failed
          exact Operands.unbroken_of_read tail operands
        | conversion c => cases failed
      · rw [operands] at failed
        cases failed
  unfold LineError.message
  split
  · exact fault
  · exact unbroken_after (unbroken_between (by decide) (unbroken_decimal _) (by decide)) fault

namespace Program

theorem unbroken_of_mem_clean {text line : String} (h : line ∈ clean text) :
    Unbroken line.toList := by
  rw [clean, List.mem_map] at h
  obtain ⟨s, hs, rfl⟩ := h
  obtain ⟨raw, _, rfl⟩ := List.mem_map.mp (List.mem_filter.mp hs).1
  rw [String.toList_ofList]
  exact unbroken_intercalate_words _

end Program

end BusCycle
