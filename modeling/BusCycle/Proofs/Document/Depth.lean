-- Documents that are nested too deep. What a reader leaves of a text is an end of it, so each list and
-- each object that stands open has an opening of its own in the text. A text that is refused as too deep
-- has more openings than may stand one in another, and so many of them in a row are enough.
import BusCycle.Document.Reader
import Mathlib.Data.List.Basic

namespace BusCycle.Document

/-! ## What readers leave -/

/-- A reader that leaves an end of the text. -/
def LeavesEnd {α : Type} (reader : List Char → Found α) : Prop :=
  ∀ s found rest, reader s = some (found, rest) → rest <:+ s

theorem skipBlanks_suffix (s : List Char) : skipBlanks s <:+ s := List.dropWhile_suffix _

theorem suffix_of_skipBlanks {s rest : List Char} {c : Char} (h : skipBlanks s = c :: rest) :
    rest <:+ s :=
  ((List.suffix_cons c rest).trans (h ▸ List.suffix_refl _)).trans (skipBlanks_suffix s)

theorem leavesEnd_readUnits : LeavesEnd readUnits := by
  intro s units rest h
  fun_induction readUnits s generalizing units with
  | case1 r =>
    cases h
    exact List.suffix_cons _ _
  | case2 a b c d r ih =>
    obtain ⟨unit, _, h⟩ := Option.bind_eq_some_iff.mp h
    obtain ⟨⟨units, rest⟩, read, h⟩ := Option.bind_eq_some_iff.mp h
    cases h
    exact (ih _ read).trans ⟨['\\', 'u', a, b, c, d], rfl⟩
  | case3 c r _ ih =>
    obtain ⟨unit, _, h⟩ := Option.bind_eq_some_iff.mp h
    obtain ⟨⟨units, rest⟩, read, h⟩ := Option.bind_eq_some_iff.mp h
    cases h
    exact (ih _ read).trans ⟨['\\', c], rfl⟩
  | case4 => cases h
  | case5 c r _ _ _ _ ih =>
    obtain ⟨⟨units, rest⟩, read, h⟩ := Option.bind_eq_some_iff.mp h
    cases h
    exact (ih _ read).trans (List.suffix_cons _ _)
  | case6 => cases h

theorem leavesEnd_readText : LeavesEnd readText := by
  intro s text rest h
  obtain ⟨⟨units, rest'⟩, read, same⟩ := Option.map_eq_some_iff.mp h
  cases same
  exact leavesEnd_readUnits s units rest read

theorem suffix_spanDigits (s : List Char) : (Number.spanDigits s).2 <:+ s := List.dropWhile_suffix _

theorem suffix_readSign (s : List Char) : (Number.readSign s).2 <:+ s := by
  unfold Number.readSign
  split
  · exact List.suffix_cons _ _
  · exact List.suffix_cons _ _
  · exact List.suffix_refl _

/-- The digits at the start of a text, if there is one. -/
theorem suffix_of_digits {α : Type} {s rest : List Char} {found : α} (of : List Char → α)
    (h : (if (Number.spanDigits s).1.isEmpty then none
      else some (of (Number.spanDigits s).1, (Number.spanDigits s).2)) = some (found, rest)) :
    rest <:+ s := by
  split at h
  · cases h
  · cases h
    exact suffix_spanDigits s

theorem leavesEnd_readWhole : LeavesEnd readWhole := by
  intro s digits rest h
  unfold readWhole at h
  split at h
  · cases h
    exact List.suffix_cons _ _
  · exact suffix_of_digits id h

theorem leavesEnd_readFraction : LeavesEnd readFraction := by
  intro s digits rest h
  unfold readFraction at h
  split at h
  · exact (suffix_of_digits id h).trans (List.suffix_cons _ _)
  · cases h

theorem leavesEnd_readPower : LeavesEnd readPower := by
  intro s power rest h
  unfold readPower at h
  split at h
  · rename_i c r
    split at h
    · dsimp only at h
      split at h
      · cases h
      · cases h
        exact ((suffix_spanDigits _).trans (suffix_readSign r)).trans (List.suffix_cons _ _)
    · cases h
  · cases h

/-- A part that may be missing leaves an end of the text too. -/
theorem LeavesEnd.suffix_getD {α : Type} {reader : List Char → Found α} (h : LeavesEnd reader)
    (s : List Char) : ((reader s).map (·.2)).getD s <:+ s := by
  rcases read : reader s with _ | ⟨found, rest⟩
  · exact List.suffix_refl _
  · exact h s found rest read

/-- What is left behind a number without its sign: a fraction and a power may follow its whole part. -/
theorem suffix_of_readWhole {s whole left : List Char} (read : readWhole s = some (whole, left)) :
    ((readPower (((readFraction left).map (·.2)).getD left)).map (·.2)).getD
      (((readFraction left).map (·.2)).getD left) <:+ s :=
  ((leavesEnd_readPower.suffix_getD _).trans (leavesEnd_readFraction.suffix_getD left)).trans
    (leavesEnd_readWhole s whole left read)

theorem leavesEnd_readNumber : LeavesEnd readNumber := by
  intro s q rest h
  unfold readNumber at h
  dsimp only at h
  split at h
  · obtain ⟨⟨whole, left⟩, read, h⟩ := Option.bind_eq_some_iff.mp h
    refine List.IsSuffix.trans ?_ (List.suffix_cons _ _)
    dsimp only at h
    split at h
    · cases h
      exact suffix_of_readWhole read
    · cases h
      exact suffix_of_readWhole read
  · obtain ⟨⟨whole, left⟩, read, h⟩ := Option.bind_eq_some_iff.mp h
    dsimp only at h
    split at h
    · cases h
      exact suffix_of_readWhole read
    · cases h
      exact suffix_of_readWhole read

theorem leavesEnd_readConstant : LeavesEnd readConstant := by
  intro s d rest h
  obtain ⟨c, _, same⟩ := Option.map_eq_some_iff.mp h
  cases same
  exact List.drop_suffix _ _

/-! ## Openings -/

/-- The brackets and braces of a text that open a list or an object, or could. -/
def openings (s : List Char) : Nat := s.countP fun c => c == '[' || c == '\x7b'

theorem openings_le {s t : List Char} (h : s <:+ t) : openings s ≤ openings t :=
  h.sublist.countP_le

/-- What a reading with so much room is to be: it leaves an end of the text, or the text has more
openings than there is room for, or the text is malformed. -/
def Accounts {α : Type} (room : Nat) (s : List Char) : Reading α → Prop
  | .ok (_, rest) => rest <:+ s
  | .error (.tooDeep _) => room < openings s
  | .error .malformed => True

section Accounts

variable {α β : Type} {room : Nat} {s t : List Char} {x : Reading α}

theorem Accounts.mono (h : Accounts room s x) (suffix : s <:+ t) : Accounts room t x := by
  match x, h with
  | .ok (_, rest), left => exact left.trans suffix
  | .error (.tooDeep _), deep => exact Nat.lt_of_lt_of_le deep (openings_le suffix)
  | .error .malformed, _ => exact trivial

theorem Accounts.map (h : Accounts room s x) (f : α → β) :
    Accounts room s (x.map fun (found, rest) => (f found, rest)) := by
  match x, h with
  | .ok (_, rest), left => exact left
  | .error (.tooDeep _), deep => exact deep
  | .error .malformed, _ => exact trivial

/-- What is wrong does not depend on what was to be found. -/
theorem Accounts.error {fault : Fault} (h : Accounts room s (.error fault : Reading α)) :
    Accounts room s (.error fault : Reading β) := by
  cases fault with
  | malformed => exact trivial
  | tooDeep n => exact h

/-- What is read behind an opening has room for one less. -/
theorem Accounts.behind {c : Char} (h : Accounts room s x) (opens : (c == '[' || c == '\x7b') = true) :
    Accounts (room + 1) (c :: s) x := by
  match x, h with
  | .ok (_, rest), left => exact left.trans (List.suffix_cons _ _)
  | .error (.tooDeep _), deep =>
    have more : openings (c :: s) = openings s + 1 := List.countP_cons_of_pos opens
    show room + 1 < openings (c :: s)
    rw [more]
    exact Nat.succ_lt_succ deep
  | .error .malformed, _ => exact trivial

theorem LeavesEnd.accounts {reader : List Char → Found α} (h : LeavesEnd reader) (room : Nat)
    (s : List Char) : Accounts room s (wellFormed (reader s)) := by
  rcases read : reader s with _ | ⟨found, rest⟩
  · exact trivial
  · exact h s found rest read

end Accounts

/-! ## Values -/

/-- Everything that is read with so much fuel accounts for its text. -/
structure AllAccount (fuel : Nat) : Prop where
  value : ∀ room s, Accounts room s (readValue fuel room s)
  items : ∀ room s, Accounts room s (readItems fuel room s)
  fields : ∀ room fields s, Accounts room s (readFields fuel room fields s)

variable {fuel : Nat}

theorem AllAccount.value_succ (h : AllAccount fuel) (room : Nat) (s : List Char) :
    Accounts room s (readValue (fuel + 1) room s) := by
  unfold readValue
  split
  · exact ((leavesEnd_readText.accounts room _).map _).mono (List.suffix_cons _ _)
  · rename_i r
    split
    · exact List.countP_pos_iff.mpr ⟨'[', List.mem_cons_self, rfl⟩
    · rename_i rest _ closed
      exact (suffix_of_skipBlanks closed).trans (List.suffix_cons _ _)
    · exact (((h.items _ _).map _).mono (skipBlanks_suffix r)).behind rfl
  · rename_i r
    split
    · exact List.countP_pos_iff.mpr ⟨'\x7b', List.mem_cons_self, rfl⟩
    · rename_i rest _ closed
      exact (suffix_of_skipBlanks closed).trans (List.suffix_cons _ _)
    · exact (((h.fields _ _ _).map _).mono (skipBlanks_suffix r)).behind rfl
  · split
    · rename_i found read
      exact leavesEnd_readConstant s found.1 found.2 read
    · exact (leavesEnd_readNumber.accounts room s).map _

theorem AllAccount.items_succ (h : AllAccount fuel) (room : Nat) (s : List Char) :
    Accounts room s (readItems (fuel + 1) room s) := by
  have first := h.value room s
  unfold readItems
  split
  · rename_i e failed
    rw [failed] at first
    exact first.error
  · rename_i d rest read
    rw [read] at first
    have left : rest <:+ s := first
    split
    · rename_i closed
      exact (suffix_of_skipBlanks closed).trans left
    · rename_i more
      have behind := (skipBlanks_suffix _).trans ((suffix_of_skipBlanks more).trans left)
      exact ((h.items room _).map _).mono behind
    · exact trivial

theorem AllAccount.fields_succ (h : AllAccount fuel) (room : Nat) (fields : List (String × Datum))
    (s : List Char) : Accounts room s (readFields (fuel + 1) room fields s) := by
  unfold readFields
  split
  · rename_i r
    split
    · exact trivial
    · rename_i name rest named
      split
      · rename_i value colon
        have reached : skipBlanks value <:+ '"' :: r :=
          ((skipBlanks_suffix value).trans (suffix_of_skipBlanks colon)).trans
            ((leavesEnd_readText r name rest named).trans (List.suffix_cons _ _))
        have first := (h.value room (skipBlanks value)).mono reached
        split
        · rename_i e failed
          rw [failed] at first
          exact first.error
        · rename_i d behind read
          rw [read] at first
          have left : behind <:+ '"' :: r := first
          dsimp only
          split
          · rename_i closed
            exact (suffix_of_skipBlanks closed).trans left
          · rename_i more
            have last := (skipBlanks_suffix _).trans ((suffix_of_skipBlanks more).trans left)
            exact (h.fields room _ _).mono last
          · exact trivial
      · exact trivial
  · exact trivial

theorem allAccount (fuel : Nat) : AllAccount fuel := by
  induction fuel with
  | zero => exact ⟨fun _ _ => trivial, fun _ _ => trivial, fun _ _ _ => trivial⟩
  | succ fuel ih => exact ⟨ih.value_succ, ih.items_succ, ih.fields_succ⟩

/-! ## Whole documents -/

/-- A text that is refused as too deep has more openings than lists and objects may stand one in
another. -/
theorem greatestDepth_lt_openings {s : List Char} {n : Nest} (h : read s = .error (.tooDeep n)) :
    greatestDepth < openings s := by
  have first := ((allAccount (2 * s.length + 2)).value greatestDepth (skipBlanks s)).mono
    (skipBlanks_suffix s)
  unfold read at h
  split at h
  · rename_i e failed
    cases h
    rw [failed] at first
    exact first
  · split at h <;> cases h

/-- So many brackets in a row leave no room for the last of them. -/
theorem readValue_replicate {fuel room : Nat} (enough : 2 * room < fuel) (rest : List Char) :
    readValue fuel room (List.replicate (room + 1) '[' ++ rest) = .error (.tooDeep .list) := by
  induction room generalizing fuel with
  | zero =>
    obtain ⟨fuel, rfl⟩ := Nat.exists_eq_succ_of_ne_zero (Nat.pos_iff_ne_zero.mp enough)
    rfl
  | succ room ih =>
    obtain ⟨fuel, rfl⟩ : ∃ k, fuel = k + 2 := ⟨fuel - 2, by omega⟩
    have items : readItems (fuel + 1) room (List.replicate (room + 1) '[' ++ rest) =
        .error (.tooDeep .list) := by
      rw [readItems, ih (by omega)]
    show (readItems (fuel + 1) room (List.replicate (room + 1) '[' ++ rest)).map _ = _
    rw [items]
    rfl

/-- One bracket more than lists may stand one in another is too deep, whatever follows. -/
theorem read_replicate (rest : List Char) :
    read (List.replicate (greatestDepth + 1) '[' ++ rest) = .error (.tooDeep .list) := by
  have enough : 2 * greatestDepth <
      2 * (List.replicate (greatestDepth + 1) '[' ++ rest).length + 2 := by
    rw [List.length_append, List.length_replicate]
    omega
  have first : skipBlanks (List.replicate (greatestDepth + 1) '[' ++ rest) =
      List.replicate (greatestDepth + 1) '[' ++ rest := rfl
  rw [read, first, readValue_replicate enough]

end BusCycle.Document
