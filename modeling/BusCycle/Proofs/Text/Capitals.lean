-- A text in capitals stays as it is when it is put in capitals again. The table of letters never leads
-- to a letter that it changes, which is checked for whole runs and not for letters.
import BusCycle.Proofs.Text.Cleaning

namespace BusCycle.Text

/-! ## Letters that change -/

/-- The runs of all letters that have other capitals, in one character or in several. -/
def letterRuns : List CaseRun := caseRuns ++ expandedCapitals.map fun p => ⟨p.1, p.1, 1, 0⟩

/-- A code point of no letter that changes. -/
def IsSteady (n : Nat) : Prop := ∀ r ∈ letterRuns, r.covers n = false

instance (n : Nat) : Decidable (IsSteady n) := inferInstanceAs (Decidable (∀ r ∈ letterRuns, _))

theorem capital_of_isSteady {c : Char} (h : IsSteady c.toNat) : capital c = [c] := by
  unfold capital
  split
  · rename_i codes found
    obtain ⟨before, after, table, -⟩ := List.lookup_eq_some_iff.mp found
    have listed : (c.toNat, codes) ∈ expandedCapitals := table ▸ List.mem_append_cons_self
    have run := h ⟨c.toNat, c.toNat, 1, 0⟩
      (List.mem_append_right _ (List.mem_map.mpr ⟨_, listed, rfl⟩))
    simp [CaseRun.covers] at run
  · split
    · rename_i r found
      have run := h r (List.mem_append_left _ (List.mem_of_find?_eq_some found))
      have covered : r.covers c.toNat = true := by simpa using List.find?_some found
      rw [run] at covered
      cases covered
    · rfl

/-- There is no letter that changes before the small `a`. -/
theorem first_letterRuns : ∀ r ∈ letterRuns, 97 ≤ r.first := by
  decide +kernel

theorem isSteady_of_lt {n : Nat} (h : n < 97) : IsSteady n := by
  intro r hr
  have := first_letterRuns r hr
  rw [Bool.eq_false_iff]
  simp only [CaseRun.covers, ne_eq, Bool.and_eq_true, decide_eq_true_eq]
  omega

theorem capital_of_lt {c : Char} (h : c.toNat < 97) : capital c = [c] :=
  capital_of_isSteady (isSteady_of_lt h)

theorem isSteady_ofNat {n : Nat} (h : IsSteady n) : IsSteady (Char.ofNat n).toNat := by
  rcases toNat_ofNat_cases n with same | zero
  · rw [same]
    exact h
  · rw [zero]
    exact isSteady_of_lt (by decide)

/-! ## Where the capitals lie -/

namespace CaseRun

/-- The capital of the first letter of a run. -/
def lowest (r : CaseRun) : Nat := (r.first + r.shift).toNat

/-- The capital of the last. -/
def highest (r : CaseRun) : Nat := (r.last + r.shift).toNat

/-- No capital of the one run is in the other: they all lie before it or behind it, or, as in the runs of
every second letter, in its gaps. -/
def avoids (r q : CaseRun) : Bool :=
  Nat.blt r.highest q.first || Nat.blt q.last r.lowest ||
    (q.stride == 2 && (r.stride == 2 || r.first == r.last) && (r.lowest + q.first) % 2 == 1)

theorem not_covers_of_avoids {r q : CaseRun} (positive : 0 ≤ r.first + r.shift)
    (apart : r.avoids q = true) {n : Nat} (h : r.covers n = true) :
    q.covers (n + r.shift).toNat = false := by
  rw [Bool.eq_false_iff]
  intro met
  simp only [covers, Bool.and_eq_true, decide_eq_true_eq, beq_iff_eq] at h met
  obtain ⟨⟨first, last⟩, step⟩ := h
  obtain ⟨⟨first', last'⟩, step'⟩ := met
  simp only [avoids, Bool.or_eq_true, Bool.and_eq_true, Nat.blt_eq, beq_iff_eq, lowest,
    highest] at apart
  rcases apart with (before | behind) | ⟨⟨second, every⟩, gap⟩
  · omega
  · omega
  · rw [second] at step'
    rcases every with same | one
    · rw [same] at step
      omega
    · omega

end CaseRun

/-- No capital is a letter that changes. -/
theorem caseRuns_avoid : (caseRuns.all fun r => letterRuns.all r.avoids) = true := by
  decide +kernel

theorem caseRuns_positive : ∀ r ∈ caseRuns, 0 ≤ r.first + r.shift := by
  decide +kernel

/-- Neither is a character of a longer capital. -/
theorem expandedCapitals_avoid : (expandedCapitals.all fun p =>
    p.2.all fun n => letterRuns.all (CaseRun.avoids ⟨n, n, 1, 0⟩)) = true := by
  decide +kernel

/-! ## Capitals of capitals -/

/-- The capital of a character is made of characters that are their own capitals. -/
theorem capital_of_mem_capital {c d : Char} (h : d ∈ capital c) : capital d = [d] := by
  unfold capital at h
  split at h
  · rename_i codes found
    obtain ⟨before, after, table, -⟩ := List.lookup_eq_some_iff.mp found
    have listed : (c.toNat, codes) ∈ expandedCapitals := table ▸ List.mem_append_cons_self
    obtain ⟨n, hn, rfl⟩ := List.mem_map.mp h
    apply capital_of_isSteady
    apply isSteady_ofNat
    intro q hq
    have single := List.all_eq_true.mp (List.all_eq_true.mp expandedCapitals_avoid _ listed) n hn
    have apart := List.all_eq_true.mp single q hq
    have lone : CaseRun.covers ⟨n, n, 1, 0⟩ n = true := by simp [CaseRun.covers]
    simpa using CaseRun.not_covers_of_avoids (by simp) apart lone
  · rename_i single
    split at h
    · rename_i r found
      have mem := List.mem_of_find?_eq_some found
      have covered : r.covers c.toNat = true := by simpa using List.find?_some found
      rw [List.mem_singleton] at h
      subst h
      apply capital_of_isSteady
      apply isSteady_ofNat
      intro q hq
      have apart := List.all_eq_true.mp (List.all_eq_true.mp caseRuns_avoid r mem) q hq
      exact CaseRun.not_covers_of_avoids (caseRuns_positive r mem) apart covered
    · rename_i no_run
      rw [List.mem_singleton] at h
      subst h
      simp [capital, single, no_run]

/-- A text whose characters are all their own capitals. -/
def InCapitals (s : List Char) : Prop := ∀ c ∈ s, capital c = [c]

theorem upper_of_inCapitals {s : List Char} (h : InCapitals s) : upper s = s := by
  unfold upper
  induction s with
  | nil => rfl
  | cons c s ih =>
    rw [List.flatMap_cons, h c List.mem_cons_self, ih fun d hd => h d (List.mem_cons_of_mem _ hd)]
    rfl

theorem inCapitals_upper (s : List Char) : InCapitals (upper s) := by
  intro d hd
  obtain ⟨c, -, hc⟩ := List.mem_flatMap.mp hd
  exact capital_of_mem_capital hc

theorem InCapitals.append {s t : List Char} (hs : InCapitals s) (ht : InCapitals t) :
    InCapitals (s ++ t) := by
  intro c hc
  rcases List.mem_append.mp hc with front | back
  · exact hs c front
  · exact ht c back

end BusCycle.Text
