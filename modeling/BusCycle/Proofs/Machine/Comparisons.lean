-- Conditional jumps behind a comparison. There is no overflow flag, so a jump that is named for a signed
-- comparison goes by the sign of the difference of two words. That is the right answer exactly as long as
-- the difference of the signed numbers fits a word, and the opposite one where it does not.
import BusCycle.Proofs.Machine.Jumps
import BusCycle.Proofs.Session.FlagSources

namespace BusCycle

/-! ## Differences -/

/-- The two words whose difference a form sets the flags by, if it is a comparison or a subtraction. -/
def Form.compared? (r : Registers) : Form → Option (Word × Word)
  | binary .cmp dest src | binary .sub dest src => some (r.general dest, r.general src)
  | binaryImmediate .cmp dest value | binaryImmediate .sub dest value =>
    some (r.general dest, BitVec.ofInt 16 value)
  | _ => none

/-- A number that a word can hold with a sign. -/
def FitsSigned (v : Int) : Prop := -32768 ≤ v ∧ v ≤ 32767

instance (v : Int) : Decidable (FitsSigned v) := inferInstanceAs (Decidable (_ ∧ _))

/-- The difference of two words is that of their signed readings if it fits a word. Otherwise it is on
the other side of zero. -/
theorem toInt_sub_cases (a b : Word) :
    (FitsSigned (a.toInt - b.toInt) ∧ (a - b).toInt = a.toInt - b.toInt) ∨
      (32767 < a.toInt - b.toInt ∧ (a - b).toInt < 0) ∨
        (a.toInt - b.toInt < -32768 ∧ 0 < (a - b).toInt) := by
  have ha : -32768 ≤ a.toInt ∧ a.toInt < 32768 := ⟨BitVec.le_toInt a, BitVec.toInt_lt⟩
  have hb : -32768 ≤ b.toInt ∧ b.toInt < 32768 := ⟨BitVec.le_toInt b, BitVec.toInt_lt⟩
  unfold FitsSigned
  rw [BitVec.toInt_sub, Int.bmod_def]
  split <;> omega

/-- Only equal words have no difference. -/
theorem word_sub_eq_zero_iff (a b : Word) : a - b = 0#16 ↔ a = b := by
  rw [BitVec.sub_eq_iff_eq_add, BitVec.zero_add]

/-! ## Signed comparisons -/

/-- A comparison of two signed numbers. -/
inductive SignedComparison
  | less
  | atLeast
  | atMost
  | greater
  deriving DecidableEq

namespace SignedComparison

def holds : SignedComparison → Int → Int → Bool
  | less, x, y => x < y
  | atLeast, x, y => x ≥ y
  | atMost, x, y => x ≤ y
  | greater, x, y => x > y

variable (k : SignedComparison)

/-- Two numbers compare as their difference compares with zero. -/
theorem holds_sub (x y : Int) : k.holds (x - y) 0 = k.holds x y := by
  cases k <;> simp only [holds, decide_eq_decide] <;> omega

/-- No comparison with zero holds on both sides of it, and none fails on both. -/
theorem holds_opposite {x y : Int} (apart : x < 0 ∧ 0 < y ∨ y < 0 ∧ 0 < x) :
    k.holds x 0 = !k.holds y 0 := by
  cases k <;> simp only [holds, ← decide_not, decide_eq_decide] <;> omega

end SignedComparison

/-! ## Decisions -/

namespace Condition

/-- The signed comparison that a condition is named for. -/
def comparison? : Condition → Option SignedComparison
  | jl => some .less
  | jge => some .atLeast
  | jle => some .atMost
  | jg => some .greater
  | _ => none

/-- What a condition decides on two words, once their difference has set the flags. A condition that is
named for a signed comparison decides by it if the difference of the signed readings fits a word, and
by its opposite if it does not. -/
structure DecidesOn (c : Condition) (a b : Word) (taken : Bool) : Prop where
  equal : c = je ∨ c = jz → (taken = true ↔ a = b)
  unequal : c = jne ∨ c = jnz → (taken = true ↔ a ≠ b)
  negative : c = js → (taken = true ↔ (a - b).toInt < 0)
  nonnegative : c = jns → (taken = true ↔ 0 ≤ (a - b).toInt)
  compares : ∀ k, c.comparison? = some k → FitsSigned (a.toInt - b.toInt) →
    taken = k.holds a.toInt b.toInt
  opposes : ∀ k, c.comparison? = some k → ¬FitsSigned (a.toInt - b.toInt) →
    taken = !k.holds a.toInt b.toInt

/-- What a condition decides by the flags of a result. -/
def onResult (c : Condition) (result : Word) : Bool :=
  c.taken (decide (result = 0)) (decide (result.toInt < 0))

/-- The flags of a result are all that a condition asks for, whatever the other bits are. -/
theorem holds_setZeroSign (c : Condition) (f : Flags) (result : Word) :
    c.holds (f.setZeroSign (flagsOfResult result)) = c.onResult result := by
  have zero : (f.setZeroSign (flagsOfResult result)).zero = decide (result = 0) := by
    rw [Flags.zero, Flags.getLsbD_setZeroSign, Flags.getLsbD_flagsOfResult]
    simp
  have sign : (f.setZeroSign (flagsOfResult result)).sign = decide (result.toInt < 0) := by
    rw [Flags.sign, Flags.getLsbD_setZeroSign, Flags.getLsbD_flagsOfResult,
      ← BitVec.msb_eq_toInt, BitVec.msb_eq_getLsbD_last]
    simp
  unfold onResult
  rw [← zero, ← sign]
  cases c <;> rfl

/-- A condition that is named for a signed comparison compares the result with zero. -/
theorem onResult_of_comparison? {c : Condition} {k : SignedComparison}
    (h : c.comparison? = some k) (result : Word) : c.onResult result = k.holds result.toInt 0 := by
  have zero : result = 0 ↔ result.toInt = 0 := by
    constructor
    · rintro rfl
      rfl
    · intro h
      exact BitVec.eq_of_toInt_eq h
  unfold comparison? at h
  split at h
  · cases h
    rfl
  · cases h
    simp only [onResult, taken, SignedComparison.holds, ← decide_not, decide_eq_decide]
    omega
  · cases h
    simp only [onResult, taken, SignedComparison.holds, zero, ← Bool.decide_or, decide_eq_decide]
    omega
  · cases h
    simp only [onResult, taken, SignedComparison.holds, zero, ← decide_not, ← Bool.decide_and,
      decide_eq_decide]
    omega
  · cases h

theorem decidesOn_onResult (c : Condition) (a b : Word) : c.DecidesOn a b (c.onResult (a - b)) := by
  constructor
  case equal =>
    rintro (rfl | rfl)
    · simp [onResult, taken, word_sub_eq_zero_iff]
    · simp [onResult, taken, word_sub_eq_zero_iff]
  case unequal =>
    rintro (rfl | rfl)
    · simp [onResult, taken, word_sub_eq_zero_iff]
    · simp [onResult, taken, word_sub_eq_zero_iff]
  case negative =>
    rintro rfl
    simp [onResult, taken]
  case nonnegative =>
    rintro rfl
    simp [onResult, taken]
  case compares =>
    intro k named fits
    rw [onResult_of_comparison? named, ← k.holds_sub a.toInt]
    rcases toInt_sub_cases a b with ⟨-, same⟩ | ⟨beyond, -⟩ | ⟨beyond, -⟩
    · rw [same]
    · exact absurd fits.2 (by omega)
    · exact absurd fits.1 (by omega)
  case opposes =>
    intro k named unfit
    rw [onResult_of_comparison? named, ← k.holds_sub a.toInt]
    rcases toInt_sub_cases a b with ⟨fits, -⟩ | ⟨beyond, side⟩ | ⟨beyond, side⟩
    · exact absurd fits unfit
    · exact k.holds_opposite (Or.inl ⟨side, by omega⟩)
    · exact k.holds_opposite (Or.inr ⟨by omega, side⟩)

end Condition

/-! ## Two lines -/

namespace Machine

/-- A line that takes a difference sets the flags by it and by nothing else. -/
theorem flagSource?_of_compared? {m : Machine} {line : String} {f : Form} {a b : Word}
    (hf : Program.form? line = some f) (hab : f.compared? m.registers = some (a, b)) :
    m.flagSource? line = some (.computed (a - b)) := by
  unfold flagSource?
  rw [hf]
  unfold Form.compared? at hab
  split at hab
  · cases hab
    rfl
  · cases hab
    rfl
  · cases hab
    rfl
  · cases hab
    rfl
  · cases hab

/-- The machine with another bus. -/
def onBus (m : Machine) (w : BusWidth) : Machine := { m with width := w }

@[simp] theorem registers_onBus (m : Machine) (w : BusWidth) : (m.onBus w).registers = m.registers := rfl

/-- The machine after a line with a conditional jump was fetched. -/
def atBranch (m : Machine) (line : String) : Machine :=
  { m with bus := m.bus.beginStep }.fetched line

/-- The machine after a conditional jump: at its target, or still behind the fetch. The log says which. -/
def afterBranch (m : Machine) (line : String) (c : Condition) (target : Int) (taken : Bool) : Machine :=
  if taken then (m.atBranch line).jumpTo (BitVec.ofInt 16 target)
  else (m.atBranch line).note (.notTaken c (m.atBranch line).registers.ip)

/-- The target is where the one machine stands, and the next instruction is where the other one does. -/
theorem ip_afterBranch (m : Machine) {line : String} {c : Condition} {target : Int}
    (h : Program.form? line = some (.branch c target)) (taken : Bool) :
    (m.afterBranch line c target taken).registers.ip =
      if taken then BitVec.ofInt 16 target else m.registers.ip + 2 := by
  have behind : (m.atBranch line).registers.ip = m.registers.ip + 2 :=
    Machine.ip_fetched_of_form? h _
  unfold afterBranch
  by_cases ht : taken = true
  · simp only [ht, if_true]
    rfl
  · simp only [ht]
    exact behind

theorem runLine_branch (m : Machine) {line : String} {c : Condition} {target : Int}
    (h : Program.form? line = some (.branch c target)) :
    m.runLine line = m.afterBranch line c target (c.holds m.registers.flags) := by
  obtain ⟨i, read, form⟩ := Program.parse_of_form? h 0
  have code : m.codeOf line = (Assembled.ofInstruction i m.registers.ip).code :=
    codeOf_of_parse read m
  have known : (Assembled.ofInstruction i m.registers.ip).form = some (.branch c target) :=
    (Assembled.form_ofInstruction i _).trans form
  have fetched : { m with bus := m.bus.beginStep }.fetch
      (Assembled.ofInstruction i m.registers.ip).code = m.atBranch line := by
    rw [← code]
    rfl
  rw [runLine_of_parse read, cycle, fetched, execute, known]
  rfl

end Machine

/-- A conditional jump behind a comparison or a subtraction is decided by the two words alone. Neither
the bus width, which may change between the two lines, nor the memory nor any other register has a say
in it, and neither has the flags word as it was. -/
theorem differences_decide_branches (c : Condition) (a b : Word) :
    ∃ taken : Bool, c.DecidesOn a b taken ∧
      ∀ (m : Machine) (line jump : String) (f : Form) (target : Int) (w : BusWidth),
        Program.form? line = some f → f.compared? m.registers = some (a, b) →
        Program.form? jump = some (.branch c target) →
        let asked := (m.runLine line).onBus w
        asked.runLine jump = asked.afterBranch jump c target taken ∧
          (asked.runLine jump).registers.ip =
            if taken then BitVec.ofInt 16 target else asked.registers.ip + 2 := by
  refine ⟨c.onResult (a - b), c.decidesOn_onResult a b, ?_⟩
  intro m line jump f target w hf hab hj asked
  have source := Machine.flagSource?_of_compared? hf hab
  have flags : asked.registers.flags = m.registers.flags.setZeroSign (flagsOfResult (a - b)) := by
    rw [Machine.registers_onBus, Machine.flags_runLine, source]
    rfl
  have decided : c.holds asked.registers.flags = c.onResult (a - b) := by
    rw [flags, Condition.holds_setZeroSign]
  have run : asked.runLine jump = asked.afterBranch jump c target (c.onResult (a - b)) := by
    rw [asked.runLine_branch hj, decided]
  refine ⟨run, ?_⟩
  rw [run]
  exact asked.ip_afterBranch hj _

/-- A machine whose `AX` holds the greatest signed number. -/
def Machine.atGreatest : Machine :=
  (Machine.fresh Preset.classic.registers (.ofInt 8)).setGeneral .ax 0x7FFF

/-- The greatest number is greater than minus one, but the difference overflows, so the jump stays. -/
theorem atGreatest_stays :
    Program.form? "CMP AX, -1" = some (.binaryImmediate .cmp .ax 0xFFFF) ∧
      Program.form? "JG 0" = some (.branch .jg 0) ∧ ¬FitsSigned (0x7FFF - -1) ∧
      (((Machine.atGreatest.runLine "CMP AX, -1").onBus (.ofInt 16)).runLine "JG 0").registers.ip =
        ((Machine.atGreatest.runLine "CMP AX, -1").onBus (.ofInt 16)).registers.ip + 2 := by
  have compare : Program.form? "CMP AX, -1" = some (.binaryImmediate .cmp .ax 0xFFFF) := by
    decide +kernel
  have jump : Program.form? "JG 0" = some (.branch .jg 0) := by
    decide +kernel
  obtain ⟨taken, decides, runs⟩ := differences_decide_branches .jg 0x7FFF 0xFFFF
  have stays : taken = false := decides.opposes _ rfl (by decide)
  subst stays
  obtain ⟨-, ip⟩ := runs Machine.atGreatest "CMP AX, -1" "JG 0" _ 0 (.ofInt 16) compare rfl jump
  rw [if_neg Bool.false_ne_true] at ip
  exact ⟨compare, jump, by decide, ip⟩

end BusCycle
