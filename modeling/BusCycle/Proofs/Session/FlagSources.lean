-- Where the flags come from. Two kinds of lines set them: one that pops them sets the whole word, and
-- one that computes sets the zero and the sign flag by its result. Whatever lines stand in between, the
-- flags are those of the last such line, or of the preset.
import BusCycle.Proofs.Machine.Meaning
import BusCycle.Proofs.Session.Consistency
import BusCycle.Proofs.Session.StackDiscipline
import Mathlib.Data.List.Induction

namespace BusCycle

/-! ## Sources -/

/-- What a line sets flags by: a word that it pops into them, or a result that it computes. -/
inductive FlagSource
  | popped (word : Word)
  | computed (result : Word)
  deriving DecidableEq

namespace FlagSource

/-- The flags that a source leaves. -/
def after (f : Flags) : FlagSource → Flags
  | popped word => .ofWord word
  | computed result => f.setZeroSign (flagsOfResult result)

def popped? : FlagSource → Option Word
  | popped word => some word
  | computed _ => none

/-- The word that was popped last. -/
def lastPopped? (sources : List FlagSource) : Option Word := (sources.filterMap popped?).getLast?

/-- The last result, if no word was popped after it. -/
def resultSincePop? (sources : List FlagSource) : Option Word :=
  match sources.getLast? with
  | some (computed result) => some result
  | _ => none

end FlagSource

namespace Machine

/-- What a line sets the flags by, if it does. -/
def flagSource? (m : Machine) (line : String) : Option FlagSource :=
  match Program.form? line with
  | some .popFlags => some (.popped (m.wordPopped line))
  | some (.binary op dest src) =>
    some (.computed (op.apply (m.registers.general dest) (m.registers.general src)))
  | some (.binaryImmediate op dest value) =>
    some (.computed (op.apply (m.registers.general dest) (.ofInt 16 value)))
  | some (.unary op dest) => some (.computed (op.apply (m.registers.general dest)))
  | _ => none

end Machine

/-- The kinds of instruction that set flags. -/
def Form.flagKinds : List String :=
  ["ALU_REG_REG", "ALU_REG_IMM", "INC_DEC_REG", "NOT_NEG_REG", "POPF"]

/-! ## One line -/

theorem Registers.flags_setGeneral (r : Registers) (g : General) (w : Word) :
    (r.setGeneral g w).flags = r.flags := by
  cases g <;> rfl

theorem Registers.flags_setSegment (r : Registers) (s : Segment) (w : Word) :
    (r.setSegment s w).flags = r.flags := by
  cases s <;> rfl

theorem Registers.flags_afterBinary (r : Registers) (op : BinaryOp) (dest : General) (right : Word) :
    (r.afterBinary op dest right).flags =
      r.flags.setZeroSign (flagsOfResult (op.apply (r.general dest) right)) := by
  unfold afterBinary
  dsimp only
  split
  · exact flags_setGeneral _ _ _
  · rfl

theorem Registers.flags_afterUnary (r : Registers) (op : UnaryOp) (dest : General) :
    (r.afterUnary op dest).flags = r.flags.setZeroSign (flagsOfResult (op.apply (r.general dest))) :=
  congrArg (Flags.setZeroSign · _) (r.flags_setGeneral dest _)

theorem Registers.flags_afterLoop (r : Registers) (target : Word) :
    (r.afterLoop target).flags = r.flags := by
  unfold afterLoop
  dsimp only
  split <;> rfl

namespace Machine

variable (m : Machine) (line : String)

/-- The flags after a line are those before it, unless the line sets them. -/
theorem flags_runLine :
    (m.runLine line).registers.flags =
      (m.flagSource? line).elim m.registers.flags (·.after m.registers.flags) := by
  have fetched : (m.fetched line).registers.flags = m.registers.flags := rfl
  rw [registers_runLine, flagSource?, lineAccess?]
  cases form : Program.form? line with
  | none => exact fetched
  | some f =>
    cases f with
    | binary op dest src => exact Registers.flags_afterBinary _ _ _ _
    | binaryImmediate op dest value => exact Registers.flags_afterBinary _ _ _ _
    | unary op dest => exact Registers.flags_afterUnary _ _ _
    | popFlags => rfl
    | moveImmediate dest _ | move dest _ | storeSegment dest _ | load dest _ | pop dest =>
      exact (Registers.flags_setGeneral _ _ _).trans fetched
    | loadSegment dest src => exact (Registers.flags_setSegment _ _ _).trans fetched
    | loop target => exact (Registers.flags_afterLoop _ _).trans fetched
    | branch condition target =>
      dsimp only [Option.elim, Form.registersAfter]
      split <;> exact fetched
    | store | jump | call | ret | push | pushFlags | nop | halt | input | output => exact fetched

/-- The lines that set flags are those of five kinds. -/
theorem isSome_flagSource?_iff :
    (m.flagSource? line).isSome ↔ Form.kindOf (Program.form? line) ∈ Form.flagKinds := by
  unfold flagSource?
  cases Program.form? line with
  | none => simp [Form.kindOf, Form.flagKinds]
  | some f =>
    cases f with
    | unary op _ => cases op <;> simp [Form.kindOf, Form.kind, Form.flagKinds]
    | _ => simp [Form.kindOf, Form.kind, Form.flagKinds]

/-- A line that pops no flags is no source of a popped word. -/
theorem popped?_flagSource? {source : FlagSource} (h : m.flagSource? line = some source)
    (other : Program.form? line ≠ some .popFlags) : source.popped? = none := by
  unfold flagSource? at h
  split at h
  · exact absurd ‹_› other
  · cases h
    rfl
  · cases h
    rfl
  · cases h
    rfl
  · cases h

end Machine

/-! ## Bits -/

namespace Flags

theorem getLsbD_ofWord {i : Nat} (w : Word) (h : i ≠ 1) : (ofWord w).word.getLsbD i = w.getLsbD i := by
  have reserved : (0x0002 : Word).getLsbD i = false := by
    rw [show (0x0002 : Word) = BitVec.twoPow 16 1 from rfl, BitVec.getLsbD_twoPow]
    simp [h.symm]
  rw [ofWord, BitVec.getLsbD_or, reserved, Bool.or_false]

/-- The flags of no bits but the zero flag, the sign flag and the reserved bit. -/
def ofZeroSign (zero sign : Bool) : Word :=
  BitVec.twoPow 16 1 ||| (if zero then zeroMask else 0) ||| (if sign then signMask else 0)

theorem word_of_others_clear (f : Flags)
    (others : ∀ i, i ≠ 1 → i ≠ 6 → i ≠ 7 → f.word.getLsbD i = false) :
    f.word = ofZeroSign f.zero f.sign := by
  have bit (b : Bool) (k i : Nat) : (if b then BitVec.twoPow 16 k else 0 : Word).getLsbD i =
      (b && (BitVec.twoPow 16 k).getLsbD i) := by
    cases b <;> simp
  have word : ofZeroSign f.zero f.sign = BitVec.twoPow 16 1 |||
      (if f.zero then BitVec.twoPow 16 6 else 0) ||| (if f.sign then BitVec.twoPow 16 7 else 0) := rfl
  apply BitVec.eq_of_getLsbD_eq
  intro i hi
  rw [word, BitVec.getLsbD_or, BitVec.getLsbD_or, bit, bit, BitVec.getLsbD_twoPow,
    BitVec.getLsbD_twoPow, BitVec.getLsbD_twoPow]
  by_cases reserved : i = 1
  · subst reserved
    rw [f.reserved]
    simp
  · by_cases zero : i = 6
    · subst zero
      simp [Flags.zero]
    · by_cases sign : i = 7
      · subst sign
        simp [Flags.sign]
      · rw [others i reserved zero sign]
        simp [Ne.symm reserved, Ne.symm zero, Ne.symm sign]

end Flags

/-! ## Many lines -/

namespace FlagSource

/-- What sources leave of the flags, from the first one to the last one. -/
def afterAll (preset : Flags) (sources : List FlagSource) : Flags := sources.foldl after preset

/-- Flags are told by sources: the two flags by the last source, all other bits by the last word that
was popped, and by the preset where there is none. -/
structure Told (preset : Flags) (sources : List FlagSource) (f : Flags) : Prop where
  others : ∀ i, i ≠ 1 → i ≠ 6 → i ≠ 7 →
    f.word.getLsbD i = ((lastPopped? sources).getD preset.word).getLsbD i
  computed : ∀ result, resultSincePop? sources = some result →
    f.zero = decide (result = 0) ∧ f.sign = result.getLsbD 15
  uncomputed : resultSincePop? sources = none →
    f.zero = ((lastPopped? sources).getD preset.word).getLsbD 6 ∧
      f.sign = ((lastPopped? sources).getD preset.word).getLsbD 7

theorem told_nil (preset : Flags) : Told preset [] preset :=
  ⟨fun _ _ _ _ => rfl, fun _ h => (nomatch h), fun _ => ⟨rfl, rfl⟩⟩

theorem Told.concat {preset f : Flags} {sources : List FlagSource} (h : Told preset sources f)
    (source : FlagSource) : Told preset (sources ++ [source]) (source.after f) := by
  have last : (sources ++ [source]).getLast? = some source := List.getLast?_concat
  cases source with
  | popped word =>
    have popped : lastPopped? (sources ++ [.popped word]) = some word := by
      simp [lastPopped?, List.filterMap_append, FlagSource.popped?]
    refine ⟨?_, ?_, ?_⟩
    · intro i reserved _ _
      rw [popped]
      exact Flags.getLsbD_ofWord word reserved
    · intro result since
      simp [resultSincePop?] at since
    · intro _
      rw [popped]
      exact ⟨Flags.getLsbD_ofWord word (by decide), Flags.getLsbD_ofWord word (by decide)⟩
  | computed result =>
    have popped : lastPopped? (sources ++ [.computed result]) = lastPopped? sources := by
      simp [lastPopped?, List.filterMap_append, FlagSource.popped?]
    refine ⟨?_, ?_, ?_⟩
    · intro i reserved zero sign
      rw [popped, ← h.others i reserved zero sign, after, Flags.getLsbD_setZeroSign,
        if_neg (by simp [zero, sign])]
    · intro result' since
      simp only [resultSincePop?, last, Option.some_inj] at since
      subst since
      rw [after, Flags.zero, Flags.sign, Flags.getLsbD_setZeroSign, Flags.getLsbD_setZeroSign,
        Flags.getLsbD_flagsOfResult, Flags.getLsbD_flagsOfResult]
      simp
    · intro since
      simp [resultSincePop?] at since

theorem told_afterAll (preset : Flags) (sources : List FlagSource) :
    Told preset sources (afterAll preset sources) := by
  induction sources using List.reverseRecOn with
  | nil => exact told_nil preset
  | append_singleton sources source ih =>
    rw [afterAll, List.foldl_append]
    exact ih.concat source

/-- Where nothing was popped, flags that were clear have at most one of the two flags set. -/
theorem Told.unpopped {preset f : Flags} {sources : List FlagSource} (h : Told preset sources f)
    (clear : preset.word = 0x0002) (unpopped : ∀ source ∈ sources, source.popped? = none) :
    f.word ∈ [0x0002, 0x0042, 0x0082] ∧ ¬(f.zero = true ∧ f.sign = true) := by
  have popped : lastPopped? sources = .none := by
    rw [lastPopped?, List.filterMap_eq_nil_iff.mpr unpopped]
    rfl
  have others : ∀ i, i ≠ 1 → i ≠ 6 → i ≠ 7 → f.word.getLsbD i = false := by
    intro i reserved zero sign
    rw [h.others i reserved zero sign, popped, Option.getD_none, clear,
      show (0x0002 : Word) = BitVec.twoPow 16 1 from rfl, BitVec.getLsbD_twoPow]
    simp [Ne.symm reserved]
  have apart : ¬(f.zero = true ∧ f.sign = true) := by
    rintro ⟨zero, sign⟩
    cases since : resultSincePop? sources with
    | none =>
      obtain ⟨same, _⟩ := h.uncomputed since
      rw [zero, popped, Option.getD_none, clear] at same
      exact absurd same (by decide)
    | some result =>
      obtain ⟨isZero, isNegative⟩ := h.computed result since
      rw [zero, eq_comm, decide_eq_true_iff] at isZero
      rw [sign, isZero] at isNegative
      exact absurd isNegative (by decide)
  refine ⟨?_, apart⟩
  rw [f.word_of_others_clear others]
  revert apart
  cases f.zero <;> cases f.sign <;> decide

end FlagSource

/-! ## Sessions -/

/-- What the next step sets the flags by, if it is executed and does. -/
def Session.flagSource? (s : Session) : Option FlagSource := s.machine.flagSource? s.line

/-- The flags after a step are those before it, unless its line sets them. -/
theorem Session.flags_advance {s : Session} {line : String} {i : Instruction}
    (hl : s.nextLine? = some line) (hi : Instruction.parse line (s.pc + 1) = .ok i) :
    (s.advance line i).machine.registers.flags =
      s.flagSource?.elim s.machine.registers.flags (·.after s.machine.registers.flags) := by
  have run : (s.advance line i).machine = s.ready.runLine line :=
    (Machine.runLine_of_parse hi s.ready).symm
  rw [run, Machine.flags_runLine, flagSource?, line_of_nextLine? hl]
  rfl

namespace Account

/-- What the steps of an account set the flags by, from the first one to the last one. -/
def flagSources (a : Account) : List FlagSource := a.begun.filterMap Session.flagSource?

theorem kept_flags (c : Config) : Kept fun a => a.session.config = c ∧
    a.session.machine.registers.flags =
      FlagSource.afterAll c.preset.registers.flags a.flagSources where
  start a w program h _ _ := by
    obtain ⟨rfl, _⟩ := h
    exact ⟨rfl, rfl⟩
  reset a h := by
    obtain ⟨rfl, _⟩ := h
    exact ⟨rfl, rfl⟩
  setWidth _ _ h _ := h
  advance a line i h hl hi := by
    obtain ⟨config, flags⟩ := h
    refine ⟨config, ?_⟩
    have more : flagSources ⟨a.session.advance line i, a.begun ++ [a.session], a.session.width⟩ =
        a.flagSources ++ a.session.flagSource?.toList := by
      rw [flagSources, List.filterMap_append]
      cases found : a.session.flagSource? <;> simp [flagSources, found]
    rw [Session.flags_advance hl hi, flags, more]
    unfold FlagSource.afterAll
    rw [List.foldl_append]
    cases a.session.flagSource? <;> rfl

theorem flags_ofOperations (c : Config) (ops : List Operation) :
    (ofOperations c ops).session.machine.registers.flags =
      FlagSource.afterAll c.preset.registers.flags (ofOperations c ops).flagSources :=
  ((kept_flags c).ofOperations ⟨rfl, rfl⟩ ops).2

/-- The flags of a session are told by what its executed steps did, and by its preset. -/
structure FlagsTraced (c : Config) (a : Account) : Prop where
  executed : ∀ (k : Nat) (b : Session), a.begun[k]? = some b →
    a.session.program[k]? = some b.line ∧
      b.step.1 = .ok (.executed k b.line b.step.2.machine.bus.text)
  length : a.begun.length = a.session.pc
  told : FlagSource.Told c.preset.registers.flags a.flagSources a.session.machine.registers.flags
  isSome_iff : ∀ b ∈ a.begun,
    b.flagSource?.isSome ↔ Form.kindOf (Program.form? b.line) ∈ Form.flagKinds
  unmoved : ∀ b ∈ a.begun, b.flagSource? = none →
    b.step.2.machine.registers.flags = b.machine.registers.flags
  others : ∀ b ∈ a.begun, Program.form? b.line ≠ some .popFlags → ∀ i, i ≠ 1 → i ≠ 6 → i ≠ 7 →
    b.step.2.machine.registers.flags.word.getLsbD i = b.machine.registers.flags.word.getLsbD i
  unpopped : (∀ b ∈ a.begun, Program.form? b.line ≠ some .popFlags) →
    a.session.machine.registers.flags.word ∈ [0x0002, 0x0042, 0x0082] ∧
      ¬(a.session.machine.registers.flags.zero = true ∧ a.session.machine.registers.flags.sign = true)

variable {c : Config} {a : Account}

/-- The flags after a step that an account has made. -/
theorem Sound.flags_step (h : Sound c a) {b : Session} (hb : b ∈ a.begun) :
    b.step.2.machine.registers.flags =
      b.flagSource?.elim b.machine.registers.flags (·.after b.machine.registers.flags) := by
  obtain ⟨k, hk⟩ := List.mem_iff_getElem?.mp hb
  obtain ⟨_, _, executes⟩ := h.began k b hk
  obtain ⟨line, i, hl, hi⟩ := Session.line_of_executes executes
  rw [Session.step_of_ok hl hi]
  exact Session.flags_advance hl hi

/-- A step that pops no flags sets the two flags at most. -/
theorem Sound.others_step (h : Sound c a) {b : Session} (hb : b ∈ a.begun)
    (other : Program.form? b.line ≠ some .popFlags) {i : Nat} (zero : i ≠ 6) (sign : i ≠ 7) :
    b.step.2.machine.registers.flags.word.getLsbD i =
      b.machine.registers.flags.word.getLsbD i := by
  rw [h.flags_step hb]
  cases source : b.flagSource? with
  | none => rfl
  | some source' =>
    cases source' with
    | popped word =>
      have unpopped := Machine.popped?_flagSource? _ _ source other
      cases unpopped
    | computed result =>
      show (b.machine.registers.flags.setZeroSign _).word.getLsbD i = _
      rw [Flags.getLsbD_setZeroSign, if_neg (by simp [zero, sign])]

/-- Whatever operations a new session is asked for, its flags are those of the last line that set
them: no other line that was executed in between matters, and no line that pops no flags changes more
than the zero and the sign flag. -/
theorem flagsTraced_after_operations (c : Config) (ops : List Operation) :
    (ofOperations c ops).session = (Session.new c).performAll ops ∧
      FlagsTraced c (ofOperations c ops) := by
  have sound := sound_ofOperations c ops
  have told : FlagSource.Told c.preset.registers.flags (ofOperations c ops).flagSources
      (ofOperations c ops).session.machine.registers.flags := by
    rw [flags_ofOperations]
    exact FlagSource.told_afterAll _ _
  refine ⟨session_ofOperations c ops, ?_⟩
  refine ⟨fun k b hb => sound.executed hb, sound.count, told,
    fun b _ => b.machine.isSome_flagSource?_iff b.line, ?_, ?_, ?_⟩
  · intro b hb unmoved
    rw [sound.flags_step hb, unmoved]
    rfl
  · intro b hb other i _ zero sign
    exact sound.others_step hb other zero sign
  · intro unpopped
    refine told.unpopped (by cases c.preset <;> rfl) ?_
    intro source listed
    obtain ⟨b, hb, found⟩ := List.mem_filterMap.mp listed
    exact Machine.popped?_flagSource? _ _ found (unpopped b hb)

end Account

end BusCycle
