-- The log of a step as text, and the transactions of the step. Whatever operations led to a session,
-- the lines that begin with a bracket are those of the transactions, in order, and they tell all of
-- each transaction but the bits of its address that are not on the bus.
import BusCycle.Proofs.Bus.Rendering
import BusCycle.Proofs.Machine.Notes
import BusCycle.Proofs.Session.BusSteps
import BusCycle.Proofs.Session.Ranges
import BusCycle.Proofs.Session.Regions
import BusCycle.Proofs.Text.Trimming
import BusCycle.Session.Snapshot

namespace BusCycle

open Text

/-! ## Tags -/

/-- All tags that a byte can have. One that was never written has a tag of code. -/
def knownTags : List String := codeTags ++ wordTags

theorem unbroken_of_mem_knownTags : ∀ tag ∈ knownTags, Unbroken tag.toList := by
  decide

theorem comma_not_mem_knownTags : ∀ tag ∈ knownTags, ',' ∉ tag.toList := by
  decide

theorem knownTag_of_code {tag : String} (h : tag ∈ codeTags) : tag ∈ knownTags :=
  List.mem_append_left _ h

theorem knownTag_of_word {tag : String} (h : tag ∈ wordTags) : tag ∈ knownTags :=
  List.mem_append_right _ h

/-- A transfer in which each byte has one of the tags. -/
def Transfer.TagsKnown (t : Transfer) : Prop := ∀ tag ∈ t.tags, tag ∈ knownTags

/-- A memory in which each byte has one of the tags. -/
abbrev Memory.TagsKnown (m : Memory) : Prop := m.Every fun _ c => c.tag ∈ knownTags

namespace Transfer

theorem tagsKnown_byte (kind : TransferKind) (a : Int) (b : Byte) {tag : String}
    (h : tag ∈ knownTags) : (byte kind a b tag).TagsKnown :=
  List.forall_mem_singleton.mpr h

theorem tagsKnown_pair (kind : TransferKind) (a : Int) (low high : Byte) {lowTag highTag : String}
    (hl : lowTag ∈ knownTags) (hh : highTag ∈ knownTags) :
    (pair kind a low high lowTag highTag).TagsKnown :=
  List.forall_mem_cons.mpr ⟨hl, List.forall_mem_singleton.mpr hh⟩

theorem tagsKnown_word (width : BusWidth) (kind : TransferKind) (a : Int) (w : Word)
    {lowTag highTag : String} (hl : lowTag ∈ knownTags) (hh : highTag ∈ knownTags) :
    ∀ t ∈ word width kind a w lowTag highTag, t.TagsKnown := by
  unfold word
  split
  · exact List.forall_mem_singleton.mpr (tagsKnown_pair _ _ _ _ hl hh)
  · exact List.forall_mem_cons.mpr
      ⟨tagsKnown_byte _ _ _ hl, List.forall_mem_singleton.mpr (tagsKnown_byte _ _ _ hh)⟩

end Transfer

theorem tagsKnown_fetchTransfers (width : BusWidth) {placed : List (Int × CodeByte)}
    (h : ∀ p ∈ placed, p.2.tag ∈ knownTags) : ∀ t ∈ fetchTransfers width placed, t.TagsKnown := by
  unfold fetchTransfers
  split
  · intro t ht
    obtain ⟨p, hp, rfl⟩ := List.mem_map.mp ht
    exact Transfer.tagsKnown_byte _ _ _ (h p hp)
  · induction placed using pairTransfers.induct with
    | case1 => exact List.forall_mem_nil _
    | case2 a b =>
      have known := h (a, b) (List.mem_singleton_self _)
      exact List.forall_mem_singleton.mpr (Transfer.tagsKnown_byte _ _ _ known)
    | case3 a low b high rest ih =>
      refine List.forall_mem_cons.mpr ⟨?_, ih fun p hp => h p (by simp [hp])⟩
      exact Transfer.tagsKnown_pair _ _ _ _ (h (a, low) (by simp)) (h (b, high) (by simp))

theorem Memory.TagsKnown.tagAt {m : Memory} (h : m.TagsKnown) (a : Int) : m.tagAt a ∈ knownTags := by
  unfold Memory.tagAt cellAt
  rcases held : m.cell? (.ofInt a) with _ | c
  · exact (by decide : "Byte" ∈ knownTags)
  · exact h _ c held

namespace WordAccess

/-- A word that is written with tags of words. -/
def TagsKnown : WordAccess → Prop
  | read _ => True
  | write _ _ lowTag highTag => lowTag ∈ wordTags ∧ highTag ∈ wordTags

variable {a : WordAccess} {m : Memory}

theorem TagsKnown.memoryAfter (h : a.TagsKnown) (cells : m.TagsKnown) :
    (a.memoryAfter m).TagsKnown := by
  cases a with
  | read r => exact cells
  | write r value lowTag highTag =>
    exact cells.writeWord (knownTag_of_word h.1) (knownTag_of_word h.2)

theorem TagsKnown.transfers (h : a.TagsKnown) (cells : m.TagsKnown) (width : BusWidth) :
    ∀ t ∈ a.transfers width m, t.TagsKnown := by
  cases a with
  | read r => exact Transfer.tagsKnown_word _ _ _ _ (cells.tagAt _) (cells.tagAt _)
  | write r value lowTag highTag =>
    exact Transfer.tagsKnown_word _ _ _ _ (knownTag_of_word h.1) (knownTag_of_word h.2)

theorem tagsKnown_of_access? {f : Form} {r : Registers} (h : f.access? r = some a) :
    a.TagsKnown := by
  cases f with
  | store =>
    cases h
    exact (by decide : "Data low" ∈ wordTags ∧ "Data high" ∈ wordTags)
  | call | push | pushFlags =>
    cases h
    exact (by decide : "Stack low" ∈ wordTags ∧ "Stack high" ∈ wordTags)
  | load | ret | pop | popFlags =>
    cases h
    exact trivial
  | _ => cases h

end WordAccess

/-! ## Cycles -/

namespace Machine

variable {m : Machine}

/-- A machine whose log can be read back: its notes are single lines, its transactions are in range
and have known tags, and so have the bytes in its memory. -/
structure Readable (m : Machine) : Prop where
  notes : m.NotesOneLine
  inRange : m.InRange
  counter : 0 ≤ m.bus.step
  steps : ∀ t ∈ m.bus.transactions, 0 ≤ t.step
  tags : ∀ t ∈ m.bus.transactions, t.TagsKnown
  memory : m.memory.TagsKnown

theorem readable_fresh (file : Registers) (width : BusWidth) : (fresh file width).Readable :=
  ⟨fun _ made => (nomatch made), inRange_fresh file width, Int.one_nonneg, fun _ made => (nomatch made),
    fun _ made => (nomatch made), Memory.every_empty⟩

theorem tagsKnown_placedCode (r : Registers) {code : List CodeByte} (tagged : TaggedAsCode code) :
    ∀ p ∈ placedCode r code, p.2.tag ∈ knownTags := by
  intro p hp
  obtain ⟨i, within, rfl⟩ := List.mem_mapIdx.mp hp
  exact knownTag_of_code (tagged _ (List.getElem_mem within))

theorem tagsKnown_memory_fetch (memory : m.memory.TagsKnown) {code : List CodeByte}
    (tagged : TaggedAsCode code) : (m.fetch code).memory.TagsKnown :=
  memory.writeCode (tagsKnown_placedCode m.registers tagged)

variable {a : Assembled}

theorem tagsKnown_cycleAccess? {access : WordAccess} (h : m.cycleAccess? a = some access) :
    access.TagsKnown := by
  obtain ⟨f, _, moved⟩ := Option.bind_eq_some_iff.mp h
  exact WordAccess.tagsKnown_of_access? moved

theorem tagsKnown_memory_cycle (memory : m.memory.TagsKnown) (tagged : TaggedAsCode a.code) :
    (m.cycle a).memory.TagsKnown := by
  have fetched := tagsKnown_memory_fetch memory tagged
  rw [memory_cycle]
  rcases moved : m.cycleAccess? a with _ | access
  · exact fetched
  · exact (tagsKnown_cycleAccess? moved).memoryAfter fetched

theorem tagsKnown_cycleTransfers (memory : m.memory.TagsKnown) (tagged : TaggedAsCode a.code) :
    ∀ t ∈ m.cycleTransfers a, t.TagsKnown := by
  intro t ht
  rcases List.mem_append.mp ht with code | word
  · exact tagsKnown_fetchTransfers _ (tagsKnown_placedCode _ tagged) t code
  · rcases moved : m.cycleAccess? a with _ | access
    · rw [moved] at word
      cases word
    · rw [moved] at word
      have fetched := tagsKnown_memory_fetch memory tagged
      exact (tagsKnown_cycleAccess? moved).transfers fetched _ t word

/-- One cycle of an instruction whose text is one line keeps the log readable. -/
theorem Readable.cycle (h : m.Readable) (tagged : TaggedAsCode a.code)
    (line : Unbroken a.instruction.display.toList) : (m.cycle a).Readable where
  notes := h.notes.cycle line
  inRange := h.inRange.cycle a
  counter := by
    have := h.counter
    rw [step_cycle]
    omega
  steps t ht := by
    rw [transactions_cycle, List.mem_append] at ht
    rcases ht with before | made
    · exact h.steps t before
    · obtain ⟨j, at_j⟩ := List.getElem?_of_mem made
      have := Transfer.step_of_getElem?_numbered at_j
      have := h.counter
      omega
  tags t ht := by
    rw [transactions_cycle, List.mem_append] at ht
    rcases ht with before | made
    · exact h.tags t before
    · have transfer := List.mem_map_of_mem (f := Transaction.toTransfer) made
      rw [Transfer.map_toTransfer_numbered] at transfer
      exact tagsKnown_cycleTransfers h.memory tagged _ transfer
  memory := tagsKnown_memory_cycle h.memory tagged

/-- The transactions of a readable log can be told from their lines. -/
theorem Readable.proper (h : m.Readable) : ∀ t ∈ m.bus.transactions, t.Proper := by
  intro t ht
  have transfer := h.inRange.transactions t ht
  exact ⟨transfer.width, transfer.data, h.steps t ht,
    fun tag known => comma_not_mem_knownTags tag (h.tags t ht tag known)⟩

end Machine

/-! ## Sessions -/

theorem Assembled.instruction_ofInstruction (i : Instruction) (ip : Word) :
    (ofInstruction i ip).instruction = i := by
  unfold ofInstruction
  split <;> rfl

/-- The text of an instruction is on one line if the line that it was read from is one. -/
theorem Instruction.unbroken_display {line : String} (h : Unbroken line.toList) {n : Int}
    {i : Instruction} (read : parse line n = .ok i) : Unbroken i.display.toList := by
  have upper : Unbroken (upper (trim line.toList)) := unbroken_upper (h.mono (trim_subset _))
  unfold parse at read
  dsimp only at read
  split at read
  · cases read
  · rename_i mnemonic rest cut
    rcases operands : Operands.read rest with failure | ops
    · rw [operands] at read
      cases read
    · rw [operands] at read
      cases read
      have filled : (String.ofList (Text.upper (trim line.toList))).isEmpty = false := by
        rcases shown : Text.upper (trim line.toList) with _ | ⟨c, r⟩
        · rw [shown] at cut
          cases cut
        · simp
      rw [display, filled]
      exact (String.toList_ofList ▸ upper)

namespace Session

variable {s next : Session}

/-- A session whose lines are lines, and whose log can be read back. -/
structure Readable (s : Session) : Prop where
  program : ∀ line ∈ s.program, Unbroken line.toList
  machine : s.machine.Readable

theorem readable_start (s : Session) (w : BusWidth) (text : String) :
    (s.start w (Program.clean text)).Readable :=
  ⟨fun _ => Program.unbroken_of_mem_clean, Machine.readable_fresh _ _⟩

theorem readable_load {text : String} {width : Option Datum} (h : s.load text width = .ok next) :
    next.Readable := by
  obtain ⟨w, -, -, rfl⟩ := load_eq_ok h
  exact s.readable_start w text

theorem Readable.step (h : s.Readable) : s.step.2.Readable := by
  rcases s.step_cases with ended | ⟨line, failure, found, failed⟩ | ⟨line, i, found, read⟩
  · rw [step_of_none ended]
    exact h
  · rw [step_of_error found failed]
    exact h
  · have mem : line ∈ s.program := List.mem_of_getElem? (getElem?_of_nextLine? found)
    have ready : s.ready.Readable :=
      ⟨fun _ noted => (nomatch noted), ⟨fun _ made => (nomatch made), h.machine.inRange.history⟩,
        h.machine.counter, fun _ made => (nomatch made), fun _ made => (nomatch made),
        h.machine.memory⟩
    rw [step_of_ok found read]
    refine ⟨h.program, ready.cycle (Assembled.taggedAsCode_ofInstruction i _) ?_⟩
    rw [assemble, Assembled.instruction_ofInstruction]
    exact Instruction.unbroken_display (h.program line mem) read

theorem Readable.perform (h : s.Readable) (op : Operation) : (s.perform op).2.Readable := by
  cases op with
  | load text width =>
    unfold Session.perform
    dsimp only
    split
    · rename_i next loaded
      exact readable_load loaded
    · exact h
  | reset => exact ⟨List.forall_mem_nil _, Machine.readable_fresh _ _⟩
  | step => exact h.step
  | run delay limits => exact run_keeps (fun _ => Readable.step) h delay limits
  | setWidth d =>
    unfold Session.perform
    dsimp only
    rcases hw : s.setWidth d with e | next
    · exact h
    · obtain ⟨w, _, rfl⟩ := width_of_setWidth hw
      exact ⟨h.program, h.machine⟩

theorem Reachable.readable {c : Config} (h : Reachable c s) : s.Readable := by
  induction h with
  | new => exact ⟨List.forall_mem_nil _, Machine.readable_fresh _ _⟩
  | perform op _ ih => exact ih.perform op

end Session

/-! ## Lines of a log -/

/-- A line that begins with a bracket. -/
def opensBracket (line : String) : Bool := line.toList.head? == some '['

theorem Transaction.opensBracket_lines (t : Transaction) : ∀ line ∈ t.lines, opensBracket line := by
  have opens (rest : String) : opensBracket ("[" ++ rest) := by
    rw [opensBracket, String.toList_append]
    rfl
  refine List.forall_mem_cons.mpr ⟨?_, List.forall_mem_singleton.mpr ?_⟩
  · simp only [addressLine, String.append_assoc]
    exact opens _
  · simp only [dataLine, String.append_assoc]
    exact opens _

theorem Note.OneLine.not_opensBracket {n : Note} (h : n.OneLine) : opensBracket n.text = false := by
  have start := h.isRemark_text.start
  unfold opensBracket
  cases begins : n.text.toList.head? with
  | none => rfl
  | some c =>
    rw [begins] at start
    simpa using start

theorem Transaction.unbroken_lines {t : Transaction} (h : ∀ tag ∈ t.tags, Unbroken tag.toList) :
    ∀ line ∈ t.lines, Unbroken line.toList := by
  have tagText : Unbroken t.tagText.toList := by
    unfold tagText
    split
    · decide
    · refine unbroken_between (by decide) ?_ (by decide)
      rw [String.toList_intercalate]
      exact Unbroken.intercalate (by decide) (List.forall_mem_map.mpr h)
  have decimal (n : Int) := unbroken_field unbroken_decimalDigits 3 n
  have bracketed (n : Int) (name : String) (line : Unbroken name.toList) :
      Unbroken ("[" ++ decimalField 3 n ++ name).toList :=
    unbroken_after (unbroken_after (by decide) (decimal n)) line
  refine List.forall_mem_cons.mpr ⟨?_, List.forall_mem_singleton.mpr ?_⟩
  · have kind : Unbroken t.kind.name.toList := by cases t.kind <;> decide
    have address := unbroken_after (bracketed t.step "] ADDR  " (by decide))
      (unbroken_hex 5 (Address.ofInt t.address).toNat)
    exact unbroken_after (unbroken_after address (by decide)) kind
  · have direction : Unbroken t.kind.direction.toList := by cases t.kind <;> decide
    have data : Unbroken (padEnd 6 t.dataText).toList :=
      unbroken_after (unbroken_after (unbroken_hex _ _) (by decide))
        (String.toList_ofList ▸ Unbroken.replicate (by decide) _)
    have moved := unbroken_after (bracketed t.dataStep "] DATA  " (by decide)) data
    exact unbroken_after (unbroken_after (unbroken_after moved (by decide)) direction) tagText

namespace BusLog

variable {log : BusLog}

/-- The lines that begin with a bracket are those of the transactions. -/
theorem filter_lines (h : log.NotesOneLine) :
    log.lines.filter opensBracket = log.transactions.flatMap Transaction.lines := by
  obtain ⟨step, entries⟩ := log
  unfold lines transactions
  unfold NotesOneLine at h
  dsimp only at h ⊢
  induction entries with
  | nil => rfl
  | cons e rest ih =>
    have later := ih fun n mem => h n (List.mem_cons_of_mem _ mem)
    cases e with
    | note n =>
      have other := (h n List.mem_cons_self).not_opensBracket
      simp only [List.flatMap_cons, LogEntry.lines, List.singleton_append, List.filterMap_cons,
        LogEntry.transaction?]
      rw [List.filter_cons_of_neg (by simp [other]), later]
    | transaction t =>
      have all := List.filter_eq_self.mpr t.opensBracket_lines
      simp only [List.flatMap_cons, LogEntry.lines, List.filterMap_cons, LogEntry.transaction?,
        List.filter_append]
      rw [all, later]

/-- A text that is put together from lines is cut into these. -/
theorem splitOn_text (unbroken : ∀ line ∈ log.lines, '\n' ∉ line.toList) (filled : log.lines ≠ []) :
    log.text.toList.splitOn '\n' = log.lines.map String.toList := by
  refine (splitOn_eq_iff (by simpa using filled)).mpr ⟨?_, List.forall_mem_map.mpr unbroken⟩
  exact String.toList_intercalate

end BusLog

/-- The transactions are told by their lines, one after another. -/
theorem Transaction.sameOnBus_of_flatMap_lines {ts us : List Transaction}
    (ht : ∀ t ∈ ts, t.Proper) (hu : ∀ u ∈ us, u.Proper)
    (h : ts.flatMap lines = us.flatMap lines) : List.Forall₂ SameOnBus ts us := by
  induction ts generalizing us with
  | nil =>
    cases us with
    | nil => exact .nil
    | cons u us => cases h
  | cons t ts ih =>
    cases us with
    | nil => cases h
    | cons u us =>
      obtain ⟨first, later⟩ := List.forall_mem_cons.mp ht
      obtain ⟨other, behind⟩ := List.forall_mem_cons.mp hu
      rw [List.flatMap_cons, List.flatMap_cons] at h
      obtain ⟨same, rest⟩ := List.append_inj h rfl
      exact .cons ((lines_eq_iff first other).mp same) (ih later behind rest)

/-! ## What a step log tells -/

/-- The lines of the log that a snapshot shows. -/
def Snapshot.logLines (s : Snapshot) : List String :=
  (s.stepLog.toList.splitOn '\n').map String.ofList

namespace Session

variable {s : Session}

theorem Readable.unbroken_lines (h : s.Readable) :
    ∀ line ∈ s.machine.bus.lines, Unbroken line.toList := by
  intro line hl
  obtain ⟨entry, mem, shown⟩ := List.mem_flatMap.mp hl
  cases entry with
  | note n =>
    obtain rfl := List.mem_singleton.mp shown
    exact (h.machine.notes n mem).isRemark_text.unbroken
  | transaction t =>
    have made : t ∈ s.machine.bus.transactions :=
      List.mem_filterMap.mpr ⟨.transaction t, mem, rfl⟩
    exact Transaction.unbroken_lines
      (fun tag known => unbroken_of_mem_knownTags tag (h.machine.tags t made tag known)) line shown

theorem Readable.logLines (h : s.Readable) (filled : s.machine.bus.lines ≠ []) :
    s.snapshot.logLines = s.machine.bus.lines := by
  have apart : ∀ line ∈ s.machine.bus.lines, '\n' ∉ line.toList := fun line hl feed =>
    absurd (h.unbroken_lines line hl '\n' feed) (by decide)
  have cut : s.snapshot.stepLog.toList.splitOn '\n' = s.machine.bus.lines.map String.toList :=
    BusLog.splitOn_text apart filled
  rw [Snapshot.logLines, cut, List.map_map]
  simp

/-- An empty log has one line, and nothing stands on it. -/
theorem Readable.filter_logLines (h : s.Readable) :
    s.snapshot.logLines.filter opensBracket =
      s.snapshot.transactions.flatMap Transaction.lines := by
  rw [show s.snapshot.transactions.flatMap Transaction.lines =
    s.machine.bus.lines.filter opensBracket from (BusLog.filter_lines h.machine.notes).symm]
  by_cases bare : s.machine.bus.lines = []
  · have empty : s.snapshot.stepLog = "" := by
      rw [snapshot, BusLog.text, bare]
      rfl
    rw [bare, Snapshot.logLines, empty]
    rfl
  · rw [h.logLines bare]

/-- The log of a step as text and its transactions agree, whatever operations led to a session. Its
lines are those of the notes and of the transactions in turn; the ones that begin with a bracket are
the two lines of each transaction, and no note is broken or begins with a bracket. Two transactions
that fit their widths and have tags without commas show the same lines just if they differ at most in
the bits of the address that are not on the bus. So sessions that show the same log made the same
transactions, but for these bits. -/
theorem step_log_tells_transactions (c : Config) (ops : List Operation) :
    let s := (new c).performAll ops
    (s.machine.bus.entries ≠ [] →
      s.snapshot.logLines = s.machine.bus.entries.flatMap LogEntry.lines) ∧
    s.snapshot.logLines.filter opensBracket = s.snapshot.transactions.flatMap Transaction.lines ∧
    (∀ n, .note n ∈ s.machine.bus.entries →
      opensBracket n.text = false ∧ Unbroken n.text.toList) ∧
    (∀ t ∈ s.snapshot.transactions, t.Proper) ∧
    (∀ t u : Transaction, t.Proper → u.Proper → (t.lines = u.lines ↔ t.SameOnBus u)) ∧
    ∀ (c' : Config) (ops' : List Operation),
      let s' := (new c').performAll ops'
      s'.snapshot.stepLog = s.snapshot.stepLog →
        List.Forall₂ Transaction.SameOnBus s.snapshot.transactions s'.snapshot.transactions := by
  have readable (c : Config) (ops : List Operation) : ((new c).performAll ops).Readable :=
    (reachable_performAll c ops).readable
  intro s
  have h : s.Readable := readable c ops
  refine ⟨?lines, h.filter_logLines, ?notes, h.machine.proper, ?rendering, ?same⟩
  case lines =>
    intro noted
    refine h.logLines fun bare => ?_
    obtain ⟨entry, rest, entries⟩ := List.exists_cons_of_ne_nil noted
    rw [BusLog.lines, entries] at bare
    cases entry <;> cases bare
  case notes =>
    intro n mem
    have line := h.machine.notes n mem
    exact ⟨line.not_opensBracket, line.isRemark_text.unbroken⟩
  case rendering => exact fun t u ht hu => Transaction.lines_eq_iff ht hu
  case same =>
    intro c' ops' s' log
    have h' : s'.Readable := readable c' ops'
    have lines : s'.snapshot.logLines = s.snapshot.logLines := by
      rw [Snapshot.logLines, log, Snapshot.logLines]
    refine Transaction.sameOnBus_of_flatMap_lines h.machine.proper h'.machine.proper ?_
    exact h.filter_logLines.symm.trans (lines ▸ h'.filter_logLines)

end Session

end BusCycle
