-- What comes of a settings file. It is to give settings that are in order, or a fault that says what is
-- wrong with it. There are four ways in which it does neither.
import BusCycle.Config.File
import BusCycle.Proofs.Document.Depth
import BusCycle.Proofs.Number.Overflow
import BusCycle.Proofs.Session.Failure

namespace BusCycle

/-! ## Fields that pass their checks -/

/-- The name of a preset. -/
def Datum.IsPreset (d : Datum) : Prop := ∃ p ∈ Preset.all, d = .text p.name

/-- A pause that is not-a-number, or a text that spells it. -/
def Datum.SpellsNaN : Datum → Prop
  | .number (.real x) => x = .nan
  | .text s => Number.readReal? s.toList = some .nan
  | _ => False

/-- A whole number that rounds to no finite real number. -/
def Datum.IsTooGreat : Datum → Prop
  | .number (.whole n) => Binary64.leastOverflow ≤ n.natAbs
  | _ => False

theorem BusWidth.ofDatum_cases (d : Datum) :
    (d.IsBusWidth ∧ ∃ w, w.IsOffered ∧ BusWidth.ofDatum d = .ok w) ∨
      (¬d.IsBusWidth ∧ ∃ e, BusWidth.ofDatum d = .error e) := by
  have checked := BusWidth.check_cases d
  unfold BusWidth.check at checked
  rcases found : BusWidth.ofDatum d with e | w
  · rcases checked with ⟨-, w, passed⟩ | ⟨other, -⟩
    · rw [found] at passed
      cases passed
    · exact Or.inr ⟨other, e, rfl⟩
  · rcases checked with ⟨good, -⟩ | ⟨-, refused⟩
    · exact Or.inl ⟨good, w, BusWidth.isOffered_of_ofDatum found, rfl⟩
    · rw [found] at refused
      cases refused

theorem Preset.mem_all (p : Preset) : p ∈ Preset.all := by
  cases p <;> decide

theorem Preset.ofName?_eq_some_iff {name : String} {p : Preset} :
    ofName? name = some p ↔ name = p.name :=
  find?_name_eq_some_iff mem_all (by decide)

theorem Preset.ofDatum_cases (d : Datum) :
    (d.IsPreset ∧ ∃ p, Preset.ofDatum d = .ok p) ∨
      (¬d.IsPreset ∧ ∃ e, Preset.ofDatum d = .error e) := by
  unfold Preset.ofDatum Datum.IsPreset
  cases d with
  | text name =>
    dsimp only
    rcases found : Preset.ofName? name with _ | p
    · refine Or.inr ⟨?_, _, rfl⟩
      rintro ⟨p, -, same⟩
      cases same
      rw [Preset.ofName?_eq_some_iff.mpr rfl] at found
      cases found
    · exact Or.inl ⟨⟨p, p.mem_all, congrArg _ (Preset.ofName?_eq_some_iff.mp found)⟩, p, rfl⟩
  | _ => exact Or.inr ⟨by simp, _, rfl⟩

namespace Config

/-! ## Outcomes -/

/-- What a settings file is to come to: settings with one of the two widths, one of the presets and a
pause that is a number and not below zero, or a fault of the settings. -/
def Meets : Except ConfigFault Config → Prop
  | .ok c => c.width.IsOffered ∧ c.preset ∈ Preset.all ∧
      ∃ x, c.delay = .real x ∧ x ≠ .nan ∧ x.isNegative = false
  | .error fault => ∃ e, fault = .config e

instance (outcome : Except ConfigFault Config) : Decidable (Meets outcome) :=
  match outcome with
  | .ok ⟨_, _, .whole _⟩ => isFalse nofun
  | .ok ⟨w, p, .real x⟩ =>
    decidable_of_iff (w.IsOffered ∧ p ∈ Preset.all ∧ x ≠ .nan ∧ x.isNegative = false)
      (by simp [Meets])
  | .error (.config e) => isTrue ⟨e, rfl⟩
  | .error .zeroInPath | .error .notText | .error (.tooDeep _) | .error .delayTooGreat =>
    isFalse nofun

/-- Fields from which neither comes. -/
inductive FieldsLapse (fields : List (String × Datum)) : Prop
  | delayTooGreat {d : Datum} (known : ∀ f ∈ fields, f.1 ∈ fieldNames)
      (delay : Datum.field? fields "run_delay" = some d) (great : d.IsTooGreat)
  | delayNaN {d : Datum} (known : ∀ f ∈ fields, f.1 ∈ fieldNames)
      (delay : Datum.field? fields "run_delay" = some d) (nan : d.SpellsNaN)
      (width : ((Datum.field? fields "bus_width").getD defaultWidth).IsBusWidth)
      (preset : ((Datum.field? fields "preset").getD defaultPreset).IsPreset)

/-- Texts from which neither comes: a document that is nested too deep, which takes more openings than
lists and objects may stand one in another, and one with such fields. -/
inductive TextLapse (text : String) : Prop
  | tooDeep {n : Document.Nest} (deep : Document.read text.toList = .error (.tooDeep n))
      (many : Document.greatestDepth < Document.openings text.toList)
  | fields {fields : List (String × Datum)}
      (read : Document.read text.toList = .ok (.object fields)) (lapse : FieldsLapse fields)

/-- Files from which neither comes: bytes that are no text, and such texts. -/
inductive Lapses : Entry → Prop
  | notText {bytes : ByteArray} (broken : ¬bytes.IsValidUTF8) : Lapses (.file bytes)
  | text {bytes : ByteArray} {text : String} (decoded : String.fromUTF8? bytes = some text)
      (lapse : TextLapse text) : Lapses (.file bytes)

/-! ## Settings from data -/

variable {width preset : Datum} {fields : List (String × Datum)}

/-- Settings with a real pause are in order or refused, unless the pause is not-a-number and all the
rest is in order. -/
theorem meets_ofData_iff (width preset : Datum) (x : Binary64) :
    Meets ((ofData width preset (.number (.real x))).mapError .config) ↔
      ¬(x = .nan ∧ width.IsBusWidth ∧ preset.IsPreset) := by
  rcases BusWidth.ofDatum_cases width with ⟨good, w, offered, hw⟩ | ⟨bad, e, hw⟩
  · rcases Preset.ofDatum_cases preset with ⟨fine, p, hp⟩ | ⟨bad, e, hp⟩
    · have sign : (Quantity.real x).isNegative = x.isNegative := rfl
      rw [ofData_of_ok hw hp, delayOfDatum, sign]
      by_cases negative : x.isNegative = true
      · have number : x ≠ .nan := by
          rintro rfl
          cases negative
        rw [if_pos negative]
        exact iff_of_true ⟨_, rfl⟩ fun nan => number nan.1
      · rw [if_neg negative]
        have positive : x.isNegative = false := by simpa using negative
        constructor
        · rintro ⟨-, -, y, same, number, -⟩ ⟨nan, -⟩
          cases same
          exact number nan
        · intro number
          exact ⟨offered, p.mem_all, x, rfl, fun nan => number ⟨nan, good, fine⟩, positive⟩
    · rw [ofData_of_preset_error hw hp]
      exact iff_of_true ⟨e, rfl⟩ fun nan => bad nan.2.2
  · rw [ofData_of_width_error hw]
    exact iff_of_true ⟨e, rfl⟩ fun nan => bad nan.2.1

/-! ## Fields -/

theorem isEmpty_unknownKeys_iff (fields : List (String × Datum)) :
    (unknownKeys fields).isEmpty = true ↔ ∀ f ∈ fields, f.1 ∈ fieldNames := by
  rw [unknownKeys, List.isEmpty_iff, ← List.length_eq_zero_iff, List.length_mergeSort,
    List.length_eq_zero_iff, List.filter_eq_nil_iff]
  simp

theorem ofFields_of_unknown (unknown : ¬∀ f ∈ fields, f.1 ∈ fieldNames) :
    ofFields fields = .error (.config (.unknownKeys (unknownKeys fields))) := by
  rw [← isEmpty_unknownKeys_iff] at unknown
  unfold ofFields
  rw [if_pos (by simpa using unknown)]
  rfl

/-- The pause of the fields, before it is known whether it is below zero. -/
def delayOfFields (fields : List (String × Datum)) : Except ConfigFault Datum :=
  match Datum.field? fields "run_delay" with
  | some d => delayOfField d
  | none => .ok (.number (.real defaultDelay))

theorem ofFields_of_known (known : ∀ f ∈ fields, f.1 ∈ fieldNames) :
    ofFields fields = (delayOfFields fields).bind fun delay =>
      (ofData ((Datum.field? fields "bus_width").getD defaultWidth)
        ((Datum.field? fields "preset").getD defaultPreset) delay).mapError .config := by
  rw [← isEmpty_unknownKeys_iff] at known
  unfold ofFields delayOfFields
  rw [if_neg (by simp [known])]
  rcases Datum.field? fields "run_delay" with _ | d <;> rfl

/-- A pause is read as a real number, or it is refused, or it is too great. -/
theorem delayOfField_cases (d : Datum) :
    (¬d.IsTooGreat ∧ ∃ x, delayOfField d = .ok (.number (.real x)) ∧ (x = .nan ↔ d.SpellsNaN)) ∨
      (¬d.IsTooGreat ∧ ¬d.SpellsNaN ∧ ∃ e, delayOfField d = .error (.config e)) ∨
      (d.IsTooGreat ∧ delayOfField d = .error .delayTooGreat) := by
  unfold delayOfField Datum.SpellsNaN Datum.IsTooGreat
  cases d with
  | number q =>
    cases q with
    | whole n =>
      dsimp only
      rw [← Binary64.ofInt?_eq_none_iff]
      rcases read : Binary64.ofInt? n with _ | x
      · exact Or.inr (Or.inr ⟨rfl, rfl⟩)
      · refine Or.inl ⟨nofun, x, rfl, iff_of_false ?_ id⟩
        rintro rfl
        exact Binary64.ofInt?_ne_nan n read
    | real x => exact Or.inl ⟨id, x, rfl, Iff.rfl⟩
  | text s =>
    dsimp only
    rcases read : Number.readReal? s.toList with _ | x
    · exact Or.inr (Or.inl ⟨id, nofun, _, rfl⟩)
    · exact Or.inl ⟨id, x, rfl, Option.some_inj.symm⟩
  | _ => exact Or.inr (Or.inl ⟨id, id, _, rfl⟩)

theorem not_nan_defaultDelay : defaultDelay ≠ .nan := by
  decide +kernel

/-- Without a pause the fields do not lapse, and with one they do just if it is too great, or if it is
not-a-number and the rest is in order. -/
theorem fieldsLapse_iff (known : ∀ f ∈ fields, f.1 ∈ fieldNames) :
    FieldsLapse fields ↔ ∃ d, Datum.field? fields "run_delay" = some d ∧
      (d.IsTooGreat ∨ (d.SpellsNaN ∧
        ((Datum.field? fields "bus_width").getD defaultWidth).IsBusWidth ∧
        ((Datum.field? fields "preset").getD defaultPreset).IsPreset)) := by
  constructor
  · rintro (⟨-, delay, great⟩ | ⟨-, delay, nan, width, preset⟩)
    · exact ⟨_, delay, Or.inl great⟩
    · exact ⟨_, delay, Or.inr ⟨nan, width, preset⟩⟩
  · rintro ⟨d, delay, great | ⟨nan, width, preset⟩⟩
    · exact .delayTooGreat known delay great
    · exact .delayNaN known delay nan width preset

theorem meets_ofFields_iff (fields : List (String × Datum)) :
    Meets (ofFields fields) ↔ ¬FieldsLapse fields := by
  by_cases known : ∀ f ∈ fields, f.1 ∈ fieldNames
  · rw [ofFields_of_known known, delayOfFields, fieldsLapse_iff known]
    rcases Datum.field? fields "run_delay" with _ | d
    · exact (meets_ofData_iff _ _ defaultDelay).trans
        (iff_of_true (fun nan => not_nan_defaultDelay nan.1) nofun)
    · simp only [Option.some.injEq, exists_eq_left']
      rcases delayOfField_cases d with
        ⟨fits, x, read, nan⟩ | ⟨fits, number, e, refused⟩ | ⟨great, refused⟩
      · rw [read, ← nan, or_iff_right fits]
        exact meets_ofData_iff _ _ x
      · rw [refused]
        refine iff_of_true ⟨e, rfl⟩ ?_
        rintro (great | ⟨nan, -⟩)
        · exact fits great
        · exact number nan
      · rw [refused]
        exact iff_of_false nofun (not_not.mpr (Or.inl great))
  · rw [ofFields_of_unknown known]
    refine iff_of_true ⟨_, rfl⟩ ?_
    rintro (⟨all, -, -⟩ | ⟨all, -, -⟩) <;> exact known all

/-! ## Files -/

theorem meets_ofText_iff (path text : String) : Meets (ofText path text) ↔ ¬TextLapse text := by
  unfold ofText
  rcases read : Document.read text.toList with fault | d
  · have fieldless (lapse : TextLapse text) : ∃ n, fault = .tooDeep n := by
      rcases lapse with ⟨deep, -⟩ | ⟨object, -⟩
      · rw [read] at deep
        cases deep
        exact ⟨_, rfl⟩
      · rw [read] at object
        cases object
    cases fault with
    | malformed =>
      refine iff_of_true ⟨_, rfl⟩ fun lapse => ?_
      obtain ⟨n, same⟩ := fieldless lapse
      cases same
    | tooDeep n => exact iff_of_false nofun (not_not.mpr
      (.tooDeep read (Document.greatestDepth_lt_openings read)))
  · have lapse_iff : TextLapse text ↔ ∃ fields, d = .object fields ∧ FieldsLapse fields := by
      constructor
      · rintro (⟨deep, -⟩ | ⟨object, lapse⟩)
        · rw [read] at deep
          cases deep
        · rw [read] at object
          cases object
          exact ⟨_, rfl, lapse⟩
      · rintro ⟨fields, rfl, lapse⟩
        exact .fields read lapse
    rw [lapse_iff]
    cases d with
    | object fields => simpa using meets_ofFields_iff fields
    | _ => exact iff_of_true ⟨_, rfl⟩ (by simp)

theorem load_of_decoded {bytes : ByteArray} {text : String}
    (decoded : String.fromUTF8? bytes = some text) (path : String) :
    load path (.file bytes) = ofText path text := by
  rw [load, decoded]

theorem load_of_broken {bytes : ByteArray} (broken : ¬bytes.IsValidUTF8) (path : String) :
    load path (.file bytes) = .error .notText := by
  have undecoded : String.fromUTF8? bytes = none := dif_neg broken
  rw [load, undecoded]

/-- Whatever bytes stand in a settings file, and whatever keeps it from being read: it gives settings
that are in order, or a fault of the settings, just if it does not lapse in one of four ways. -/
theorem load_meets_iff (path : String) (entry : Entry) :
    Meets (load path entry) ↔ ¬Lapses entry := by
  cases entry with
  | unreadable fault => exact iff_of_true ⟨_, rfl⟩ nofun
  | file bytes =>
    by_cases valid : bytes.IsValidUTF8
    · have decoded : String.fromUTF8? bytes = some (String.fromUTF8 bytes valid) := dif_pos valid
      rw [load_of_decoded decoded, meets_ofText_iff]
      refine not_congr ⟨.text decoded, ?_⟩
      rintro (⟨broken⟩ | ⟨found, lapse⟩)
      · exact absurd valid broken
      · rw [decoded] at found
        cases found
        exact lapse
    · rw [load_of_broken valid]
      exact iff_of_false nofun (not_not.mpr (.notText valid))

theorem load_toUTF8 (path text : String) : load path (.file text.toUTF8) = ofText path text :=
  load_of_decoded (dif_pos text.isValidUTF8) path

/-- A byte that begins no character, brackets one in another, a pause that is not-a-number, and fields
with a pause that is too great. -/
theorem settings_that_lapse :
    ¬Meets (load "config.json" (.file ⟨#[0xFF]⟩)) ∧
      ¬Meets (load "config.json" (.file (String.ofList (List.replicate 991 '[')).toUTF8)) ∧
      ¬Meets (load "config.json" (.file "\x7b\"run_delay\": NaN\x7d".toUTF8)) ∧
      ¬Meets (ofFields [("run_delay", .number (.whole Binary64.leastOverflow))]) := by
  refine ⟨by decide +kernel, ?_, by decide +kernel, by decide +kernel⟩
  have deep : Document.read (List.replicate 991 '[' ++ []) = .error (.tooDeep .list) :=
    Document.read_replicate []
  rw [List.append_nil] at deep
  rw [load_toUTF8, ofText, String.toList_ofList, deep]
  exact nofun

end Config

end BusCycle
