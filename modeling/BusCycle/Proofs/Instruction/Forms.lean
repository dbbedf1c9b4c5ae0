-- A form says all that an instruction of it says: the mnemonic and the operands, up to the text that
-- a number was written with.
import BusCycle.Proofs.Instruction.Reading

namespace BusCycle

/-! ## Names -/

theorem BinaryOp.ofName?_eq_some_iff {name : String} {op : BinaryOp} :
    ofName? name = some op ↔ name = op.name :=
  find?_name_eq_some_iff (fun op => by cases op <;> decide) (by decide)

theorem UnaryOp.ofName?_eq_some_iff {name : String} {op : UnaryOp} :
    ofName? name = some op ↔ name = op.name :=
  find?_name_eq_some_iff (fun op => by cases op <;> decide) (by decide)

theorem Condition.ofName?_eq_some_iff {name : String} {c : Condition} :
    ofName? name = some c ↔ name = c.name :=
  find?_name_eq_some_iff (fun c => by cases c <;> decide) (by decide)

theorem LoadableSegment.ofName?_eq_some_iff {name : String} {s : LoadableSegment} :
    ofName? name = some s ↔ name = s.segment.name :=
  find?_name_eq_some_iff (fun s => by cases s <;> decide) (by decide)

/-! ## Operands without their text -/

/-- The operand without the text of a number. -/
def Operand.plain : Operand → Operand
  | immediate value _ => immediate value ""
  | op => op

def Operands.map (f : Operand → Operand) : Operands → Operands
  | none => none
  | one a => one (f a)
  | two a b => two (f a) (f b)

def General.operand (r : General) : Operand := .register r.name

def Segment.operand (s : Segment) : Operand := .register s.name

def Place.operand : Place → Operand
  | si => .indirect "SI"
  | di => .indirect "DI"
  | literal displacement => .direct displacement

def numberOperand (value : Int) : Operand := .immediate value ""

namespace Form

variable {op : Operand}

theorem general?_eq_some {r : General} (h : general? op = some r) : op = r.operand := by
  cases op with
  | register name =>
    obtain rfl := General.ofName?_eq_some_iff.mp h
    rfl
  | _ => cases h

theorem segment?_eq_some {s : Segment} (h : segment? op = some s) : op = s.operand := by
  cases op with
  | register name =>
    obtain rfl := Segment.ofName?_eq_some_iff.mp h
    rfl
  | _ => cases h

theorem loadable?_eq_some {s : LoadableSegment} (h : loadable? op = some s) :
    op = s.segment.operand := by
  cases op with
  | register name =>
    obtain rfl := LoadableSegment.ofName?_eq_some_iff.mp h
    rfl
  | _ => cases h

theorem place?_eq_some {p : Place} (h : place? op = some p) : op = p.operand := by
  unfold place? at h
  split at h
  · cases h
    rfl
  · cases h
    rfl
  · cases h
    rfl
  · cases h

theorem immediate?_eq_some {value : Int} (h : immediate? op = some value) :
    ∃ text, op = .immediate value text := by
  cases op with
  | immediate v text =>
    cases h
    exact ⟨text, rfl⟩
  | _ => cases h

/-! ## The operands of a form -/

/-- The operands that a form is written with. -/
def operands : Form → Operands
  | moveImmediate dest value => .two dest.operand (numberOperand value)
  | move dest src | binary _ dest src => .two dest.operand src.operand
  | loadSegment dest src => .two dest.segment.operand src.operand
  | storeSegment dest src => .two dest.operand src.operand
  | store dest src => .two dest.operand src.operand
  | load dest src => .two dest.operand src.operand
  | binaryImmediate _ dest value => .two dest.operand (numberOperand value)
  | unary _ r | push r | pop r => .one r.operand
  | jump target | call target | branch _ target | loop target => .one (numberOperand target)
  | ret | pushFlags | popFlags | nop | halt => .none
  | input => .two General.ax.operand General.dx.operand
  | output => .two General.dx.operand General.ax.operand

/-- A form is that of an instruction if it is written with the same mnemonic and the same operands,
apart from the text of numbers. -/
def Tells (f : Form) (mnemonic : String) (ops : Operands) : Prop :=
  f.mnemonic = mnemonic ∧ f.operands = ops.map Operand.plain

variable {mnemonic : String} {f : Form}

theorem tells_of_ofBare? (h : ofBare? mnemonic = some f) : f.Tells mnemonic .none := by
  unfold ofBare? at h
  split at h
  · cases h
    exact ⟨rfl, rfl⟩
  · cases h
    exact ⟨rfl, rfl⟩
  · cases h
    exact ⟨rfl, rfl⟩
  · cases h
    exact ⟨rfl, rfl⟩
  · cases h
    exact ⟨rfl, rfl⟩
  · cases h

theorem tells_of_ofGeneral? {r : General} (h : ofGeneral? mnemonic r = some f) :
    f.Tells mnemonic (.one r.operand) := by
  unfold ofGeneral? at h
  split at h
  · cases h
    exact ⟨rfl, rfl⟩
  · cases h
    exact ⟨rfl, rfl⟩
  · obtain ⟨op, named, rfl⟩ := Option.map_eq_some_iff.mp h
    exact ⟨(UnaryOp.ofName?_eq_some_iff.mp named).symm, rfl⟩

theorem tells_of_ofTarget? {target : Int} {text : String} (h : ofTarget? mnemonic target = some f) :
    f.Tells mnemonic (.one (.immediate target text)) := by
  unfold ofTarget? at h
  split at h
  · cases h
    exact ⟨rfl, rfl⟩
  · cases h
    exact ⟨rfl, rfl⟩
  · cases h
    exact ⟨rfl, rfl⟩
  · obtain ⟨c, named, rfl⟩ := Option.map_eq_some_iff.mp h
    exact ⟨(Condition.ofName?_eq_some_iff.mp named).symm, rfl⟩

theorem tells_of_ofOne? (h : ofOne? mnemonic op = some f) : f.Tells mnemonic (.one op) := by
  unfold ofOne? at h
  split at h
  · rename_i r hr
    rw [general?_eq_some hr]
    exact tells_of_ofGeneral? h
  · rename_i target _ ht
    obtain ⟨text, rfl⟩ := immediate?_eq_some ht
    exact tells_of_ofTarget? h
  · cases h

theorem tells_of_ofMoveToGeneral? {dest : General} {src : Operand}
    (h : ofMoveToGeneral? dest src = some f) : f.Tells "MOV" (.two dest.operand src) := by
  unfold ofMoveToGeneral? at h
  split at h
  · rename_i value hv
    obtain ⟨text, rfl⟩ := immediate?_eq_some hv
    cases h
    exact ⟨rfl, rfl⟩
  · rename_i r hr _
    rw [general?_eq_some hr]
    cases h
    exact ⟨rfl, rfl⟩
  · rename_i s hs _ _
    rw [segment?_eq_some hs]
    cases h
    exact ⟨rfl, rfl⟩
  · rename_i p hp _ _ _
    rw [place?_eq_some hp]
    cases h
    refine ⟨rfl, ?_⟩
    cases p <;> rfl
  · cases h

theorem tells_of_ofMoveFromGeneral? {dest : Operand} {src : General}
    (h : ofMoveFromGeneral? dest src = some f) : f.Tells "MOV" (.two dest src.operand) := by
  unfold ofMoveFromGeneral? at h
  split at h
  · rename_i s hs
    rw [loadable?_eq_some hs]
    cases h
    exact ⟨rfl, rfl⟩
  · rename_i p _ hp
    rw [place?_eq_some hp]
    cases h
    refine ⟨rfl, ?_⟩
    cases p <;> rfl
  · cases h

theorem tells_of_ofMove? {dest src : Operand} (h : ofMove? dest src = some f) :
    f.Tells "MOV" (.two dest src) := by
  unfold ofMove? at h
  split at h
  · rename_i d hd
    rw [general?_eq_some hd]
    exact tells_of_ofMoveToGeneral? h
  · rename_i s _ hs
    rw [general?_eq_some hs]
    exact tells_of_ofMoveFromGeneral? h
  · cases h

theorem tells_of_ofBinary? {op : BinaryOp} {dest src : Operand}
    (h : ofBinary? op dest src = some f) : f.Tells op.name (.two dest src) := by
  unfold ofBinary? at h
  split at h
  · rename_i d s hd hs
    rw [general?_eq_some hd, general?_eq_some hs]
    cases h
    exact ⟨rfl, rfl⟩
  · rename_i d value hd _ hv
    obtain ⟨text, rfl⟩ := immediate?_eq_some hv
    rw [general?_eq_some hd]
    cases h
    exact ⟨rfl, rfl⟩
  · cases h

theorem tells_of_ofTwo? {dest src : Operand} (h : ofTwo? mnemonic dest src = some f) :
    f.Tells mnemonic (.two dest src) := by
  unfold ofTwo? at h
  split at h
  · exact tells_of_ofMove? h
  · rename_i op _ named
    obtain rfl := BinaryOp.ofName?_eq_some_iff.mp named
    exact tells_of_ofBinary? h
  · split at h
    · rename_i both
      obtain ⟨rfl, rfl⟩ := both
      cases h
      exact ⟨rfl, rfl⟩
    · cases h
  · split at h
    · rename_i both
      obtain ⟨rfl, rfl⟩ := both
      cases h
      exact ⟨rfl, rfl⟩
    · cases h
  · cases h

/-- The form of an instruction tells its mnemonic and its operands. -/
theorem tells_of_ofInstruction? {i : Instruction} (h : ofInstruction? i = some f) :
    f.Tells i.mnemonic i.operands := by
  unfold ofInstruction? at h
  rcases hops : i.operands with _ | op | ⟨dest, src⟩
  · rw [hops] at h
    exact tells_of_ofBare? h
  · rw [hops] at h
    exact tells_of_ofOne? h
  · rw [hops] at h
    exact tells_of_ofTwo? h

/-! ## An instruction has the form that tells it -/

@[simp] theorem general?_plain (op : Operand) : general? op.plain = general? op := by
  cases op <;> rfl

@[simp] theorem segment?_plain (op : Operand) : segment? op.plain = segment? op := by
  cases op <;> rfl

@[simp] theorem loadable?_plain (op : Operand) : loadable? op.plain = loadable? op := by
  cases op <;> rfl

@[simp] theorem place?_plain (op : Operand) : place? op.plain = place? op := by
  cases op <;> rfl

@[simp] theorem immediate?_plain (op : Operand) : immediate? op.plain = immediate? op := by
  cases op <;> rfl

theorem plain_eq_register {op : Operand} {name : String} :
    op.plain = .register name ↔ op = .register name := by
  cases op <;> simp [Operand.plain]

/-- Which form an instruction has does not hang on the text of its numbers. -/
theorem ofTwo?_plain (mnemonic : String) (dest src : Operand) :
    ofTwo? mnemonic dest.plain src.plain = ofTwo? mnemonic dest src := by
  simp only [ofTwo?, ofMove?, ofMoveToGeneral?, ofMoveFromGeneral?, ofBinary?, general?_plain,
    segment?_plain, loadable?_plain, place?_plain, immediate?_plain, plain_eq_register]

theorem ofOne?_plain (mnemonic : String) (op : Operand) :
    ofOne? mnemonic op.plain = ofOne? mnemonic op := by
  simp only [ofOne?, general?_plain, immediate?_plain]

@[simp] theorem general?_operand (r : General) : general? r.operand = some r :=
  General.ofName?_eq_some_iff.mpr rfl

@[simp] theorem immediate?_operand (r : General) : immediate? r.operand = none := rfl

theorem ofTwo?_name (op : BinaryOp) (dest src : Operand) :
    ofTwo? op.name dest src = ofBinary? op dest src := by
  cases op <;> rfl

/-- The form that is written with a mnemonic and operands is their form. -/
theorem ofInstruction?_self (f : Form) (text : String) (n : Int) :
    ofInstruction? ⟨f.mnemonic, f.operands, text, n⟩ = some f := by
  cases f with
  | moveImmediate dest value => cases dest <;> rfl
  | move dest src => cases dest <;> cases src <;> rfl
  | loadSegment dest src => cases dest <;> cases src <;> rfl
  | storeSegment dest src => cases dest <;> cases src <;> rfl
  | store dest src => cases dest <;> cases src <;> rfl
  | load dest src => cases dest <;> cases src <;> rfl
  | binary op dest src =>
    refine (ofTwo?_name op dest.operand src.operand).trans ?_
    simp only [ofBinary?, general?_operand]
  | binaryImmediate op dest value =>
    refine (ofTwo?_name op dest.operand (numberOperand value)).trans ?_
    simp only [ofBinary?, general?_operand]
    rfl
  | unary op dest => cases op <;> cases dest <;> rfl
  | branch condition target => cases condition <;> rfl
  | push src => cases src <;> rfl
  | pop dest => cases dest <;> rfl
  | jump _ | call _ | loop _ | ret | pushFlags | popFlags | nop | halt | input | output => rfl

/-- An instruction has the form that tells its mnemonic and its operands, and no other. -/
theorem ofInstruction?_eq_some_iff {i : Instruction} {f : Form} :
    ofInstruction? i = some f ↔ f.Tells i.mnemonic i.operands := by
  refine ⟨tells_of_ofInstruction?, fun h => ?_⟩
  have self := f.ofInstruction?_self i.text i.lineNumber
  rw [h.1, h.2] at self
  rw [← self]
  unfold ofInstruction?
  rcases i.operands with _ | op | ⟨dest, src⟩
  · rfl
  · exact (ofOne?_plain _ op).symm
  · exact (ofTwo?_plain _ dest src).symm

end Form

end BusCycle
