-- The arguments of the command: one program file, and options with long names that may be cut short
-- as long as they stay clear.
import BusCycle.Config.Preset
import BusCycle.Number.Reading

namespace BusCycle

/-! ## Options -/

/-- What an option that takes a value was given. The separator attached to its name stands for no
value at all, which is not the same as leaving the option out. -/
inductive Given (α : Type)
  | absent
  | nothing
  | value (a : α)

def Given.value? {α : Type} : Given α → Option α
  | absent | nothing => none
  | value a => some a

/-- What the arguments ask for. -/
structure Options where
  program : Option String
  width : Given Int
  preset : Given Preset
  config : Given String
  delay : Given Binary64
  showRegisters : Bool
  showMemory : Bool
  logDirectory : Given String
  verbose : Bool

/-- The options if nothing is asked for. -/
def Options.none : Options :=
  ⟨Option.none, .absent, .absent, .absent, .absent, false, false, .absent, false⟩

/-- An option. -/
inductive Switch
  | help
  | width
  | preset
  | config
  | delay
  | registers
  | memory
  | logDirectory
  | verbose
  | version
  deriving DecidableEq

namespace Switch

def longNames : List (String × Switch) :=
  [("--help", help), ("--bus-width", width), ("--preset", preset), ("--config", config),
    ("--delay", delay), ("--regs", registers), ("--memory", memory), ("--log-dir", logDirectory),
    ("--verbose", verbose), ("--version", version)]

/-- The letters that may follow a single dash. -/
def ofLetter? : Char → Option Switch
  | 'h' => some help
  | 'v' => some verbose
  | _ => none

def takesValue : Switch → Bool
  | width | preset | config | delay | logDirectory => true
  | _ => false

end Switch

/-! ## Kinds of arguments -/

/-- What an argument is, seen by itself. -/
inductive Argument
  | value (text : String)
  | separator
  | switch (s : Switch) (attached : Option String)
  | letters (s : Switch) (more : List Char)
  | unknown

namespace Argument

/-- A text before and after its first equals sign. -/
def atEquals (s : List Char) : List Char × Option String :=
  match s.dropWhile (· != '=') with
  | [] => (s, none)
  | _ :: after => (s.takeWhile (· != '='), some (String.ofList after))

/-- A digit of any script. -/
def isAnyDigit (c : Char) : Bool := (Text.decimalValue? c).isSome

/-- A minus sign with digits, or with a point and digits after it, and perhaps a line feed at the
end. Such arguments are values. -/
def isNegativeNumber (s : List Char) : Bool :=
  match Text.withoutFinalBreak s with
  | '-' :: rest =>
    match rest.dropWhile isAnyDigit with
    | [] => !rest.isEmpty
    | '.' :: after => !after.isEmpty && after.all isAnyDigit
    | _ => false
  | _ => false

/-- A letter with the text after it, which holds more letters. An equals sign in front of them does
not count. -/
def ofLetter (s : Switch) : List Char → Argument
  | [] => switch s none
  | ['='] => switch s (some "")
  | '=' :: more => letters s more
  | more => letters s more

/-- An argument after one dash or two that is no exact name. Nothing, if a long name is cut so short
that it is not clear. -/
def ofDashed (s : List Char) : Option Argument :=
  let (name, attached) := atEquals s
  let other : Argument :=
    if isNegativeNumber s || s.contains ' ' then value (String.ofList s) else unknown
  match s with
  | '-' :: '-' :: _ =>
    match Switch.longNames.filter fun n => name.isPrefixOf n.1.toList with
    | [] => some other
    | [n] => some (switch n.2 attached)
    | _ => none
  | _ :: c :: rest =>
    match Switch.ofLetter? c with
    | some l => some (ofLetter l rest)
    | none => some other
  | _ => some other

/-- What an argument is. Nothing, if it is not clear. -/
def classify (arg : String) : Option Argument :=
  let s := arg.toList
  match s with
  | '-' :: _ :: _ =>
    match Switch.longNames.lookup (String.ofList (atEquals s).1) with
    | some l => some (switch l (atEquals s).2)
    | none => ofDashed s
  | _ => some (value arg)

/-- What each argument is. After a separator all are values. -/
def classifyAll : List String → Option (List Argument)
  | [] => some []
  | "--" :: rest => some (separator :: rest.map value)
  | arg :: rest => do
    let a ← classify arg
    let as ← classifyAll rest
    return a :: as

end Argument

/-! ## Reading -/

/-- What the arguments come to. -/
inductive Request
  | perform (o : Options)
  | showVersion
  | showHelp
  | refuse

namespace Options

/-- The options with a value for one of them, if it is a fitting value. -/
def withValue (o : Options) (s : Switch) (text : String) : Option Options :=
  match s with
  | .width =>
    match Number.readInt? text.toList with
    | some n => if n = 8 ∨ n = 16 then some { o with width := .value n } else Option.none
    | Option.none => Option.none
  | .preset => (Preset.ofName? text).map fun p => { o with preset := .value p }
  | .config => some { o with config := .value text }
  | .delay => (Number.readReal? text.toList).map fun x => { o with delay := .value x }
  | .logDirectory => some { o with logDirectory := .value text }
  | _ => Option.none

/-- The options with one that takes a value but is given none. -/
def withNothing (o : Options) (s : Switch) : Option Options :=
  match s with
  | .width => some { o with width := .nothing }
  | .preset => some { o with preset := .nothing }
  | .config => some { o with config := .nothing }
  | .delay => some { o with delay := .nothing }
  | .logDirectory => some { o with logDirectory := .nothing }
  | _ => Option.none

/-- The options with a text attached to the name of one of them. -/
def withAttached (o : Options) (s : Switch) (text : String) : Option Options :=
  if text = "--" then o.withNothing s else o.withValue s text

/-- The options with one without a value taken into account, or the request that it makes at once. -/
def withFlag (o : Options) (s : Switch) : Options ⊕ Request :=
  match s with
  | .registers => .inl { o with showRegisters := true }
  | .memory => .inl { o with showMemory := true }
  | .verbose => .inl { o with verbose := true }
  | .version => .inr .showVersion
  | .help => .inr .showHelp
  | _ => .inr .refuse

/-- The options that letters behind one dash stand for, the first of them read already. -/
def ofLetters (s : Switch) : List Char → Option (List Switch)
  | [] => some [s]
  | c :: more => do
    let next ← Switch.ofLetter? c
    let ss ← ofLetters next more
    return s :: ss

/-- The options with several without a value taken into account, in order. -/
def withFlags (o : Options) : List Switch → Options ⊕ Request
  | [] => .inl o
  | s :: ss =>
    match o.withFlag s with
    | .inl o => withFlags o ss
    | r => r

/-- The request that arguments come to. What is left over is refused at the end only, so that a
request for the version or for help before it is heard. -/
def ofArguments (o : Options) (leftOver : Bool) : List Argument → Request
  | [] => if leftOver || o.program.isNone then .refuse else .perform o
  | .value p :: .separator :: rest =>
    if o.program.isNone then ofArguments { o with program := some p } leftOver rest
    else ofArguments o true rest
  | .value p :: rest =>
    if o.program.isNone then ofArguments { o with program := some p } leftOver rest
    else ofArguments o true rest
  | .separator :: rest => ofArguments o (leftOver || o.program.isSome) rest
  | .unknown :: rest => ofArguments o true rest
  | .letters s more :: rest =>
    match ofLetters s more with
    | Option.none => .refuse
    | some ss =>
      match o.withFlags ss with
      | .inl o => ofArguments o leftOver rest
      | .inr r => r
  | .switch s (some text) :: rest =>
    match o.withAttached s text with
    | some o => ofArguments o leftOver rest
    | Option.none => .refuse
  | .switch s Option.none :: rest =>
    if s.takesValue then
      match rest with
      | .value text :: rest =>
        match o.withValue s text with
        | some o => ofArguments o leftOver rest
        | Option.none => .refuse
      | _ => .refuse
    else
      match o.withFlag s with
      | .inl o => ofArguments o leftOver rest
      | .inr r => r

end Options

/-- The request that the arguments of a command line come to. -/
def Request.ofArguments (args : List String) : Request :=
  match Argument.classifyAll args with
  | none => .refuse
  | some as => Options.none.ofArguments false as

end BusCycle
