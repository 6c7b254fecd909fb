set_option autoImplicit false

/-!
# Command line arguments

Arguments are operands, switches and options with a value. Long names follow two
dashes and may have their value attached with `=`. Letters follow one dash and
may be run together; the first one that takes a value takes the rest, after an
optional `=`, or else the next argument. After `--` everything is an operand.
-/

namespace AnnotationMetadata.CommandLine

inductive OptionKind where
  /-- Takes no value. -/
  | switch
  /-- Asks for help and ends the reading of arguments. -/
  | help
  /-- Takes one value, from the given choices if there are any. -/
  | single (choices : List String)
  /-- May be given several times, with a value each time. -/
  | many

structure OptionSpec where
  name : String
  letter : Option Char := none
  kind : OptionKind

/-- Why reading the arguments ended early. -/
inductive Stop where
  | refused
  | help
  deriving DecidableEq

structure Arguments where
  /-- Options by name with their values, in order. A switch has no value. -/
  options : List (String × String) := []
  operands : List String := []
  /-- An option that waits for its value. -/
  waiting : Option OptionSpec := none
  /-- Only operands follow. -/
  literal : Bool := false

namespace Arguments

def has (arguments : Arguments) (name : String) : Bool :=
  arguments.options.any fun entry => entry.1 == name

def valuesOf (arguments : Arguments) (name : String) : List String :=
  (arguments.options.filter fun entry => entry.1 == name).map Prod.snd

def value? (arguments : Arguments) (name : String) : Option String :=
  (arguments.valuesOf name).head?

/-! ## Options -/

def addOption (arguments : Arguments) (name value : String) : Arguments :=
  { arguments with options := arguments.options ++ [(name, value)], waiting := none }

def giveValue (arguments : Arguments) (spec : OptionSpec) (value : String) :
    Except Stop Arguments :=
  match spec.kind with
  | .single choices =>
    if arguments.has spec.name || (!choices.isEmpty && !choices.contains value) then .error .refused
    else .ok (arguments.addOption spec.name value)
  | .many => .ok (arguments.addOption spec.name value)
  | _ => .error .refused

/-- Starts an option, with the value attached to it if there is one. None may
still wait for its own value. -/
def startOption (arguments : Arguments) (spec : OptionSpec) (attached : Option String) :
    Except Stop Arguments :=
  if arguments.waiting.isSome then .error .refused
  else
    match spec.kind, attached with
    | .help, none => .error .help
    | .help, some _ => .error .refused
    | .switch, none =>
      if arguments.has spec.name then .error .refused else .ok (arguments.addOption spec.name "")
    | .switch, some _ => .error .refused
    | _, some value => arguments.giveValue spec value
    | _, none => .ok { arguments with waiting := some spec }

def takesValue (spec : OptionSpec) : Bool :=
  match spec.kind with
  | .single _ => true
  | .many => true
  | _ => false

/-- The characters before and after the first equals sign, if there is one. -/
def splitEquals : List Char → List Char × Option (List Char)
  | [] => ([], none)
  | c :: rest =>
    if c = '=' then ([], some rest)
    else
      let (before, after) := splitEquals rest
      (c :: before, after)

def readLong (specs : List OptionSpec) (arguments : Arguments) (chars : List Char) :
    Except Stop Arguments :=
  let (name, attached) := splitEquals chars
  match specs.find? fun spec => spec.name == String.ofList name with
  | some spec => arguments.startOption spec (attached.map String.ofList)
  | none => .error .refused

/-- The value attached to an option letter. -/
def attachedValue : List Char → Option String
  | [] => none
  | '=' :: rest => some (String.ofList rest)
  | rest => some (String.ofList rest)

/-- Option letters without their dash. -/
def readLetters (specs : List OptionSpec) (arguments : Arguments) :
    List Char → Except Stop Arguments
  | [] => .ok arguments
  | letter :: rest =>
    match specs.find? fun spec => spec.letter == some letter with
    | none => .error .refused
    | some spec =>
      if takesValue spec then arguments.startOption spec (attachedValue rest)
      else do readLetters specs (← arguments.startOption spec none) rest

/-! ## Reading -/

/-- Adds an operand, of which there may be only so many. -/
def addOperand (limit : Nat) (arguments : Arguments) (operand : String) :
    Except Stop Arguments :=
  if arguments.waiting.isSome || limit ≤ arguments.operands.length then .error .refused
  else .ok { arguments with operands := arguments.operands ++ [operand] }

def readNext (specs : List OptionSpec) (limit : Nat) (arguments : Arguments) (argument : String) :
    Except Stop Arguments :=
  if arguments.literal then arguments.addOperand limit argument
  else
    match argument.toList with
    | ['-', '-'] => .ok { arguments with literal := true }
    | '-' :: '-' :: chars => arguments.readLong specs chars
    | '-' :: letter :: rest => arguments.readLetters specs (letter :: rest)
    | _ =>
      match arguments.waiting with
      | some spec => arguments.giveValue spec argument
      | none => arguments.addOperand limit argument

/-- Reads all arguments. At the end no option may wait for its value. -/
def read (specs : List OptionSpec) (limit : Nat) (given : List String) : Except Stop Arguments := do
  let arguments ← given.foldlM (readNext specs limit) {}
  if arguments.waiting.isSome then .error .refused else return arguments

end Arguments

end AnnotationMetadata.CommandLine
