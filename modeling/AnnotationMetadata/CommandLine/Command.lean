import AnnotationMetadata.CommandLine.Arguments
import AnnotationMetadata.CommandLine.Directory
import AnnotationMetadata.Config.Json
import AnnotationMetadata.Json.Writer
import AnnotationMetadata.Model.Json
import AnnotationMetadata.Session.Build
import AnnotationMetadata.Store.Json

set_option autoImplicit false

/-!
# Commands

The command line builds the metadata of the elements of a document, or lists the
annotations and packages that extensions are registered for. A command is read
from the arguments and carried out on the contents of the files it names.
-/

namespace AnnotationMetadata.CommandLine

inductive Mode where
  | full
  | declared
  | overridden
  | method
  deriving DecidableEq

structure BuildCommand where
  modelPath : String
  /-- The elements to build; every element of the document when there are none. -/
  elements : List String
  mode : Mode
  configPath : Option String
  pretty : Bool

inductive Command where
  | build (command : BuildCommand)
  | extensions (configPath : Option String)

inductive Request where
  | command (command : Command)
  | version
  | help
  /-- The arguments make no sense. -/
  | refused

structure Outcome where
  exitCode : Nat
  output : String := ""
  messages : List String := []

/-- What is printed about a run besides its output, each message on lines of its
own. -/
def Outcome.report (outcome : Outcome) : String :=
  String.join (outcome.messages.map (· ++ "\n"))

/-! ## Reading commands -/

namespace Mode

def ofText? (text : String) : Option Mode :=
  if text = "full" then some .full
  else if text = "declared" then some .declared
  else if text = "overridden" then some .overridden
  else if text = "method" then some .method
  else none

/-- Builds an element with the entry point of the mode. -/
def build (mode : Mode) (session : Session) (element : Element) : Session.Built :=
  match mode with
  | .full => session.build element
  | .declared => session.buildDeclared element
  | .overridden => session.buildOverridden element
  | .method => session.buildForMethod element

end Mode

def configOption : OptionSpec := ⟨"config", some 'c', .single []⟩

def helpOption : OptionSpec := ⟨"help", some 'h', .help⟩

/-- The options of `build`. What `jobs` asks for, building side by side, does not
change any result, so it is accepted and left at that. -/
def buildOptions : List OptionSpec :=
  [⟨"element", some 'e', .many⟩,
    ⟨"mode", some 'm', .single ["full", "declared", "overridden", "method"]⟩,
    configOption, ⟨"jobs", some 'j', .switch⟩, ⟨"pretty", none, .switch⟩, helpOption]

/-- The request that reading arguments early ended with. -/
def Stop.request : Stop → Request
  | .refused => .refused
  | .help => .help

def readBuild (given : List String) : Request :=
  match Arguments.read buildOptions 1 given with
  | .error stop => stop.request
  | .ok arguments =>
    match arguments.operands.head? with
    | none => .refused
    | some modelPath =>
      .command (.build
        { modelPath
          elements := arguments.valuesOf "element"
          mode := ((arguments.value? "mode").bind Mode.ofText?).getD .full
          configPath := arguments.value? "config"
          pretty := arguments.has "pretty" })

def readExtensions (given : List String) : Request :=
  match Arguments.read [configOption, helpOption] 0 given with
  | .error stop => stop.request
  | .ok arguments => .command (.extensions (arguments.value? "config"))

def readHelp (given : List String) : Request :=
  match given with
  | [] => .help
  | [topic] => if ["build", "extensions", "help"].contains topic then .help else .refused
  | _ => .refused

def Request.ofArguments : List String → Request
  | [] => .refused
  | first :: rest =>
    if first = "build" then readBuild rest
    else if first = "extensions" then readExtensions rest
    else if first = "help" then readHelp rest
    else if first = "--version" then .version
    else if first = "--help" then .help
    else
      match first.toList with
      | '-' :: 'V' :: _ => .version
      | '-' :: 'h' :: _ => .help
      | _ => .refused

def Command.paths : Command → List String
  | .build command => command.configPath.toList ++ [command.modelPath]
  | .extensions configPath => configPath.toList

/-! ## Running commands -/

def loadConfig (files : FileAccess) : Option String → Except String Config
  | none => .ok {}
  | some path =>
    match files path with
    | .error failure =>
      .error ("failed to read builder config " ++ path ++ ": " ++ failure.message)
    | .ok text =>
      match Config.ofText? text with
      | some config => .ok config
      | none => .error ("invalid builder config " ++ path)

def loadDocument (files : FileAccess) (path : String) : Except String Document :=
  let context := "failed to load element model " ++ path ++ ": "
  match files path with
  | .error failure =>
    .error (context ++ "failed to read element model " ++ path ++ ": " ++ failure.message)
  | .ok text =>
    match Document.ofText? text with
    | some document => .ok document
    | none => .error (context ++ "invalid element model " ++ path)

/-- The declared elements of some names; every name has to be known. -/
def findElements (model : Model) (names : List String) : Except String (List (String × Element)) :=
  names.mapM fun name =>
    match model.element? name with
    | some element => .ok (name, element)
    | none => .error ("unknown element " ++ name)

/-- Results of building elements, and the failures among them. -/
structure Batch where
  session : Session
  built : Dict Metadata := []
  failures : List BuildError := []

def Batch.step (mode : Mode) (batch : Batch) (entry : String × Element) : Batch :=
  match mode.build batch.session entry.2 with
  | (.ok metadata, session) =>
    { batch with session, built := Dict.insert batch.built entry.1 metadata }
  | (.error failure, session) => { batch with session, failures := batch.failures ++ [failure] }

def Batch.run (mode : Mode) (session : Session) (elements : List (String × Element)) : Batch :=
  elements.foldl (Batch.step mode) { session }

def Batch.toJson (batch : Batch) : Json :=
  .object (batch.built.map fun entry => (entry.1, entry.2.snapshot.toJson))

/-- What a batch leaves behind: failures come before diagnostics. -/
def Batch.outcome (batch : Batch) (pretty : Bool) : Outcome :=
  let json := batch.toJson
  let failed := !batch.failures.isEmpty || batch.session.hasErrors
  { exitCode := if failed then 1 else 0
    output := (if pretty then json.pretty else json.compact) ++ "\n"
    messages := batch.failures.map (fun failure => "Error: " ++ failure.message) ++
      batch.session.diagnostics.map Diagnostic.text }

def runBuild (files : FileAccess) (command : BuildCommand) : Except String Outcome := do
  let config ← loadConfig files command.configPath
  let document ← loadDocument files command.modelPath
  let model : Model := { document, visitorOptions := config.visitorOptions }
  let names := if command.elements.isEmpty then model.elementNames else command.elements
  let elements ← findElements model names
  let session : Session := { context := { model, config, registry := config.registry } }
  return (Batch.run command.mode session elements).outcome command.pretty

def runExtensions (files : FileAccess) (configPath : Option String) : Except String Outcome := do
  let registry := (← loadConfig files configPath).registry
  let listing : Json := .object
    [("annotations", Json.ofStrings registry.mappedNames),
      ("packages", Json.ofStrings registry.mappedPackages)]
  return { exitCode := 0, output := listing.pretty ++ "\n" }

def Command.run (files : FileAccess) : Command → Except String Outcome
  | .build command => runBuild files command
  | .extensions configPath => runExtensions files configPath

def versionText : String := "annotation-metadata 0.1.0"

def usage : String :=
  "Usage: annotation-metadata build [OPTIONS] MODEL\n" ++
    "       annotation-metadata extensions [--config PATH]"

def run (files : FileAccess) : Request → Outcome
  | .version => { exitCode := 0, output := versionText ++ "\n" }
  | .help => { exitCode := 0, output := usage ++ "\n" }
  | .refused => { exitCode := 2, messages := [usage] }
  | .command command =>
    match command.run files with
    | .ok outcome => outcome
    | .error message => { exitCode := 1, messages := ["Error: " ++ message] }

end AnnotationMetadata.CommandLine
