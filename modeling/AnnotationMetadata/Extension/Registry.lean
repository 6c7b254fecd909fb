import AnnotationMetadata.Extension.Basic
import AnnotationMetadata.Text.Shown

set_option autoImplicit false

/-!
# The extension registry

A registry finds extensions by annotation name or by package, in the order in
which they were registered. It is loaded from candidates, some of which may turn
out to be unusable; those are left out.
-/

namespace AnnotationMetadata

inductive LoadError where
  | missingDependency (extension dependency : String)
  | invalid (extension reason : String)
  deriving DecidableEq

def LoadError.message : LoadError → String
  | .missingDependency extension dependency =>
    "missing dependency " ++ dependency ++ " required by " ++ extension
  | .invalid extension reason => "invalid extension " ++ extension ++ ": " ++ reason

inductive LoadOutcome where
  | loaded (extension : Extension)
  | failed (error : LoadError)
  /-- Loading broke off. -/
  | crashed

/-- An extension that was found but is not loaded yet. -/
structure Candidate where
  name : String
  outcome : LoadOutcome

def Candidate.extension? (candidate : Candidate) : Option Extension :=
  match candidate.outcome with
  | .loaded extension => some extension
  | _ => none

structure Registry where
  mapperTable : Dict (List Expansion) := []
  transformerTable : Dict (List Expansion) := []
  remapperTable : Dict (List Remapping) := []

namespace Registry

def empty : Registry := {}

def addTo {α : Type} (table : Dict (List α)) (key : String) (item : α) : Dict (List α) :=
  Dict.alter table key [] (· ++ [item])

/-- Adds an extension under its key. One with an empty key is skipped. -/
def register (registry : Registry) (extension : Extension) : Registry :=
  if extension.key = "" then registry
  else
    match extension with
    | .mapper key expand =>
      { registry with mapperTable := addTo registry.mapperTable key expand }
    | .transformer key expand =>
      { registry with transformerTable := addTo registry.transformerTable key expand }
    | .remapper key remap =>
      { registry with remapperTable := addTo registry.remapperTable key remap }

def ofExtensions (extensions : List Extension) : Registry :=
  extensions.foldl register empty

/-- Loads the candidates of every source and skips the unusable ones. -/
def load (sources : List (List Candidate)) : Registry :=
  sources.foldl
    (fun registry candidates => candidates.foldl loadCandidate registry) empty
where
  loadCandidate (registry : Registry) (candidate : Candidate) : Registry :=
    match candidate.outcome with
    | .loaded extension => registry.register extension
    | .failed _ => registry
    | .crashed => registry

/-! ## Lookup -/

def mappers (registry : Registry) (name : String) : List Expansion :=
  (Dict.get? registry.mapperTable name).getD []

def transformers (registry : Registry) (name : String) : List Expansion :=
  (Dict.get? registry.transformerTable name).getD []

def remappers (registry : Registry) (packageName : String) : List Remapping :=
  (Dict.get? registry.remapperTable packageName).getD []

def remappersFor (registry : Registry) (name : String) : List Remapping :=
  registry.remappers (Name.packageOf name)

/-- Whether building replaces the annotation in some way. -/
def isMapped (registry : Registry) (name : String) : Bool :=
  Dict.contains registry.mapperTable name || Dict.contains registry.transformerTable name ||
    Dict.contains registry.remapperTable (Name.packageOf name)

def isEmpty (registry : Registry) : Bool :=
  registry.mapperTable.isEmpty && registry.transformerTable.isEmpty &&
    registry.remapperTable.isEmpty

/-! ## Listings -/

/-- Strings in the order of their characters, each once. -/
def sorted (names : List String) : List String :=
  names.eraseDups.mergeSort fun a b => a ≤ b

/-- The annotation names that mappers or transformers are registered for. -/
def mappedNames (registry : Registry) : List String :=
  sorted (Dict.keys registry.mapperTable ++ Dict.keys registry.transformerTable)

def mappedPackages (registry : Registry) : List String :=
  sorted (Dict.keys registry.remapperTable)

def describe (registry : Registry) : String :=
  "ExtensionRegistry \x7b mappers: " ++ Text.shownSet (sorted (Dict.keys registry.mapperTable)) ++
    ", transformers: " ++ Text.shownSet (sorted (Dict.keys registry.transformerTable)) ++
    ", remappers: " ++ Text.shownSet (sorted (Dict.keys registry.remapperTable)) ++ " \x7d"

end Registry

/-! ## Installed extensions -/

/-- The extensions that are always at hand. -/
def Candidate.installed : List Candidate :=
  [⟨"jakarta-inject-remapper", .loaded (.movePackage "jakarta.inject" "javax.inject")⟩]

def Registry.installed : Registry :=
  load [Candidate.installed]

end AnnotationMetadata
