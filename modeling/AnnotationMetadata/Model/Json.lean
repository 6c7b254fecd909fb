import AnnotationMetadata.Json.Reader
import AnnotationMetadata.Model.Basic
import AnnotationMetadata.Value.Json

set_option autoImplicit false

/-!
# Documents as JSON

Every record of a document may leave out fields that have a default, and has no
fields but its own.
-/

namespace AnnotationMetadata

/-- A map from names to records. A repeated name keeps its first place and its
last record. -/
def Json.dict? {α : Type} (read : Json → Option α) : Json → Option (Dict α)
  | .object fields => do
    let entries ← fields.mapM fun field => do return (field.1, ← read field.2)
    return Dict.ofEntries entries
  | _ => none

def MemberDeclaration.ofJson? (json : Json) : Option MemberDeclaration := do
  let record ← json.closedRecord? ["default", "annotations"]
  let default ← Record.optional? record "default" none (Json.nullable? Value.ofJson?)
  let annotations ← Record.optional? record "annotations" [] Annotation.listOfJson?
  return { default, annotations }

def AnnotationDeclaration.ofJson? (json : Json) : Option AnnotationDeclaration := do
  let record ← json.closedRecord? ["retention", "repeatable", "members", "annotations"]
  let retention ← Record.optional? record "retention" .runtime Retention.ofJson?
  let container ← Record.optional? record "repeatable" none (Json.nullable? Json.string?)
  let members ← Record.optional? record "members" [] (Json.dict? MemberDeclaration.ofJson?)
  let annotations ← Record.optional? record "annotations" [] Annotation.listOfJson?
  return { retention, container, members, annotations }

/-- A kind is its name, or an object that maps its name to `null`. -/
def ElementKind.ofJson? : Json → Option ElementKind
  | .string text => ofText? text
  | .object [(text, .null)] => ofText? text
  | _ => none
where
  ofText? (text : String) : Option ElementKind :=
    if text = "class" then some .classType
    else if text = "method" then some .method
    else if text = "field" then some .field
    else if text = "constructor" then some .constructor
    else none

def ElementDeclaration.ofJson? (json : Json) : Option ElementDeclaration := do
  let record ← json.closedRecord?
    ["kind", "declaringType", "supertypes", "overrides", "annotations", "abort"]
  let kind ← Record.required? record "kind" ElementKind.ofJson?
  let declaringType ← Record.optional? record "declaringType" none (Json.nullable? Json.string?)
  let supertypes ← Record.optional? record "supertypes" [] Json.strings?
  let overrides ← Record.optional? record "overrides" [] Json.strings?
  let annotations ← Record.optional? record "annotations" [] Annotation.listOfJson?
  let abort ← Record.optional? record "abort" none (Json.nullable? Json.string?)
  return { kind, declaringType, supertypes, overrides, annotations, abort }

def Document.ofJson? (json : Json) : Option Document := do
  let record ← json.closedRecord? ["annotations", "elements"]
  let annotations ←
    Record.optional? record "annotations" [] (Json.dict? AnnotationDeclaration.ofJson?)
  let elements ← Record.optional? record "elements" [] (Json.dict? ElementDeclaration.ofJson?)
  return { annotations, elements }

/-- Reads a document from text that nests no deeper than `Json.maxDepth`. -/
def Document.ofText? (text : String) : Option Document :=
  (Json.ofShallowText? text).bind Document.ofJson?

end AnnotationMetadata
