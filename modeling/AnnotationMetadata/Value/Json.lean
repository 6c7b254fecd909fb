import AnnotationMetadata.Json.Reader
import AnnotationMetadata.Json.Record
import AnnotationMetadata.Json.Writer
import AnnotationMetadata.Value.Basic

set_option autoImplicit false

/-!
# Annotation values as JSON

Scalars and arrays stand for themselves. A class is an object with the field
`class`, an enum constant one with `enum` and `constant`, an annotation one with
`annotation`. Values carry no tag: the first kind that fits is taken, in the
order of the constructors of `Value`.
-/

namespace AnnotationMetadata

/-! ## Writing -/

def Retention.toJson (retention : Retention) : Json :=
  .string retention.text

def ClassRef.toJson (value : ClassRef) : Json :=
  .object (("class", .string value.name) ::
    (if value.instantiated then [("instantiated", .bool true)] else []))

def EnumConstant.toJson (value : EnumConstant) : Json :=
  .object [("enum", .string value.typeName), ("constant", .string value.constant)]

mutual

def Value.toJson : Value → Json
  | .bool value => .bool value
  | .long value => .integer value.toInt
  | .double value => .double value
  | .string value => .string value
  | .array items => .array (Value.itemsToJson items)
  | .classRef value => value.toJson
  | .enumConstant value => value.toJson
  | .nested value => value.toJson

def Value.itemsToJson : List Value → List Json
  | [] => []
  | item :: rest => item.toJson :: Value.itemsToJson rest

/-- Fields that hold nothing but the default are left out. -/
def Annotation.toJson : Annotation → Json
  | ⟨name, members, retention, stereotypes⟩ =>
    .object (("annotation", .string name) ::
      ((if members.isEmpty then [] else [("values", .object (Value.membersToJson members))]) ++
        (if retention = .runtime then [] else [("retention", retention.toJson)]) ++
        (if stereotypes.isEmpty then []
          else [("stereotypes", .array (Value.annotationsToJson stereotypes))])))

def Value.membersToJson : List (String × Value) → List (String × Json)
  | [] => []
  | (member, value) :: rest => (member, value.toJson) :: Value.membersToJson rest

def Value.annotationsToJson : List Annotation → List Json
  | [] => []
  | occurrence :: rest => occurrence.toJson :: Value.annotationsToJson rest

end

def Members.toJson (members : Members) : Json :=
  .object (Value.membersToJson members)

def Value.text (value : Value) : String :=
  value.toJson.compact

def Annotation.text (occurrence : Annotation) : String :=
  occurrence.toJson.compact

/-! ## Reading -/

/-- A retention is its name, or an object that maps its name to `null`. -/
def Retention.ofJson? : Json → Option Retention
  | .string text => ofText? text
  | .object [(text, .null)] => ofText? text
  | _ => none
where
  ofText? (text : String) : Option Retention :=
    if text = "SOURCE" then some .source
    else if text = "CLASS" then some .classFile
    else if text = "RUNTIME" then some .runtime
    else none

/-- An integer is a long when it fits, otherwise the nearest double. -/
def Value.ofInteger? (value : Int) : Option Value :=
  if Int64.minValue.toInt ≤ value ∧ value ≤ Int64.maxValue.toInt then some (.long (Int64.ofInt value))
  else (Double.ofNat? (value < 0) value.natAbs).map .double

/-- A part of a document with everything it could stand for. -/
structure Reading where
  json : Json
  value : Option Value := none
  annotation : Option Annotation := none
  members : Option Members := none
  annotations : Option (List Annotation) := none

namespace Reading

/-! ### Records -/

def classRef? (record : Option (Dict Reading)) : Option ClassRef := do
  let record ← record
  let name ← Record.required? record "class" (·.json.string?)
  let instantiated ← Record.optional? record "instantiated" false (·.json.bool?)
  return ⟨name, instantiated⟩

def enumConstant? (record : Option (Dict Reading)) : Option EnumConstant := do
  let record ← record
  let typeName ← Record.required? record "enum" (·.json.string?)
  let constant ← Record.required? record "constant" (·.json.string?)
  return ⟨typeName, constant⟩

def annotationOf? (record : Option (Dict Reading)) : Option Annotation := do
  let record ← record
  let name ← Record.required? record "annotation" (·.json.string?)
  let members ← Record.optional? record "values" [] (·.members)
  let retention ← Record.optional? record "retention" .runtime (Retention.ofJson? ·.json)
  let stereotypes ← Record.optional? record "stereotypes" [] (·.annotations)
  return ⟨name, members, retention, stereotypes⟩

/-- The value of a part that is read as a record, given a view of the part for a
list of field names. -/
def recordValue? (view : List String → Option (Dict Reading)) : Option Value :=
  ((classRef? (view ["class", "instantiated"])).map .classRef).or
    (((enumConstant? (view ["enum", "constant"])).map .enumConstant).or
      ((annotationOf? (view ["annotation", "values", "retention", "stereotypes"])).map .nested))

def recordAnnotation? (view : List String → Option (Dict Reading)) : Option Annotation :=
  annotationOf? (view ["annotation", "values", "retention", "stereotypes"])

/-! ### Parts -/

def ofScalar (json : Json) (value : Option Value) : Reading :=
  { json, value }

/-- The fields as member values, if each has a value. -/
def memberValues? (fields : List (String × Reading)) : Option (List (String × Value)) :=
  fields.mapM fun field => field.2.value.map fun value => (field.1, value)

/-- A repeated member keeps its first place and its last value. -/
def ofFields (json : Json) (fields : List (String × Reading)) : Reading :=
  let view names := Record.ofFields? names .refused fields
  { json
    value := recordValue? view
    annotation := recordAnnotation? view
    members := (memberValues? fields).map Dict.ofEntries }

/-- An array of values is an array; only another one may stand for a record. -/
def ofItems (json : Json) (items : List Reading) : Reading :=
  let view names := Record.ofItems? names items
  { json
    value := ((items.mapM Reading.value).map .array).or (recordValue? view)
    annotation := recordAnnotation? view
    annotations := items.mapM Reading.annotation }

mutual

def ofJson : Json → Reading
  | .bool value => ofScalar (.bool value) (some (.bool value))
  | .integer value => ofScalar (.integer value) (Value.ofInteger? value)
  | .double value => ofScalar (.double value) (some (.double value))
  | .string value => ofScalar (.string value) (some (.string value))
  | .array items => ofItems (.array items) (ofJsonItems items)
  | .object fields => ofFields (.object fields) (ofJsonFields fields)
  | json => ofScalar json none

def ofJsonItems : List Json → List Reading
  | [] => []
  | item :: rest => ofJson item :: ofJsonItems rest

def ofJsonFields : List (String × Json) → List (String × Reading)
  | [] => []
  | (name, value) :: rest => (name, ofJson value) :: ofJsonFields rest

end

end Reading

def Value.ofJson? (json : Json) : Option Value :=
  (Reading.ofJson json).value

def Annotation.ofJson? (json : Json) : Option Annotation :=
  Reading.annotation (Reading.ofJson json)

def Members.ofJson? (json : Json) : Option Members :=
  (Reading.ofJson json).members

def Annotation.listOfJson? (json : Json) : Option (List Annotation) :=
  (Reading.ofJson json).annotations

/-- The value of a text that nests no deeper than `Json.maxDepth`. -/
def Value.ofText? (text : String) : Option Value :=
  (Json.ofShallowText? text).bind Value.ofJson?

def Annotation.ofText? (text : String) : Option Annotation :=
  (Json.ofShallowText? text).bind Annotation.ofJson?

end AnnotationMetadata
