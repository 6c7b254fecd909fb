import AnnotationMetadata.Json.Basic

set_option autoImplicit false

/-!
# Records

A record has named fields in a fixed order. It is written as an object, or as an
array of its fields in that order, where trailing fields may be left out. The
functions here find out which fields are present; whether an absent one has a
default is up to the record.
-/

namespace AnnotationMetadata.Record

variable {α : Type}

/-- What becomes of an object field that the record does not have. -/
inductive UnknownFields where
  | refused
  | ignored
  deriving DecidableEq

/-- The fields of a record written as an object. None of them may be repeated. -/
def ofFields? (names : List String) (unknown : UnknownFields) (fields : List (String × α)) :
    Option (Dict α) :=
  let known := fields.filter fun field => names.contains field.1
  if unknown = .refused ∧ known.length < fields.length then none
  else if (Dict.keys known).Nodup then some known
  else none

/-- The fields of a record written as an array, which has no more items than the
record has fields. -/
def ofItems? (names : List String) (items : List α) : Option (Dict α) :=
  if items.length ≤ names.length then some (names.zip items) else none

def required? {β : Type} (record : Dict α) (name : String) (read : α → Option β) : Option β := do
  read (← Dict.get? record name)

def optional? {β : Type} (record : Dict α) (name : String) (fallback : β)
    (read : α → Option β) : Option β :=
  match Dict.get? record name with
  | none => some fallback
  | some field => read field

end AnnotationMetadata.Record

namespace AnnotationMetadata.Json

/-- The fields of a record in which other fields are ignored. -/
def openRecord? (names : List String) : Json → Option (Dict Json)
  | .object fields => Record.ofFields? names .ignored fields
  | .array items => Record.ofItems? names items
  | _ => none

/-- The fields of a record in which other fields are refused. -/
def closedRecord? (names : List String) : Json → Option (Dict Json)
  | .object fields => Record.ofFields? names .refused fields
  | .array items => Record.ofItems? names items
  | _ => none

end AnnotationMetadata.Json
