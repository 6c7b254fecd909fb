import AnnotationMetadata.Dict
import AnnotationMetadata.Double.Basic

set_option autoImplicit false

/-!
# JSON documents

A document keeps what its text says: numbers are integers or binary64 numbers,
and an object lists its fields as written, repeated names included. What a
reader makes of a repeated name is its own decision.
-/

namespace AnnotationMetadata

inductive Json where
  | null
  | bool (value : Bool)
  /-- An integer in the range of a signed or an unsigned 64-bit word. -/
  | integer (value : Int)
  | double (value : Double)
  | string (value : String)
  | array (items : List Json)
  | object (fields : List (String × Json))
  /-- Well-formed text that stands for no value: a number too large for
  binary64, or a string (also as a field name) with an unpaired surrogate. -/
  | meaningless

namespace Json

/-! ## Nesting -/

mutual

/-- How many arrays and objects enclose the innermost part, itself included. -/
def depth : Json → Nat
  | .array items => depthOfItems items + 1
  | .object fields => depthOfFields fields + 1
  | _ => 0

def depthOfItems : List Json → Nat
  | [] => 0
  | item :: rest => max item.depth (depthOfItems rest)

def depthOfFields : List (String × Json) → Nat
  | [] => 0
  | (_, value) :: rest => max value.depth (depthOfFields rest)

end

/-- The deepest nesting that readers accept. -/
def maxDepth : Nat := 127

/-! ## Leaves -/

def string? : Json → Option String
  | .string value => some value
  | _ => none

def bool? : Json → Option Bool
  | .bool value => some value
  | _ => none

def strings? : Json → Option (List String)
  | .array items => items.mapM string?
  | _ => none

/-- An object with string values. A repeated name keeps its first place and its
last value. -/
def stringDict? : Json → Option (Dict String)
  | .object fields => do
    let entries ← fields.mapM fun field => do return (field.1, ← field.2.string?)
    return Dict.ofEntries entries
  | _ => none

def ofStrings (strings : List String) : Json :=
  .array (strings.map .string)

def ofStringDict (dict : Dict String) : Json :=
  .object (dict.map fun entry => (entry.1, .string entry.2))

/-- A value, or nothing for `null`. -/
def nullable? {α : Type} (read : Json → Option α) : Json → Option (Option α)
  | .null => some none
  | json => (read json).map some

end Json

end AnnotationMetadata
