import AnnotationMetadata.Double.Shortest
import AnnotationMetadata.Json.Basic

set_option autoImplicit false

/-!
# Writing JSON text

`Json.compact` writes a document without blanks, `Json.pretty` with one entry
per line and two blanks per level. Both escape only what has to be escaped.
-/

namespace AnnotationMetadata.Json

/-! ## Strings -/

/-- A character below U+0020 as a numeric escape. -/
def controlEscape (c : Char) : List Char :=
  ['\\', 'u', '0', '0', Nat.digitChar (c.toNat / 16), Nat.digitChar (c.toNat % 16)]

/-- A character as it stands inside quotes. -/
def escape (c : Char) : List Char :=
  if c = '"' then ['\\', '"']
  else if c = '\\' then ['\\', '\\']
  else if c = '\x08' then ['\\', 'b']
  else if c = '\x0c' then ['\\', 'f']
  else if c = '\n' then ['\\', 'n']
  else if c = '\r' then ['\\', 'r']
  else if c = '\t' then ['\\', 't']
  else if c.toNat < 0x20 then controlEscape c
  else [c]

def quote (text : String) : String :=
  String.ofList ('"' :: (text.toList.flatMap escape ++ ['"']))

def integerText (value : Int) : String :=
  String.ofList
    (if value < 0 then '-' :: Nat.toDigits 10 value.natAbs else Nat.toDigits 10 value.natAbs)

/-! ## Compact text -/

/-- Text that opens and closes an object. -/
def braces (inner : String) : String :=
  "\x7b" ++ inner ++ "\x7d"

def brackets (inner : String) : String :=
  "[" ++ inner ++ "]"

mutual

def compact : Json → String
  | .null => "null"
  | .meaningless => "null"
  | .bool value => if value then "true" else "false"
  | .integer value => integerText value
  | .double value => value.toText
  | .string value => quote value
  | .array items => brackets (String.intercalate "," (compactItems items))
  | .object fields => braces (String.intercalate "," (compactFields fields))

def compactItems : List Json → List String
  | [] => []
  | item :: rest => item.compact :: compactItems rest

def compactFields : List (String × Json) → List String
  | [] => []
  | (name, value) :: rest => (quote name ++ ":" ++ value.compact) :: compactFields rest

end

/-! ## Text with one entry per line -/

def indent (level : Nat) : String :=
  "\n" ++ String.ofList (List.replicate (2 * level) ' ')

/-- Entries on lines of their own, one level deeper than `level`. -/
def lines (level : Nat) (entries : List String) : String :=
  indent (level + 1) ++ String.intercalate ("," ++ indent (level + 1)) entries ++ indent level

mutual

def prettyAt (level : Nat) : Json → String
  | .array [] => "[]"
  | .array (item :: rest) =>
    brackets (lines level (item.prettyAt (level + 1) :: prettyItems (level + 1) rest))
  | .object [] => braces ""
  | .object ((name, value) :: rest) =>
    braces (lines level ((quote name ++ ": " ++ value.prettyAt (level + 1)) ::
      prettyFields (level + 1) rest))
  | json => json.compact

def prettyItems (level : Nat) : List Json → List String
  | [] => []
  | item :: rest => item.prettyAt level :: prettyItems level rest

def prettyFields (level : Nat) : List (String × Json) → List String
  | [] => []
  | (name, value) :: rest =>
    (quote name ++ ": " ++ value.prettyAt level) :: prettyFields level rest

end

def pretty (json : Json) : String :=
  json.prettyAt 0

end AnnotationMetadata.Json
