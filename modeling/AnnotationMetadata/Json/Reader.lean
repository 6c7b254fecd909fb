import AnnotationMetadata.Json.Token

set_option autoImplicit false

/-!
# Reading JSON text

Tokens are assembled into a document by a machine that keeps the open arrays and
objects on a stack. It takes one token at a time and never looks ahead.
-/

namespace AnnotationMetadata.Json

/-- An array or object that is not closed yet, and what it holds so far, last
entry first. -/
inductive Frame where
  | array (done : List Json)
  /-- The value of the last name is being read. A missing name had no meaning. -/
  | object (done : List (Option String × Json)) (name : Option String)

/-- What has been read, and what may come next. -/
inductive Assembly where
  | valueDue (stack : List Frame)
  | valueOrCloseDue (stack : List Frame)
  | nameOrCloseDue (stack : List Frame)
  | nameDue (stack : List Frame) (done : List (Option String × Json))
  | colonDue (stack : List Frame) (done : List (Option String × Json)) (name : Option String)
  /-- A value is complete. -/
  | complete (stack : List Frame) (value : Json)

/-- The object with the given fields, last one first. One name without meaning
takes the meaning of the whole. -/
def closeObject (done : List (Option String × Json)) : Json :=
  match done.reverse.mapM fun field => field.1.map fun name => (name, field.2) with
  | some fields => .object fields
  | none => .meaningless

namespace Assembly

/-- A token where a value is due. -/
def value? (stack : List Frame) : Token → Option Assembly
  | .scalar json => some (.complete stack json)
  | .text (some content) => some (.complete stack (.string content))
  | .text none => some (.complete stack .meaningless)
  | .openArray => some (.valueOrCloseDue stack)
  | .openObject => some (.nameOrCloseDue stack)
  | _ => none

/-- A token after a complete value. -/
def afterValue? (json : Json) : List Frame → Token → Option Assembly
  | .array done :: stack, .comma => some (.valueDue (.array (json :: done) :: stack))
  | .array done :: stack, .closeArray => some (.complete stack (.array (json :: done).reverse))
  | .object done name :: stack, .comma => some (.nameDue stack ((name, json) :: done))
  | .object done name :: stack, .closeObject =>
    some (.complete stack (closeObject ((name, json) :: done)))
  | _, _ => none

def step? : Assembly → Token → Option Assembly
  | .valueDue stack, token => value? stack token
  | .valueOrCloseDue stack, .closeArray => some (.complete stack (.array []))
  | .valueOrCloseDue stack, token => value? (.array [] :: stack) token
  | .nameOrCloseDue stack, .closeObject => some (.complete stack (.object []))
  | .nameOrCloseDue stack, .text name => some (.colonDue stack [] name)
  | .nameOrCloseDue _, _ => none
  | .nameDue stack done, .text name => some (.colonDue stack done name)
  | .nameDue _ _, _ => none
  | .colonDue stack done name, .colon => some (.valueDue (.object done name :: stack))
  | .colonDue _ _ _, _ => none
  | .complete stack json, token => afterValue? json stack token

def run? : Assembly → List Token → Option Assembly
  | state, [] => some state
  | state, token :: rest =>
    match step? state token with
    | none => none
    | some next => run? next rest

end Assembly

/-- The document of a text, at any depth. -/
def ofText? (text : String) : Option Json := do
  match ← Assembly.run? (.valueDue []) (← tokens? text) with
  | .complete [] json => return json
  | _ => none

/-- The document of a text that nests no deeper than `maxDepth`. -/
def ofShallowText? (text : String) : Option Json := do
  let json ← ofText? text
  if json.depth ≤ maxDepth then return json else none

end AnnotationMetadata.Json
