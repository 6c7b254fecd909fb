import AnnotationMetadata.Double.Literal
import AnnotationMetadata.Json.Basic

set_option autoImplicit false

/-!
# Tokens of JSON text

Text is cut into tokens one character at a time: `Scanning` is what has been
seen of the token under way, `Scanning.step` takes in a character and returns
the tokens it completes. Strings are unescaped here.
-/

namespace AnnotationMetadata.Json

inductive Token where
  | openArray
  | closeArray
  | openObject
  | closeObject
  | comma
  | colon
  /-- A string, or nothing if it holds an unpaired surrogate. -/
  | text (content : Option String)
  /-- A number, `true`, `false` or `null`. -/
  | scalar (value : Json)

/-- The part of a string read so far. -/
structure Spelling where
  /-- The characters, last one first. -/
  reversed : List Char
  /-- A leading surrogate that still lacks its trailing one. -/
  leading : Option Nat
  /-- No surrogate was left unpaired. -/
  paired : Bool

namespace Spelling

def empty : Spelling := ⟨[], none, true⟩

/-- Appends a character. A leading surrogate before it stays unpaired. -/
def push (spelling : Spelling) (c : Char) : Spelling :=
  ⟨c :: spelling.reversed, none, spelling.paired && spelling.leading.isNone⟩

/-- Appends the 16-bit unit of a numeric escape. -/
def pushUnit (spelling : Spelling) (unit : Nat) : Spelling :=
  if 0xDC00 ≤ unit ∧ unit ≤ 0xDFFF then
    match spelling.leading with
    | some high =>
      let point := 0x10000 + (high - 0xD800) * 0x400 + (unit - 0xDC00)
      ⟨Char.ofNat point :: spelling.reversed, none, spelling.paired⟩
    | none => { spelling with paired := false }
  else if 0xD800 ≤ unit ∧ unit ≤ 0xDBFF then
    ⟨spelling.reversed, some unit, spelling.paired && spelling.leading.isNone⟩
  else spelling.push (Char.ofNat unit)

def content (spelling : Spelling) : Option String :=
  if spelling.paired && spelling.leading.isNone then some (String.ofList spelling.reversed.reverse)
  else none

end Spelling

/-- What has been seen of the token under way. -/
inductive Scanning where
  | between
  /-- Letters of `true`, `false` or `null`, last one first. -/
  | word (reversed : List Char)
  /-- Characters of a number, last one first. -/
  | number (reversed : List Char)
  | text (spelling : Spelling)
  | escape (spelling : Spelling)
  /-- Inside a numeric escape that lacks this many hexadecimal digits. -/
  | unit (spelling : Spelling) (missing : Nat) (value : Nat)

/-! ## Characters -/

def isBlank (c : Char) : Bool :=
  c == ' ' || c == '\n' || c == '\t' || c == '\r'

def isNumberChar (c : Char) : Bool :=
  c.isDigit || c == '-' || c == '+' || c == '.' || c == 'e' || c == 'E'

def hexValue? (c : Char) : Option Nat :=
  if '0' ≤ c ∧ c ≤ '9' then some (c.toNat - '0'.toNat)
  else if 'a' ≤ c ∧ c ≤ 'f' then some (c.toNat - 'a'.toNat + 10)
  else if 'A' ≤ c ∧ c ≤ 'F' then some (c.toNat - 'A'.toNat + 10)
  else none

def unescape? : Char → Option Char
  | '"' => some '"'
  | '\\' => some '\\'
  | '/' => some '/'
  | 'b' => some '\x08'
  | 'f' => some '\x0c'
  | 'n' => some '\n'
  | 'r' => some '\r'
  | 't' => some '\t'
  | _ => none

/-! ## Steps -/

def ofWord? (letters : List Char) : Option Token :=
  if letters = ['t', 'r', 'u', 'e'] then some (.scalar (.bool true))
  else if letters = ['f', 'a', 'l', 's', 'e'] then some (.scalar (.bool false))
  else if letters = ['n', 'u', 'l', 'l'] then some (.scalar .null)
  else none

def ofNumber? (chars : List Char) : Option Token := do
  let literal ← Literal.ofChars? chars
  match literal.numeral with
  | .integer value => return .scalar (.integer value)
  | .double value => return .scalar (.double value)
  | .overflow => return .scalar .meaningless

/-- A character that stands between tokens or begins one. -/
def begin? (c : Char) : Option (Scanning × List Token) :=
  if isBlank c then some (.between, [])
  else if c = '"' then some (.text .empty, [])
  else if c.isLower then some (.word [c], [])
  else if c = '-' ∨ c.isDigit then some (.number [c], [])
  else
    match c with
    | '[' => some (.between, [.openArray])
    | ']' => some (.between, [.closeArray])
    | '{' => some (.between, [.openObject])
    | '}' => some (.between, [.closeObject])
    | ',' => some (.between, [.comma])
    | ':' => some (.between, [.colon])
    | _ => none

/-- A character that follows a completed token. -/
def completing? (token : Option Token) (c : Char) : Option (Scanning × List Token) := do
  let done ← token
  let (next, tokens) ← begin? c
  return (next, done :: tokens)

def Scanning.step? : Scanning → Char → Option (Scanning × List Token)
  | .between, c => begin? c
  | .word reversed, c =>
    if c.isLower then some (.word (c :: reversed), [])
    else completing? (ofWord? reversed.reverse) c
  | .number reversed, c =>
    if isNumberChar c then some (.number (c :: reversed), [])
    else completing? (ofNumber? reversed.reverse) c
  | .text spelling, c =>
    if c = '"' then some (.between, [.text spelling.content])
    else if c = '\\' then some (.escape spelling, [])
    else if c.toNat < 0x20 then none
    else some (.text (spelling.push c), [])
  | .escape spelling, c =>
    if c = 'u' then some (.unit spelling 4 0, [])
    else (unescape? c).map fun plain => (.text (spelling.push plain), [])
  | .unit spelling missing value, c => do
    let digit ← hexValue? c
    let value := value * 16 + digit
    if missing ≤ 1 then return (.text (spelling.pushUnit value), [])
    else return (.unit spelling (missing - 1) value, [])

def Scanning.finish? : Scanning → Option (List Token)
  | .between => some []
  | .word reversed => (ofWord? reversed.reverse).map fun token => [token]
  | .number reversed => (ofNumber? reversed.reverse).map fun token => [token]
  | _ => none

/-- Scans the rest of a text; `found` holds the tokens so far, last one first. -/
def scan? : Scanning → List Token → List Char → Option (List Token)
  | state, found, [] => state.finish?.map fun last => found.reverse ++ last
  | state, found, c :: rest =>
    match state.step? c with
    | none => none
    | some (next, tokens) => scan? next (tokens.reverse ++ found) rest

def tokens? (text : String) : Option (List Token) :=
  scan? .between [] text.toList

end AnnotationMetadata.Json
