import AnnotationMetadata.Json.Reader
import AnnotationMetadata.Proofs.Json.Numbers
import Mathlib.Data.List.Forall2

set_option autoImplicit false

/-!
# Reading written documents

A document that says something in each of its parts is read back from its compact text.
The text is scanned into the tokens of the document, and these are assembled into it.
-/

namespace AnnotationMetadata

/-- The digits of the number read back as the number. -/
def Double.ReadsBack (x : Double) : Prop :=
  (Literal.ofChars? x.toText.toList).map Literal.numeral = some (.double x)

namespace Json

mutual

/-- Integers are in the range of 64-bit words, the digits of numbers read back, and nothing
is without meaning. -/
def Legible : Json → Prop
  | .null | .bool _ | .string _ => True
  | .integer value => -(Nat.pow 2 63 : Nat) ≤ value ∧ value < (Nat.pow 2 64 : Nat)
  | .double value => value.ReadsBack
  | .array items => LegibleItems items
  | .object fields => LegibleFields fields
  | .meaningless => False

def LegibleItems : List Json → Prop
  | [] => True
  | item :: rest => item.Legible ∧ LegibleItems rest

def LegibleFields : List (String × Json) → Prop
  | [] => True
  | (_, value) :: rest => value.Legible ∧ LegibleFields rest

end

/-! ## Tokens of documents -/

mutual

/-- The tokens that a document is written with. -/
def tokens : Json → List Token
  | .null | .meaningless => [.scalar .null]
  | .bool value => [.scalar (.bool value)]
  | .integer value => [.scalar (.integer value)]
  | .double value => [.scalar (.double value)]
  | .string value => [.text (some value)]
  | .array items =>
    .openArray :: ([Token.comma].intercalate (tokensOfItems items) ++ [.closeArray])
  | .object fields =>
    .openObject :: ([Token.comma].intercalate (tokensOfFields fields) ++ [.closeObject])

def tokensOfItems : List Json → List (List Token)
  | [] => []
  | item :: rest => item.tokens :: tokensOfItems rest

def tokensOfFields : List (String × Json) → List (List Token)
  | [] => []
  | (name, value) :: rest => (.text (some name) :: .colon :: value.tokens) :: tokensOfFields rest

end

private theorem punctuates_openArray : Punctuates '[' .openArray := ⟨rfl, rfl, rfl⟩

private theorem punctuates_closeArray : Punctuates ']' .closeArray := ⟨rfl, rfl, rfl⟩

private theorem punctuates_openObject : Punctuates '{' .openObject := ⟨rfl, rfl, rfl⟩

private theorem punctuates_closeObject : Punctuates '}' .closeObject := ⟨rfl, rfl, rfl⟩

private theorem punctuates_comma : Punctuates ',' .comma := ⟨rfl, rfl, rfl⟩

private theorem punctuates_colon : Punctuates ':' .colon := ⟨rfl, rfl, rfl⟩

private theorem toList_brackets (inner : String) :
    (brackets inner).toList = '[' :: (inner.toList ++ [']']) := by
  simp [brackets]

private theorem toList_braces (inner : String) :
    (braces inner).toList = '{' :: (inner.toList ++ ['}']) := by
  simp [braces]

theorem Spells.separated {texts : List String} {parts : List (List Token)}
    (spells : List.Forall₂ (fun text tokens => Spells text.toList tokens) texts parts) :
    Spells (String.intercalate "," texts).toList ([Token.comma].intercalate parts) := by
  rw [String.toList_intercalate]
  induction spells with
  | nil => exact .nil
  | @cons text tokens texts parts first others ih =>
    cases others with
    | nil =>
      rw [List.map_cons, List.map_nil, List.intercalate_singleton, List.intercalate_singleton]
      exact first
    | cons second others =>
      rw [List.map_cons, List.map_cons, List.intercalate_cons_cons, List.intercalate_cons_cons,
        List.append_assoc, List.append_assoc]
      exact first.punctuated punctuates_comma ih

/-- What is enclosed in brackets or braces spells its tokens between those of the marks. -/
theorem Spells.enclosed {text : List Char} {tokens : List Token} (inner : Spells text tokens)
    {first last : Char} {opening closing : Token} (opens : Punctuates first opening)
    (closes : Punctuates last closing) :
    Spells (first :: (text ++ [last])) (opening :: (tokens ++ [closing])) :=
  Spells.nil.punctuated opens (inner.punctuated closes .nil)

mutual

theorem spells_compact : (json : Json) → json.Legible → Spells json.compact.toList json.tokens
  | .null, _ => spells_null
  | .bool true, _ => spells_true
  | .bool false, _ => spells_false
  | .integer value, ⟨least, most⟩ => spells_number (Literal.ofNumber?_integerText least most)
  | .double value, readsBack => by
    obtain ⟨literal, read, numeral⟩ := Option.map_eq_some_iff.mp readsBack
    refine spells_number ?_
    rw [compact, ofNumber?, read]
    simp [numeral]
  | .string value, _ => spells_quote value
  | .array items, legible => by
    rw [compact, toList_brackets]
    exact (Spells.separated (spells_items items legible)).enclosed punctuates_openArray
      punctuates_closeArray
  | .object fields, legible => by
    rw [compact, toList_braces]
    exact (Spells.separated (spells_fields fields legible)).enclosed punctuates_openObject
      punctuates_closeObject

theorem spells_items : (items : List Json) → LegibleItems items →
    List.Forall₂ (fun text tokens => Spells text.toList tokens) (compactItems items)
      (tokensOfItems items)
  | [], _ => .nil
  | item :: rest, ⟨first, others⟩ => .cons (spells_compact item first) (spells_items rest others)

theorem spells_fields : (fields : List (String × Json)) → LegibleFields fields →
    List.Forall₂ (fun text tokens => Spells text.toList tokens) (compactFields fields)
      (tokensOfFields fields)
  | [], _ => .nil
  | (name, value) :: rest, ⟨first, others⟩ => by
    refine .cons ?_ (spells_fields rest others)
    have colon : (quote name ++ ":" ++ value.compact).toList =
        (quote name).toList ++ ':' :: value.compact.toList := by
      simp
    rw [colon]
    exact (spells_quote name).punctuated punctuates_colon (spells_compact value first)

end

private theorem tokens?_compact {json : Json} (legible : json.Legible) :
    tokens? json.compact = some json.tokens :=
  tokens?_of_spells (spells_compact json legible)

/-! ## Assembling tokens -/

namespace Assembly

theorem run?_append (state : Assembly) (first second : List Token) :
    run? state (first ++ second) = (run? state first).bind (run? · second) := by
  induction first generalizing state with
  | nil => rfl
  | cons token rest ih =>
    rw [List.cons_append, run?, run?]
    cases step? state token with
    | none => rfl
    | some next => exact ih next

theorem exists_intercalate_cons (separator first : List Token) (others : List (List Token)) :
    ∃ more, separator.intercalate (first :: others) = first ++ more := by
  cases others with
  | nil => exact ⟨[], by rw [List.intercalate_singleton, List.append_nil]⟩
  | cons second rest =>
    exact ⟨_, by rw [List.intercalate_cons_cons, List.append_assoc]⟩

/-- Where an array may be closed, its items are read as where the first one is due. -/
private theorem run?_valueOrCloseDue (item : Json) (rest : List Json) (stack : List Frame) :
    run? (.valueOrCloseDue stack)
        ([Token.comma].intercalate (tokensOfItems (item :: rest)) ++ [.closeArray]) =
      run? (.valueDue (.array [] :: stack))
        ([Token.comma].intercalate (tokensOfItems (item :: rest)) ++ [.closeArray]) := by
  obtain ⟨more, same⟩ := exists_intercalate_cons [.comma] item.tokens (tokensOfItems rest)
  rw [tokensOfItems, same]
  cases item <;> rfl

/-- Where an object may be closed, its fields are read as where the first name is due. -/
private theorem run?_nameOrCloseDue (field : String × Json) (rest : List (String × Json))
    (stack : List Frame) :
    run? (.nameOrCloseDue stack)
        ([Token.comma].intercalate (tokensOfFields (field :: rest)) ++ [.closeObject]) =
      run? (.nameDue stack [])
        ([Token.comma].intercalate (tokensOfFields (field :: rest)) ++ [.closeObject]) := by
  obtain ⟨more, same⟩ := exists_intercalate_cons [.comma]
    (.text (some field.1) :: .colon :: field.2.tokens) (tokensOfFields rest)
  rw [tokensOfFields, same]
  rfl

/-- The tokens are read as the document wherever a value is due. -/
def Reads (json : Json) : Prop :=
  ∀ stack, run? (.valueDue stack) json.tokens = some (.complete stack json)

private theorem run?_items {items : List Json} (reads : ∀ item ∈ items, Reads item)
    (some : items ≠ []) (stack : List Frame) (done : List Json) :
    run? (.valueDue (.array done :: stack))
        ([Token.comma].intercalate (tokensOfItems items) ++ [.closeArray]) =
      .some (.complete stack (.array (done.reverse ++ items))) := by
  induction items generalizing done with
  | nil => exact absurd rfl some
  | cons item rest ih =>
    obtain ⟨first, others⟩ := List.forall_mem_cons.mp reads
    cases rest with
    | nil =>
      rw [tokensOfItems, tokensOfItems, List.intercalate_singleton, run?_append, first]
      simp [run?, step?, afterValue?]
    | cons next rest =>
      rw [tokensOfItems, tokensOfItems, List.intercalate_cons_cons, List.append_assoc,
        List.append_assoc, run?_append, first]
      have onward := ih others (List.cons_ne_nil _ _) (item :: done)
      rw [List.reverse_cons, List.append_assoc] at onward
      exact onward

/-- A field with a name that has a meaning. -/
def named (field : String × Json) : Option String × Json :=
  (some field.1, field.2)

private theorem closeObject_named (fields : List (String × Json)) :
    closeObject (fields.map named).reverse = .object fields := by
  have meant : (fields.map named).mapM (fun field => field.1.map fun name => (name, field.2)) =
      some fields := by
    induction fields with
    | nil => rfl
    | cons field rest ih =>
      rw [List.map_cons, List.mapM_cons, ih]
      rfl
  rw [closeObject, List.reverse_reverse, meant]

private theorem run?_fields {fields : List (String × Json)}
    (reads : ∀ field ∈ fields, Reads field.2)
    (some : fields ≠ []) (stack : List Frame) (done : List (Option String × Json)) :
    run? (.nameDue stack done)
        ([Token.comma].intercalate (tokensOfFields fields) ++ [.closeObject]) =
      .some (.complete stack (closeObject ((fields.map named).reverse ++ done))) := by
  induction fields generalizing done with
  | nil => exact absurd rfl some
  | cons field rest ih =>
    obtain ⟨first, others⟩ := List.forall_mem_cons.mp reads
    obtain ⟨name, value⟩ := field
    have own : run? (.nameDue stack done) (.text (.some name) :: .colon :: value.tokens) =
        .some (.complete (.object done (.some name) :: stack) value) :=
      first _
    cases rest with
    | nil =>
      rw [tokensOfFields, tokensOfFields, List.intercalate_singleton, run?_append, own]
      rfl
    | cons next rest =>
      rw [tokensOfFields, tokensOfFields, List.intercalate_cons_cons, List.append_assoc,
        List.append_assoc, run?_append, own]
      have onward := ih others (List.cons_ne_nil _ _) (named (name, value) :: done)
      rw [List.map_cons, List.reverse_cons, List.append_assoc]
      exact onward

mutual

theorem reads_of_legible : (json : Json) → json.Legible → Reads json
  | .null, _ | .bool _, _ | .integer _, _ | .double _, _ | .string _, _ => fun _ => rfl
  | .array items, legible => by
    intro stack
    have reads := reads_items items legible
    cases items with
    | nil => rfl
    | cons item rest =>
      exact (run?_valueOrCloseDue item rest stack).trans
        (run?_items reads (List.cons_ne_nil _ _) stack [])
  | .object fields, legible => by
    intro stack
    have reads := reads_fields fields legible
    cases fields with
    | nil => rfl
    | cons field rest =>
      have whole := run?_fields reads (List.cons_ne_nil _ _) stack []
      rw [List.append_nil, closeObject_named] at whole
      exact (run?_nameOrCloseDue field rest stack).trans whole

theorem reads_items : (items : List Json) → LegibleItems items → ∀ item ∈ items, Reads item
  | [], _ => fun _ none => nomatch none
  | item :: rest, ⟨first, others⟩ =>
    List.forall_mem_cons.mpr ⟨reads_of_legible item first, reads_items rest others⟩

theorem reads_fields : (fields : List (String × Json)) → LegibleFields fields →
    ∀ field ∈ fields, Reads field.2
  | [], _ => fun _ none => nomatch none
  | (_, value) :: rest, ⟨first, others⟩ =>
    List.forall_mem_cons.mpr ⟨reads_of_legible value first, reads_fields rest others⟩

end

end Assembly

/-! ## Documents -/

private theorem ofText?_compact {json : Json} (legible : json.Legible) :
    ofText? json.compact = some json := by
  rw [ofText?, tokens?_compact legible]
  have assembled := Assembly.reads_of_legible json legible []
  simp [assembled]

/-- A legible document that does not nest too deep is read back from its text. -/
theorem ofShallowText?_compact {json : Json} (legible : json.Legible)
    (shallow : json.depth ≤ maxDepth) : ofShallowText? json.compact = some json := by
  rw [ofShallowText?, ofText?_compact legible]
  exact if_pos shallow

end Json

end AnnotationMetadata
