import AnnotationMetadata.Dict
import AnnotationMetadata.Double.Basic
import AnnotationMetadata.Name

set_option autoImplicit false

/-!
# Annotation values

A `Value` is a normalized member value; an `Annotation` is one occurrence of an
annotation type with the values of its members. Two values agree when they hold
the same, whatever the order of their members.
-/

namespace AnnotationMetadata

inductive Retention where
  | source
  | classFile
  | runtime
  deriving DecidableEq, Inhabited

/-- A class named in an annotation. An instantiated one stands for an object of
the class rather than for the class. -/
structure ClassRef where
  name : String
  instantiated : Bool := false
  deriving DecidableEq

structure EnumConstant where
  typeName : String
  constant : String
  deriving DecidableEq

mutual

inductive Value where
  | bool (value : Bool)
  | long (value : Int64)
  | double (value : Double)
  | string (value : String)
  | array (items : List Value)
  | classRef (value : ClassRef)
  | enumConstant (value : EnumConstant)
  | nested (value : Annotation)

/-- An occurrence of an annotation type. The stereotypes are meta-annotations
that the occurrence brings along when its type is not declared. -/
structure Annotation where
  name : String
  members : List (String × Value) := []
  retention : Retention := .runtime
  stereotypes : List Annotation := []

end

abbrev Members : Type := Dict Value

instance : Inhabited Value := ⟨.bool false⟩

instance : Inhabited Annotation := ⟨⟨"", [], .runtime, []⟩⟩

def Retention.text : Retention → String
  | .source => "SOURCE"
  | .classFile => "CLASS"
  | .runtime => "RUNTIME"

/-! ## What a value holds -/

namespace Value

def string? : Value → Option String
  | .string value => some value
  | _ => none

def bool? : Value → Option Bool
  | .bool value => some value
  | _ => none

def long? : Value → Option Int64
  | .long value => some value
  | _ => none

def classRef? : Value → Option ClassRef
  | .classRef value => some value
  | _ => none

def annotation? : Value → Option Annotation
  | .nested value => some value
  | _ => none

def items? : Value → Option (List Value)
  | .array items => some items
  | _ => none

def isArray : Value → Bool
  | .array _ => true
  | _ => false

/-- The name that a value carries: the text of a string, the name of a class or
of an enum constant, or the name carried by the only item of an array. -/
def name? : Value → Option String
  | .string value => some value
  | .classRef value => some value.name
  | .enumConstant value => some value.constant
  | .array [item] => item.name?
  | _ => none

/-- The class held directly or as the first item of an array. -/
def firstClass? : Value → Option ClassRef
  | .classRef value => some value
  | .array items => items.head?.bind classRef?
  | _ => none

/-- The annotations held directly or as items of an array. -/
def annotations : Value → List Annotation
  | .nested value => [value]
  | .array items => items.filterMap annotation?
  | _ => []

def opensPlaceholder : List Char → Bool
  | '$' :: '{' :: _ => true
  | _ :: rest => opensPlaceholder rest
  | [] => false

/-- A string that contains a placeholder has no final value yet. -/
def isPlaceholder : Value → Bool
  | .string value => opensPlaceholder value.toList
  | _ => false

def ofAnnotations (annotations : List Annotation) : Value :=
  .array (annotations.map .nested)

end Value

namespace Annotation

def value? (occurrence : Annotation) (member : String) : Option Value :=
  Dict.get? occurrence.members member

def nameOf? (occurrence : Annotation) (member : String) : Option String :=
  (occurrence.value? member).bind Value.name?

end Annotation

/-! ## Agreement -/

mutual

/-- Whether two values hold the same. Numbers of different kinds never agree. -/
def Value.agrees : Value → Value → Bool
  | .bool a, .bool b => a == b
  | .long a, .long b => a == b
  | .double a, .double b => a.sameNumber b
  | .string a, .string b => a == b
  | .array a, .array b => Value.itemsAgree a b
  | .classRef a, .classRef b => a == b
  | .enumConstant a, .enumConstant b => a == b
  | .nested a, .nested b => a.agrees b
  | _, _ => false

def Value.itemsAgree : List Value → List Value → Bool
  | [], [] => true
  | a :: as, b :: bs => a.agrees b && Value.itemsAgree as bs
  | _, _ => false

/-- Whether two annotations hold the same; the order of members is ignored. -/
def Annotation.agrees : Annotation → Annotation → Bool
  | ⟨name, members, retention, stereotypes⟩, other =>
    name == other.name && retention == other.retention &&
    members.length == other.members.length && Value.membersWithin [] members other.members &&
    Annotation.allAgree stereotypes other.stereotypes

/-- Whether each member is in the other map with a value that agrees. A member
that is hidden by an earlier one of its name is passed over. -/
def Value.membersWithin (hidden : List String) :
    List (String × Value) → List (String × Value) → Bool
  | [], _ => true
  | (member, value) :: rest, other =>
    (hidden.contains member ||
      match Dict.get? other member with
      | some found => value.agrees found
      | none => false) && Value.membersWithin (member :: hidden) rest other

def Annotation.allAgree : List Annotation → List Annotation → Bool
  | [], [] => true
  | a :: as, b :: bs => a.agrees b && Annotation.allAgree as bs
  | _, _ => false

end

/-- Appends an item unless an agreeing one is listed. -/
def Value.insertUnlisted (items : List Value) (item : Value) : List Value :=
  if items.any fun present => present.agrees item then items else items ++ [item]

end AnnotationMetadata
