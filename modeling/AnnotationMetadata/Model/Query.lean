import AnnotationMetadata.Diagnostic
import AnnotationMetadata.Model.Basic

set_option autoImplicit false

/-!
# Looking things up in a model

The annotations present on an element, with containers unwrapped into the
occurrences they group, and what annotation types declare about themselves and
their members.
-/

namespace AnnotationMetadata.Model

/-! ## Declarations -/

def declaration? (model : Model) (name : String) : Option ElementDeclaration :=
  Dict.get? model.document.elements name

def annotationType? (model : Model) (name : String) : Option AnnotationDeclaration :=
  Dict.get? model.document.annotations name

def memberDeclaration? (model : Model) (owner member : String) :
    Option MemberDeclaration := do
  Dict.get? (← model.annotationType? owner).members member

def element? (model : Model) (name : String) : Option Element :=
  (model.declaration? name).map fun _ => .declaration name

def elementNames (model : Model) : List String :=
  Dict.keys model.document.elements

def annotationElement? (model : Model) (name : String) : Option Element :=
  (model.annotationType? name).map fun _ => .annotationType name

def member? (model : Model) : Element → String → Option Element
  | .annotationType annotation, member =>
    (model.memberDeclaration? annotation member).map fun _ => .member annotation member
  | _, _ => none

def kind? (model : Model) : Element → Option ElementKind
  | .declaration name => (model.declaration? name).map ElementDeclaration.kind
  | _ => none

/-- Annotation types and their members count as classes and methods. -/
def isMethodOrClass (model : Model) : Element → Bool
  | .declaration name =>
    match model.kind? (.declaration name) with
    | none => false
    | some .field => false
    | some _ => true
  | _ => true

/-- The type that declares an element; a class declares itself. -/
def declaringType (model : Model) : Element → String
  | .declaration name => ((model.declaration? name).bind (·.declaringType)).getD name
  | .annotationType name => name
  | .member annotation _ => annotation

/-! ## Annotations of an element -/

/-- The annotations as they are written on an element. -/
def writtenOn (model : Model) : Element → List Annotation
  | .declaration name =>
    ((model.declaration? name).map ElementDeclaration.annotations).getD []
  | .annotationType name =>
    ((model.annotationType? name).map AnnotationDeclaration.annotations).getD []
  | .member annotation member =>
    ((model.memberDeclaration? annotation member).map MemberDeclaration.annotations).getD []

/-- Whether some annotation type is grouped under the name. -/
def isContainer (model : Model) (name : String) : Bool :=
  model.document.annotations.any fun entry => entry.2.container == some name

/-- What an annotation stands for: itself, or the occurrences that a container
groups. -/
def unwrap (model : Model) (occurrence : Annotation) : List Annotation :=
  if model.isContainer occurrence.name then
    ((occurrence.value? Name.valueMember).map Value.annotations).getD []
  else [occurrence]

/-- The occurrences on an element, containers unwrapped. -/
def occurrencesOn (model : Model) (element : Element) : List Annotation :=
  (model.writtenOn element).flatMap model.unwrap

/-- Reads the occurrences on an element. Only a declaration can be unknown or
break off the host compiler. -/
def read (model : Model) (element : Element) : Except ModelError (List Annotation) :=
  match element with
  | .declaration name =>
    match model.declaration? name with
    | none => .error (.failure ("unknown element " ++ name))
    | some declaration =>
      match declaration.abort with
      | some reason => .error (.environmentDefect reason)
      | none => .ok (model.occurrencesOn element)
  | _ => .ok (model.occurrencesOn element)

def hasAnnotation (model : Model) (element : Element) (name : String) : Bool :=
  (model.occurrencesOn element).any fun occurrence => occurrence.name == name

/-- The members of the first annotation of a name as it is written on an element. -/
def membersOn (model : Model) (element : Element) (name : String) : Members :=
  match (model.writtenOn element).find? fun annotation => annotation.name == name with
  | some annotation => annotation.members
  | none => []

/-! ## Annotation types -/

def containerOf? (model : Model) (name : String) : Option String :=
  (model.annotationType? name).bind AnnotationDeclaration.container

def retentionOf (model : Model) (name : String) : Retention :=
  ((model.annotationType? name).map AnnotationDeclaration.retention).getD .runtime

/-- The members that declare a default, with that default as it is written. -/
def writtenDefaults (model : Model) (name : String) : Members :=
  match model.annotationType? name with
  | none => []
  | some declaration =>
    declaration.members.filterMap fun entry => entry.2.default.map fun value => (entry.1, value)

/-- Whether values of the member have to be validated: a written annotation of it
is a constraint. -/
def requiresValidation (model : Model) (member : Element) : Bool :=
  (model.writtenOn member).any fun annotation =>
    (model.writtenOn (.annotationType annotation.name)).any fun marker =>
      marker.name == Name.constraint

def describe (model : Model) (hasValidator : Bool) : String :=
  "InMemoryElementModel \x7b annotations: " ++ toString model.document.annotations.length ++
    ", elements: " ++ toString model.document.elements.length ++
    ", has_validator: " ++ (if hasValidator then "true" else "false") ++ ", .. \x7d"

end AnnotationMetadata.Model
