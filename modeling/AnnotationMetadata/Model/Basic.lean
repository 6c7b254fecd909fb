import AnnotationMetadata.Extension.Basic

set_option autoImplicit false

/-!
# Element models

A document declares annotation types and annotated elements of a host program. A
`Model` is a document with the options of the run. Elements are referred to by
`Element`: a declared class or class member, an annotation type, or a member of
an annotation type.
-/

namespace AnnotationMetadata

structure MemberDeclaration where
  default : Option Value := none
  annotations : List Annotation := []

structure AnnotationDeclaration where
  retention : Retention := .runtime
  /-- The container that groups repeated occurrences of the type. -/
  container : Option String := none
  members : Dict MemberDeclaration := []
  annotations : List Annotation := []

inductive ElementKind where
  | classType
  | method
  | field
  | constructor
  deriving DecidableEq

structure ElementDeclaration where
  kind : ElementKind
  declaringType : Option String := none
  supertypes : List String := []
  overrides : List String := []
  annotations : List Annotation := []
  /-- Why the host compiler gives up on reading the element, if it does. -/
  abort : Option String := none

structure Document where
  annotations : Dict AnnotationDeclaration := []
  elements : Dict ElementDeclaration := []

/-- A reference to something that can be annotated. -/
inductive Element where
  | declaration (name : String)
  | annotationType (name : String)
  | member (owner : String) (member : String)
  deriving DecidableEq

structure Model where
  document : Document := {}
  visitorOptions : VisitorOptions := []

def ElementKind.text : ElementKind → String
  | .classType => "class"
  | .method => "method"
  | .field => "field"
  | .constructor => "constructor"

/-- The name under which a build of the element is reported. -/
def Element.name : Element → String
  | .declaration name => name
  | .annotationType name => name
  | .member _ memberName => memberName

/-- The name under which diagnostics are reported. -/
def Element.label : Element → String
  | .declaration name => name
  | .annotationType name => name
  | .member owner memberName => owner ++ "." ++ memberName

end AnnotationMetadata
