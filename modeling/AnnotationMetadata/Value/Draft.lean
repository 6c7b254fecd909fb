import AnnotationMetadata.Value.Basic

set_option autoImplicit false

/-!
# Drafting annotations

An annotation is drafted from its name by setting members and adding
stereotypes. Every step returns an annotation that could be used as it is.
-/

namespace AnnotationMetadata.Annotation

def withMember (draft : Annotation) (member : String) (value : Value) : Annotation :=
  { draft with members := Dict.insert draft.members member value }

/-- Sets every given member; present members of the same name are replaced. -/
def withMembers (draft : Annotation) (members : Members) : Annotation :=
  { draft with members := Dict.overlay draft.members members }

/-- Sets the member `value` to the given annotations. -/
def withAnnotations (draft : Annotation) (annotations : List Annotation) : Annotation :=
  draft.withMember Name.valueMember (.ofAnnotations annotations)

def withRetention (draft : Annotation) (retention : Retention) : Annotation :=
  { draft with retention := retention }

def withStereotype (draft stereotype : Annotation) : Annotation :=
  { draft with stereotypes := draft.stereotypes ++ [stereotype] }

end AnnotationMetadata.Annotation
