import AnnotationMetadata.Value.Draft

set_option autoImplicit false

/-!
# Interceptor bindings

An annotation type that carries an interception annotation is bound to an
interceptor. The binding is made from the meta-annotations of the type: its kind
from the first interception annotation, its members from the declared bindings,
its interceptor from the last annotation that names one.
-/

namespace AnnotationMetadata.Interception

/-- The kind of binding that a meta-annotation starts. -/
def kind? (name : String) : Option String :=
  if name = Name.around ∨ name = Name.interceptorBinding then some "AROUND"
  else if name = Name.introduction then some "INTRODUCTION"
  else none

/-- The interceptor that a meta-annotation names. -/
def interceptor? (meaning : String × Members) : Option ClassRef :=
  if meaning.1 = Name.interceptorType then
    (Dict.get? meaning.2 Name.valueMember).bind Value.firstClass?
  else none

/-- The binding that a type starts with. -/
def start (owner kind : String) : Annotation :=
  { name := Name.interceptorBinding
    members :=
      [(Name.valueMember, .classRef { name := owner }), (Name.kindMember, .string kind)] }

/-- Adds the members of the bindings declared among the meta-annotations. -/
def withDeclared (binding : Annotation) (metas : List (String × Members)) : Annotation :=
  (metas.filter fun entry => entry.1 == Name.interceptorBinding).foldl
    (fun result entry => result.withMembers entry.2) binding

/-- The binding of a type, given the meta-annotations that were read from it. -/
def binding? (owner : String) (metas : List (String × Members)) : Option Annotation :=
  (metas.findSome? fun entry => kind? entry.1).map fun kind =>
    let declared := withDeclared (start owner kind) metas
    match (metas.filterMap interceptor?).getLast? with
    | some interceptor => declared.withMember Name.interceptorTypeMember (.classRef interceptor)
    | none => declared

end AnnotationMetadata.Interception
