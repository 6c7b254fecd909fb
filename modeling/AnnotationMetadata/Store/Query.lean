import AnnotationMetadata.Store.Basic

set_option autoImplicit false

/-!
# Asking a store

An annotation is present when it is recorded as an annotation; it is present as
a stereotype when it is recorded as either. Values come from annotations before
stereotypes, and from declared defaults last.
-/

namespace AnnotationMetadata.Store

/-! ## Presence -/

def hasAnnotation (store : Store) (name : String) : Bool :=
  Dict.contains store.annotations name

def hasDeclaredAnnotation (store : Store) (name : String) : Bool :=
  Dict.contains store.declaredAnnotations name

def hasStereotype (store : Store) (name : String) : Bool :=
  Dict.contains store.annotations name || Dict.contains store.stereotypes name

def hasDeclaredStereotype (store : Store) (name : String) : Bool :=
  Dict.contains store.declaredAnnotations name || Dict.contains store.declaredStereotypes name

def annotationNames (store : Store) : List String :=
  Dict.keys store.annotations

def declaredAnnotationNames (store : Store) : List String :=
  Dict.keys store.declaredAnnotations

def stereotypeNames (store : Store) : List String :=
  Dict.keys store.stereotypes

def declaredStereotypeNames (store : Store) : List String :=
  Dict.keys store.declaredStereotypes

/-- The annotations through which a stereotype was reached. An annotation that
was not reached through another one stands for itself. -/
def namesByStereotype (store : Store) (stereotype : String) : List String :=
  match Dict.get? store.parents stereotype with
  | some names => names
  | none => if store.hasAnnotation stereotype then [stereotype] else []

/-! ## Values -/

def values? (store : Store) (name : String) : Option Members :=
  (Dict.get? store.annotations name).or (Dict.get? store.stereotypes name)

def declaredValues? (store : Store) (name : String) : Option Members :=
  (Dict.get? store.declaredAnnotations name).or (Dict.get? store.declaredStereotypes name)

def defaultValues? (store : Store) (name : String) : Option Members :=
  Dict.get? store.defaults name

def defaultValue? (store : Store) (name member : String) : Option Value :=
  (store.defaultValues? name).bind (Dict.get? · member)

def value? (store : Store) (name member : String) : Option Value :=
  ((store.values? name).bind (Dict.get? · member)).or (store.defaultValue? name member)

def nameOf? (store : Store) (name member : String) : Option String :=
  (store.value? name member).bind Value.name?

/-! ## Occurrences -/

def containerOf? (store : Store) (name : String) : Option String :=
  Dict.get? store.containers name

/-- The occurrences of an annotation in the group of a container. -/
def groupedIn (table : Dict Members) (container name : String) : List Annotation :=
  match Dict.get? table container with
  | none => []
  | some members =>
    match Dict.get? members Name.valueMember with
    | none => []
    | some value => value.annotations.filter fun occurrence => occurrence.name == name

/-- The occurrences of an annotation: those of its group, or the single one. -/
def occurrencesIn (store : Store) (annotations stereotypes : Dict Members) (name : String) :
    List Annotation :=
  match store.containerOf? name with
  | some container => groupedIn annotations container name ++ groupedIn stereotypes container name
  | none =>
    match (Dict.get? annotations name).or (Dict.get? stereotypes name) with
    | some members => [{ name, members }]
    | none => []

def occurrences (store : Store) (name : String) : List Annotation :=
  store.occurrencesIn store.annotations store.stereotypes name

def declaredOccurrences (store : Store) (name : String) : List Annotation :=
  store.occurrencesIn store.declaredAnnotations store.declaredStereotypes name

/-! ## Default scope -/

/-- A declared default scope becomes a declared annotation unless the element
declares a scope. -/
def promoteDefaultScope (store : Store) : Store :=
  if store.hasDeclaredStereotype Name.scope || !store.hasDeclaredStereotype Name.defaultScope then
    store
  else
    match store.nameOf? Name.defaultScope Name.valueMember with
    | some scope => store.addAnnotation true scope [] .runtime
    | none => store

end AnnotationMetadata.Store
