import AnnotationMetadata.Store.Query

set_option autoImplicit false

/-!
# Metadata of an element

Metadata is empty, a store, inherited metadata under a declared part, or a
reference to the metadata of another class. `Metadata.layers` lists its stores,
the most specific one first; queries go through them in this order. A snapshot
flattens the layers into one store.
-/

namespace AnnotationMetadata

inductive Metadata where
  | empty
  | store (data : Store)
  /-- What is inherited, under what is declared. -/
  | hierarchy (parent declared : Metadata)
  | reference (className : String) (target : Metadata)

namespace Metadata

/-- The metadata of a store; a store that records nothing is empty metadata. -/
def ofStore (data : Store) : Metadata :=
  if data.isEmpty then .empty else .store data

/-- The stores of all layers, the most specific one first. -/
def layers : Metadata → List Store
  | .empty => []
  | .store data => [data]
  | .hierarchy parent declared => declared.layers ++ parent.layers
  | .reference _ target => target.layers

/-- The store of what the element declares itself. -/
def declaredPart? : Metadata → Option Store
  | .empty => none
  | .store data => some data
  | .hierarchy _ declared => declared.declaredPart?
  | .reference _ target => target.declaredPart?

/-- All layers in one store. Only the declared layer counts as declared. -/
def snapshot : Metadata → Store
  | .empty => .empty
  | .store data => data
  | .hierarchy parent declared => declared.snapshot.absorb parent.snapshot false
  | .reference _ target => target.snapshot

/-! ## Queries -/

def isEmpty (metadata : Metadata) : Bool :=
  metadata.layers.all Store.isEmpty

def hasAnnotation (metadata : Metadata) (name : String) : Bool :=
  metadata.layers.any fun layer => layer.hasAnnotation name

def hasStereotype (metadata : Metadata) (name : String) : Bool :=
  metadata.layers.any fun layer => layer.hasStereotype name

def hasDeclaredAnnotation (metadata : Metadata) (name : String) : Bool :=
  metadata.declaredPart?.any fun part => part.hasDeclaredAnnotation name

def hasDeclaredStereotype (metadata : Metadata) (name : String) : Bool :=
  metadata.declaredPart?.any fun part => part.hasDeclaredStereotype name

/-- Names listed by any layer, each once, the most specific layer first. -/
def collectNames (metadata : Metadata) (names : Store → List String) : List String :=
  metadata.layers.foldl (fun found layer => unionInOrder found (names layer)) []

def annotationNames (metadata : Metadata) : List String :=
  metadata.collectNames Store.annotationNames

def stereotypeNames (metadata : Metadata) : List String :=
  metadata.collectNames Store.stereotypeNames

def namesByStereotype (metadata : Metadata) (stereotype : String) : List String :=
  metadata.collectNames fun layer => layer.namesByStereotype stereotype

def declaredAnnotationNames (metadata : Metadata) : List String :=
  (metadata.declaredPart?.map Store.declaredAnnotationNames).getD []

def declaredStereotypeNames (metadata : Metadata) : List String :=
  (metadata.declaredPart?.map Store.declaredStereotypeNames).getD []

/-- The members of an annotation in the first layer that has it. -/
def values? (metadata : Metadata) (name : String) : Option Members :=
  metadata.layers.findSome? fun layer => layer.values? name

/-- The value of a member in the first layer that has one. -/
def value? (metadata : Metadata) (name member : String) : Option Value :=
  metadata.layers.findSome? fun layer => layer.value? name member

def nameOf? (metadata : Metadata) (name member : String) : Option String :=
  (metadata.value? name member).bind Value.name?

def defaultValues? (metadata : Metadata) (name : String) : Option Members :=
  metadata.layers.findSome? fun layer => layer.defaultValues? name

/-- Appends an occurrence unless an agreeing one is listed. -/
def insertOccurrence (found : List Annotation) (occurrence : Annotation) : List Annotation :=
  if found.any fun present => present.agrees occurrence then found else found ++ [occurrence]

/-- The occurrences of an annotation in all layers, agreeing ones once. -/
def occurrences (metadata : Metadata) (name : String) : List Annotation :=
  metadata.layers.foldl (fun found layer => (layer.occurrences name).foldl insertOccurrence found) []

def declaredOccurrences (metadata : Metadata) (name : String) : List Annotation :=
  (metadata.declaredPart?.map fun part => part.declaredOccurrences name).getD []

end Metadata

end AnnotationMetadata
