import AnnotationMetadata.Value.Basic

set_option autoImplicit false

/-!
# Metadata stores

A `Store` holds the annotation data of one element: its annotations and the
meta-annotations reached from them (its stereotypes), each once in full and once
restricted to what the element declares itself. Writing an annotation replaces
members that are present, writing a stereotype keeps them.
-/

namespace AnnotationMetadata

structure Store where
  declaredAnnotations : Dict Members := []
  annotations : Dict Members := []
  declaredStereotypes : Dict Members := []
  stereotypes : Dict Members := []
  /-- The annotations through which each stereotype was reached. -/
  parents : Dict (List String) := []
  /-- The container of each annotation that was added to a group. -/
  containers : Dict String := []
  defaults : Dict Members := []
  /-- The annotations that are not kept beyond source. -/
  sourceOnly : List String := []

namespace Store

def empty : Store := {}

/-- Nothing but defaults is recorded. -/
def isEmpty (store : Store) : Bool :=
  store.annotations.isEmpty && store.stereotypes.isEmpty

/-! ## Merging members -/

/-- Sets members of an annotation; given values replace present ones. -/
def setMembers (table : Dict Members) (name : String) (members : Members) : Dict Members :=
  Dict.alter table name [] fun present => Dict.overlay present members

/-- Adds members of an annotation; present values are kept. -/
def addMembers (table : Dict Members) (name : String) (members : Members) : Dict Members :=
  Dict.alter table name [] fun present => Dict.underlay present members

/-- The items that a group holds. A value that is no array is its only item. -/
def groupItems : Option Value → List Value
  | none => []
  | some (.array items) => items
  | some value => [value]

/-- Adds an occurrence to the group of a container unless an agreeing one is
there. -/
def addToGroup (table : Dict Members) (container : String) (occurrence : Annotation) :
    Dict Members :=
  Dict.alter table container [] fun members =>
    let items := groupItems (Dict.get? members Name.valueMember)
    Dict.insert members Name.valueMember
      (.array (Value.insertUnlisted items (.nested occurrence)))

/-! ## Indexes -/

/-- Remembers that a stereotype was reached through the given annotations. -/
def indexStereotype (store : Store) (parents : List String) (stereotype : String) : Store :=
  if parents.isEmpty then store
  else
    { store with
      parents := Dict.alter store.parents stereotype [] fun present =>
        unionInOrder present parents }

def trackRetention (store : Store) (name : String) (retention : Retention) : Store :=
  if retention = .source then { store with sourceOnly := insertUnlisted store.sourceOnly name }
  else store

/-- Remembers the container of an occurrence; the first one is kept. -/
def trackContainer (store : Store) (container : String) (occurrence : Annotation) : Store :=
  trackRetention
    { store with containers := Dict.insertNew store.containers occurrence.name container }
    container occurrence.retention

/-! ## Writing -/

def addAnnotation (store : Store) (declared : Bool) (name : String) (members : Members)
    (retention : Retention) : Store :=
  trackRetention
    { store with
      declaredAnnotations :=
        if declared then setMembers store.declaredAnnotations name members
        else store.declaredAnnotations
      annotations := setMembers store.annotations name members }
    name retention

/-- Records a stereotype that was reached through the given annotations. -/
def addStereotype (store : Store) (declared : Bool) (parents : List String) (name : String)
    (members : Members) (retention : Retention) : Store :=
  trackRetention
    (indexStereotype
      { store with
        declaredStereotypes :=
          if declared then addMembers store.declaredStereotypes name members
          else store.declaredStereotypes
        stereotypes := addMembers store.stereotypes name members }
      parents name)
    name retention

/-- Records an occurrence of a repeatable annotation under its container. -/
def addOccurrence (store : Store) (declared : Bool) (container : String)
    (occurrence : Annotation) : Store :=
  let tracked := trackContainer store container occurrence
  { tracked with
    declaredAnnotations :=
      if declared then addToGroup tracked.declaredAnnotations container occurrence
      else tracked.declaredAnnotations
    annotations := addToGroup tracked.annotations container occurrence }

/-- Records an occurrence of a repeatable stereotype under its container. -/
def addStereotypeOccurrence (store : Store) (declared : Bool) (parents : List String)
    (container : String) (occurrence : Annotation) : Store :=
  let tracked := indexStereotype (trackContainer store container occurrence) parents container
  { tracked with
    declaredStereotypes :=
      if declared then addToGroup tracked.declaredStereotypes container occurrence
      else tracked.declaredStereotypes
    stereotypes := addToGroup tracked.stereotypes container occurrence }

/-- Records default values of members; the first default of a member is kept. -/
def addDefaults (store : Store) (name : String) (members : Members) : Store :=
  { store with defaults := addMembers store.defaults name members }

inductive Write where
  | direct (declared : Bool) (name : String) (members : Members) (retention : Retention)
  | stereotype (declared : Bool) (parents : List String) (name : String) (members : Members)
      (retention : Retention)
  | occurrence (declared : Bool) (container : String) (occurrence : Annotation)
  | stereotypeOccurrence (declared : Bool) (parents : List String) (container : String)
      (occurrence : Annotation)
  | defaults (name : String) (members : Members)

def write (store : Store) : Write → Store
  | .direct declared name members retention =>
    store.addAnnotation declared name members retention
  | .stereotype declared parents name members retention =>
    store.addStereotype declared parents name members retention
  | .occurrence declared container occurrence => store.addOccurrence declared container occurrence
  | .stereotypeOccurrence declared parents container occurrence =>
    store.addStereotypeOccurrence declared parents container occurrence
  | .defaults name members => store.addDefaults name members

/-! ## Layering -/

/-- Adds every entry of a table under a present one. -/
def addTable (table other : Dict Members) : Dict Members :=
  other.foldl (fun result entry => addMembers result entry.1 entry.2) table

/-- Adds every list of a table, skipping what is listed. -/
def addParents (table other : Dict (List String)) : Dict (List String) :=
  other.foldl
    (fun result entry => Dict.alter result entry.1 [] fun present => unionInOrder present entry.2)
    table

/-- Layers another store under this one. What it declares is added to what this
one declares only when asked for. -/
def absorb (store other : Store) (keepDeclared : Bool) : Store where
  declaredAnnotations :=
    if keepDeclared then addTable store.declaredAnnotations other.declaredAnnotations
    else store.declaredAnnotations
  annotations := addTable store.annotations other.annotations
  declaredStereotypes :=
    if keepDeclared then addTable store.declaredStereotypes other.declaredStereotypes
    else store.declaredStereotypes
  stereotypes := addTable store.stereotypes other.stereotypes
  parents := addParents store.parents other.parents
  containers := Dict.underlay store.containers other.containers
  defaults := addTable store.defaults other.defaults
  sourceOnly := unionInOrder store.sourceOnly other.sourceOnly

end Store

end AnnotationMetadata
