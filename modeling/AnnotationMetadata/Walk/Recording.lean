import AnnotationMetadata.Config.Basic
import AnnotationMetadata.Model.Alias
import AnnotationMetadata.Store.Query

set_option autoImplicit false

/-!
# What a walk records

Building metadata walks over annotations and their meta-annotations. A walk is a
function of its context alone; it returns the list of everything it records, a
`Trace`, and looks at no store. The store of an element is made by carrying out
the writes of its trace in order.
-/

namespace AnnotationMetadata

structure Context where
  model : Model
  config : Config := {}
  registry : Registry := .empty

/-- A member value that was read from an occurrence on an element. -/
structure ReadValue where
  originating : Element
  annotation : String
  member : String
  value : Value

def ReadValue.element (read : ReadValue) : Element :=
  .member read.annotation read.member

inductive Recording where
  | write (write : Store.Write)
  | warning (element : Element) (message : String)
  /-- A member value was read and may have to be validated. -/
  | read (value : ReadValue)
  /-- A hierarchy is complete; a default scope may become the scope. -/
  | promoteScope
  /-- The walk was cut off here. -/
  | unfinished

abbrev Trace : Type := List Recording

/-- Does what a recording says to a store. -/
def Store.record (store : Store) : Recording → Store
  | .write write => store.write write
  | .promoteScope => store.promoteDefaultScope
  | _ => store

/-- The store that a trace makes of a given one. -/
def Store.recordAll (store : Store) (trace : Trace) : Store :=
  trace.foldl Store.record store

/-- Records the defaults that an annotation type declares. -/
def Context.defaults (context : Context) (name : String) : Recording :=
  .write (.defaults name (context.model.defaultsOf name))

inductive Placement where
  | direct
  /-- As a stereotype that is reached through the given annotations. -/
  | stereotype (parents : List String)

namespace Placement

def parents : Placement → List String
  | .direct => []
  | .stereotype parents => parents

def write (placement : Placement) (declared : Bool) (name : String) (members : Members)
    (retention : Retention) : Recording :=
  match placement with
  | .direct => .write (.direct declared name members retention)
  | .stereotype parents => .write (.stereotype declared parents name members retention)

/-- Writes an occurrence into the group of a container. -/
def writeOccurrence (placement : Placement) (declared : Bool) (container : String)
    (occurrence : Annotation) : Recording :=
  match placement with
  | .direct => .write (.occurrence declared container occurrence)
  | .stereotype parents =>
    .write (.stereotypeOccurrence declared parents container occurrence)

/-- Writes an annotation: into the group of its container, or on its own. -/
def writeIn (placement : Placement) (declared : Bool) (container : Option String)
    (occurrence : Annotation) : Recording :=
  match container with
  | some container => placement.writeOccurrence declared container occurrence
  | none => placement.write declared occurrence.name occurrence.members occurrence.retention

end Placement

end AnnotationMetadata
