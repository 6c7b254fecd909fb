import AnnotationMetadata.Walk.Occurrence
import AnnotationMetadata.Walk.Replacement

set_option autoImplicit false

/-!
# Walking declared meta-annotations

The meta-annotations of an annotation type are read and written as stereotypes,
then walked in turn. Without extensions the annotations that lead to a type are
distinct, which bounds the depth; extensions can make a walk go on for ever, so
it is given a budget of levels and says so when it is cut off.
-/

namespace AnnotationMetadata.Walk

structure MetaReading where
  name : String
  members : Members
  plan : Plan
  kept : Bool

/-- Reads a meta-annotation of `owner` and writes it. A binding is not written
itself, it becomes part of the binding of the owner. -/
def readMeta (context : Context) (declared : Bool) (chain : List String) (owner : String)
    (occurrence : Annotation) : MetaReading :=
  let name := occurrence.name
  let populated := populate context (.annotationType owner) declared true chain occurrence
  if name = Name.interceptorBinding || populated.mapped then
    ⟨name, populated.members, populated.plan, true⟩
  else
    let replacement := replace context declared (.stereotype chain) name populated.members
    ⟨name, populated.members, populated.plan ++ replacement.plan, replacement.kept⟩

/-- The meta-annotations of a type that take part in a walk, read. -/
def readMetas (context : Context) (descent : Descent) : List MetaReading :=
  ((context.model.occurrencesOn (.annotationType descent.owner)).filter fun occurrence =>
      isWalked context.config descent.chain descent.owner descent.excludes occurrence.name).map
    (readMeta context descent.declared descent.chain descent.owner)

def level (context : Context) (descent : Descent) : Plan :=
  let metas := readMetas context descent
  metas.flatMap MetaReading.plan ++
    (metas.filter MetaReading.kept).map (fun reading =>
      .descend
        { ancestors := descent.chain, owner := reading.name, declared := descent.declared }) ++
    Plan.ofTrace (bindingTrace descent.declared descent.owner
      (metas.map fun reading => (reading.name, reading.members)))

/-- Walks the meta-annotations of an annotation type for at most the given number
of levels. -/
def stereotypes (context : Context) : Nat → Descent → Trace
  | 0, _ => [.unfinished]
  | budget + 1, descent =>
    Plan.carryOut context.config (fun below => stereotypes context budget below)
      (level context descent)

/-- A budget of levels that only a walk without end exceeds. With `n` declared
types: as long as no mapper starts over, the set of annotations above a level
only grows, and levels under one set belong to distinct types, which makes at
most `n ^ 2` levels. A mapper starts over with a type, or with an alias from one
type to another, in at most `n ^ 2 + n` ways. -/
def budget (context : Context) : Nat :=
  Nat.pow (context.model.document.annotations.length + 2) 4

def carryOut (context : Context) (plan : Plan) : Trace :=
  Plan.carryOut context.config (stereotypes context (budget context)) plan

end AnnotationMetadata.Walk
