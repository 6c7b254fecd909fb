import AnnotationMetadata.Walk.Inline

set_option autoImplicit false

/-!
# Plans

What a walk does at one place is a plan. It lists what is recorded there and,
in between, the walks of meta-annotations that go on from there. A plan looks at
no walk below it, so every walk is described by the plan of one level.
-/

namespace AnnotationMetadata.Walk

/-- A walk of the declared meta-annotations of an annotation type. -/
structure Descent where
  /-- The annotations that lead to the type. -/
  ancestors : List String
  owner : String
  /-- Whether the element itself declares them. -/
  declared : Bool
  /-- Meta-annotations that are left out on the first level. -/
  excludes : List String := []
  deriving DecidableEq

/-- The annotations that lead to the meta-annotations of the type. -/
def Descent.chain (descent : Descent) : List String :=
  descent.ancestors ++ [descent.owner]

inductive Step where
  | record (recording : Recording)
  /-- Walks the declared meta-annotations of an annotation type. -/
  | descend (descent : Descent)
  /-- Walks the meta-annotations that come with an annotation, given the
  annotations that lead to it. -/
  | expand (declared : Bool) (ancestors : List String) (given : Annotation)

abbrev Plan : Type := List Step

def Plan.ofTrace (trace : Trace) : Plan :=
  trace.map .record

/-- What a step records, given the walks of annotation types. -/
def Step.carryOut (config : Config) (walk : Descent → Trace) : Step → Trace
  | .record recording => [recording]
  | .descend descent => walk descent
  | .expand declared ancestors given => inline config declared ancestors given

def Plan.carryOut (config : Config) (walk : Descent → Trace) (plan : Plan) : Trace :=
  plan.flatMap (Step.carryOut config walk)

end AnnotationMetadata.Walk
