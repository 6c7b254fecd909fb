import AnnotationMetadata.Walk.Interception
import AnnotationMetadata.Walk.Recording

set_option autoImplicit false

/-!
# Walking meta-annotations that come with an annotation

Extensions may return annotations of types that are not declared, and give them
their meta-annotations along. These are walked like declared ones, except that
their members are taken as they are.
-/

namespace AnnotationMetadata.Walk

/-- Whether a meta-annotation of `owner` takes part in a walk. One that leads to
the owner does not, so that cyclic meta-annotations end; neither does a binding
on an annotation that is an interception kind itself. -/
def isWalked (config : Config) (chain : List String) (owner : String) (excludes : List String)
    (name : String) : Bool :=
  !chain.contains name && !config.isInternal name && !excludes.contains name &&
    !(Name.isInterceptionKind owner && name == Name.interceptorBinding)

/-- Records the binding of a type as an annotation of the element. -/
def bindingTrace (declared : Bool) (owner : String) (metas : List (String × Members)) : Trace :=
  (Interception.binding? owner metas).toList.map fun binding =>
    .write (.occurrence declared Name.interceptorBindings binding)

mutual

/-- Walks the meta-annotations that come with an annotation. The given ancestors
lead to the annotation. -/
def inline (config : Config) (declared : Bool) (ancestors : List String) : Annotation → Trace
  | ⟨name, _, _, stereotypes⟩ =>
    let chain := ancestors ++ [name]
    let walked := stereotypes.filter fun stereotype =>
      isWalked config chain name [] stereotype.name
    let placed := walked.filter fun stereotype => stereotype.name != Name.interceptorBinding
    placed.map (fun stereotype =>
        (Placement.stereotype chain).write declared stereotype.name stereotype.members
          stereotype.retention) ++
      inlineAll config declared chain name stereotypes ++
      bindingTrace declared name (walked.map fun stereotype => (stereotype.name, stereotype.members))

/-- Walks on from each meta-annotation of an owner that takes part. -/
def inlineAll (config : Config) (declared : Bool) (chain : List String) (owner : String) :
    List Annotation → Trace
  | [] => []
  | stereotype :: rest =>
    (if isWalked config chain owner [] stereotype.name then
        inline config declared chain stereotype
      else []) ++ inlineAll config declared chain owner rest

end

end AnnotationMetadata.Walk
