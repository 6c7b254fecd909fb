import AnnotationMetadata.Walk.Plan

set_option autoImplicit false

/-!
# Replacing an occurrence

An occurrence that has been read is written, unless remappers or transformers
are registered for it; remappers are asked before transformers. An occurrence
that is replaced takes no further part in the walk.
-/

namespace AnnotationMetadata.Walk

structure Replacement where
  plan : Plan
  /-- The occurrence itself stays in the walk. -/
  kept : Bool

/-- Walks the meta-annotations of an annotation that an extension returned: those
that come with it, or else those of its declared type. -/
def ofReturned (context : Context) (declared : Bool) (parents : List String)
    (returned : Annotation) : Plan :=
  let name := returned.name
  if context.config.isInternal name ||
      context.config.isStereotypeExcluded (Name.packageOf name) then []
  else if !returned.stereotypes.isEmpty then [.expand declared parents returned]
  else if (context.model.annotationType? name).isSome then
    [.descend { ancestors := parents, owner := name, declared }]
  else []

def isReplaced : RemapOutcome → Bool
  | .unchanged => false
  | .replaced _ => true

/-- The annotation that groups one occurrence under a container. -/
def groupOf (container : String) (occurrence : Annotation) : Annotation :=
  ({ name := container } : Annotation).withAnnotations [occurrence]

/-! ## Remappers -/

/-- Writes what remappers make of an occurrence. When some decline it is written
once itself. -/
def remapped (context : Context) (declared : Bool) (placement : Placement)
    (occurrence : Annotation) (kept : Bool) : List RemapOutcome → Plan
  | [] => []
  | .unchanged :: rest =>
    (if kept then [] else [.record (placement.writeIn declared none occurrence)]) ++
      remapped context declared placement occurrence true rest
  | .replaced annotations :: rest =>
    annotations.flatMap (fun annotation =>
        .record (placement.writeIn declared none annotation) ::
          ofReturned context declared placement.parents annotation) ++
      remapped context declared placement occurrence kept rest

/-- The containers that a remapper puts in place of one. -/
def remappedContainers (container : String) : RemapOutcome → List String
  | .unchanged => [container]
  | .replaced groups => groups.map Annotation.name

/-- Writes what remappers make of a repeatable occurrence, each given with what it
makes of the container and of the occurrence. -/
def remappedInGroups (declared : Bool) (placement : Placement) (container : String)
    (occurrence : Annotation) (kept : Bool) : List (List String × RemapOutcome) → Trace
  | [] => []
  | (groups, .unchanged) :: rest =>
    if !kept && !groups.isEmpty then
      placement.writeOccurrence declared container occurrence ::
        remappedInGroups declared placement container occurrence true rest
    else remappedInGroups declared placement container occurrence kept rest
  | (groups, .replaced annotations) :: rest =>
    groups.flatMap (fun group =>
        annotations.map fun annotation => placement.writeOccurrence declared group annotation) ++
      remappedInGroups declared placement container occurrence kept rest

/-! ## Transformers -/

/-- The container of an annotation that a transformer returned. -/
def returnedContainer? (context : Context) (name : String) : Option String :=
  if context.config.isInternal name || name == Name.nullable || name == Name.nonNull then none
  else context.model.containerOf? name

/-- Writes what transformers make of an occurrence. -/
def transformed (context : Context) (declared : Bool) (placement : Placement)
    (annotations : List Annotation) : Plan :=
  annotations.flatMap fun annotation =>
    .record (placement.writeIn declared (returnedContainer? context annotation.name) annotation) ::
      ofReturned context declared placement.parents annotation

/-- Writes what transformers make of a repeatable occurrence into groups. -/
def transformedInGroups (context : Context) (declared : Bool) (placement : Placement)
    (containers : List String) (annotations : List Annotation) : Plan :=
  containers.flatMap fun container =>
    annotations.flatMap fun annotation =>
      .record (placement.writeOccurrence declared container annotation) ::
        ofReturned context declared placement.parents annotation

/-! ## Choice -/

/-- The containers that transformers put in place of one. A container without
transformers stays. -/
def transformedContainers (context : Context) (container : String) (occurrence : Annotation) :
    List String :=
  match context.registry.transformers container with
  | [] => [container]
  | transformers =>
    (transformers.flatMap fun expand =>
      expand context.model.visitorOptions (groupOf container occurrence)).map Annotation.name

/-- Writes an occurrence with the members that were read from it, or what the
registered extensions put in its place. -/
def replace (context : Context) (declared : Bool) (placement : Placement) (name : String)
    (members : Members) : Replacement :=
  let options := context.model.visitorOptions
  let occurrence : Annotation := { name, members, retention := context.model.retentionOf name }
  let container := context.model.containerOf? name
  match context.registry.remappersFor name, context.registry.transformers name with
  | [], [] => ⟨[.record (placement.writeIn declared container occurrence)], true⟩
  | [], transformers =>
    let annotations := transformers.flatMap fun expand => expand options occurrence
    match container with
    | some container =>
      ⟨transformedInGroups context declared placement
        (transformedContainers context container occurrence) annotations, false⟩
    | none => ⟨transformed context declared placement annotations, false⟩
  | remappers, _ =>
    let outcomes := remappers.map fun remap => remap options occurrence
    let kept := !outcomes.any isReplaced
    match container with
    | some container =>
      let groups := remappers.map fun remap =>
        remappedContainers container (remap options (groupOf container occurrence))
      ⟨Plan.ofTrace
        (remappedInGroups declared placement container occurrence false (groups.zip outcomes)),
        kept⟩
    | none => ⟨remapped context declared placement occurrence false outcomes, kept⟩

end AnnotationMetadata.Walk
