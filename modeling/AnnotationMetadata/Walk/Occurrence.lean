import AnnotationMetadata.Walk.Plan

set_option autoImplicit false

/-!
# Reading an occurrence

An occurrence is read member by member. An alias within the annotation sets the
other member, too; an alias of another annotation writes that annotation as a
stereotype. Mappers then may put other annotations in the place of the
occurrence.
-/

namespace AnnotationMetadata.Walk

structure Source where
  originating : Element
  declared : Bool
  annotation : String
  /-- The annotations that an aliased group is indexed under. -/
  parents : List String
  /-- The annotations that lead from the element to the occurrence, itself
  included. -/
  chain : List String

/-- Members read so far, with what is to be done for them. -/
structure Progress where
  members : Members
  plan : Plan

/-! ## Aliases of other annotations -/

/-- The annotations that an alias target stands for once the remappers have been
asked. However many decline, the target itself is kept once. -/
def remapTarget (context : Context) (target : String) : List Annotation :=
  match context.registry.remappersFor target with
  | [] => [{ name := target }]
  | remappers =>
    keepOnce { name := target } false
      (remappers.map fun remap => remap context.model.visitorOptions { name := target })
where
  keepOnce (itself : Annotation) (kept : Bool) : List RemapOutcome → List Annotation
    | [] => []
    | .unchanged :: rest => (if kept then [] else [itself]) ++ keepOnce itself true rest
    | .replaced annotations :: rest => annotations ++ keepOnce itself kept rest

/-- Writes an aliased value as a stereotype and walks on from it. A target that
already leads to the occurrence keeps its value but is not walked again. -/
def writeAliased (context : Context) (source : Source) (member : String) (value : Value)
    (target : Annotation) : Plan :=
  let model := context.model
  let name := target.name
  let occurrence : Annotation :=
    { name, members := [(member, value)], retention := model.retentionOf name }
  let isDeclared := (model.annotationType? name).isSome
  let written :=
    match model.containerOf? name with
    | some container =>
      (Placement.stereotype source.parents).writeOccurrence source.declared container occurrence
    | none =>
      (Placement.stereotype []).write source.declared name occurrence.members occurrence.retention
  (if isDeclared then [.record (context.defaults name)] else []) ++ .record written ::
    (if source.chain.contains name then []
      else if isDeclared then
        [.descend { ancestors := source.chain, owner := name, declared := source.declared }]
      else [.expand source.declared source.chain target])

/-! ## Members -/

/-- Reads a member under its own name unless an alias has set it. -/
def readOwn (context : Context) (source : Source) (member : String) (written : Value)
    (progress : Progress) : Progress :=
  if Dict.contains progress.members member then progress
  else
    let value := context.model.resolve written
    ⟨progress.members ++ [(member, value)],
      progress.plan ++ [.record (.read ⟨source.originating, source.annotation, member, value⟩)]⟩

def followAlias (context : Context) (source : Source) (written : Value) (progress : Progress)
    (found : MemberAlias) : Progress :=
  let value := context.model.resolve written
  match found.target with
  | none => { progress with members := Dict.insert progress.members found.member value }
  | some target =>
    { progress with
      plan := progress.plan ++
        (remapTarget context target).flatMap (writeAliased context source found.member value) }

/-- Follows the aliases of a member, then reads it under its own name. -/
def readAliased (context : Context) (source : Source) (progress : Progress)
    (entry : String × Value) : Progress :=
  readOwn context source entry.1 entry.2
    ((context.model.aliasesOf (.member source.annotation entry.1)).foldl
      (followAlias context source entry.2) progress)

/-- Sets a class-valued member that is meant to be instantiated. -/
def markInstantiated (context : Context) (source : Source) (progress : Progress)
    (entry : String × Value) : Progress :=
  if context.model.hasAnnotation (.member source.annotation entry.1) Name.instantiatedMember then
    match context.model.resolve entry.2 with
    | .classRef found =>
      { progress with
        members := Dict.insert progress.members entry.1
          (.classRef { name := found.name, instantiated := true }) }
    | _ => progress
  else progress

/-- Reads one member of an occurrence, with its aliases if they are allowed. -/
def readEntry (context : Context) (source : Source) (aliases : Bool) (progress : Progress)
    (entry : String × Value) : Progress :=
  let marked := markInstantiated context source progress entry
  if aliases then readAliased context source marked entry
  else readOwn context source entry.1 entry.2 marked

/-! ## Mappers -/

/-- Whether a member is declared by an annotation type. -/
def declaresMember (context : Context) (owner member : String) : Bool :=
  (context.model.memberDeclaration? owner member).isSome

/-- The members that a mapped annotation sets through aliases but not itself, with
what is to be done for its aliases. -/
def aliasedByMapped (context : Context) (source : Source) (mapped : Annotation) : Progress :=
  let progress :=
    (mapped.members.filter fun entry => declaresMember context mapped.name entry.1).foldl
      (readAliased context source) ⟨[], []⟩
  { progress with
    members := progress.members.filter fun entry => !Dict.contains mapped.members entry.1 }

/-- Writes an annotation that a mapper returned as if it stood on the element. -/
def writeMapped (context : Context) (originating : Element) (declared : Bool)
    (mapped : Annotation) : Plan :=
  let model := context.model
  let name := mapped.name
  let container := model.containerOf? name
  let written := Placement.direct.writeIn declared container mapped
  let writeAlone members := Placement.direct.write declared name members mapped.retention
  if (model.annotationType? name).isNone then [.record written]
  else
    let aliased := aliasedByMapped context ⟨originating, declared, name, [], [name]⟩ mapped
    .record written :: aliased.plan ++
      (if container.isNone && !aliased.members.isEmpty then
        [.record (writeAlone aliased.members)] else []) ++
      (if mapped.retention = .runtime then [.record (context.defaults name)] else []) ++
      [.descend { ancestors := [], owner := name, declared }]

/-! ## Occurrences -/

structure Populated where
  members : Members
  plan : Plan
  /-- Mappers have taken over; the occurrence itself is not written. -/
  mapped : Bool

/-- Records the defaults of an annotation that is kept at runtime. -/
def runtimeDefaults (context : Context) (name : String) : Plan :=
  if context.model.retentionOf name = .runtime then [.record (context.defaults name)] else []

/-- Reads the members of an occurrence. -/
def readMembers (context : Context) (source : Source) (aliases : Bool) (members : Members) :
    Progress :=
  members.foldl (readEntry context source aliases) ⟨[], runtimeDefaults context source.annotation⟩

/-- Reads an occurrence and lets mappers replace it. The enclosing annotations
lead to the occurrence. -/
def populate (context : Context) (originating : Element) (declared : Bool) (aliases : Bool)
    (enclosing : List String) (occurrence : Annotation) : Populated :=
  let name := occurrence.name
  let source : Source := ⟨originating, declared, name, [name], enclosing ++ [name]⟩
  let progress := readMembers context source aliases occurrence.members
  match context.registry.mappers name with
  | [] => ⟨progress.members, progress.plan, false⟩
  | mappers =>
    let outputs := mappers.flatMap fun expand =>
      expand context.model.visitorOptions { name, members := progress.members }
    ⟨progress.members,
      progress.plan ++ outputs.flatMap (writeMapped context originating declared), true⟩

end AnnotationMetadata.Walk
