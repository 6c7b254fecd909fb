import AnnotationMetadata.Model.Hierarchy
import AnnotationMetadata.Walk.Stereotypes

set_option autoImplicit false

/-!
# Walking an element

The hierarchy of an element is walked from the most general element to the
element itself, so that what is more specific is written later. On each element
all occurrences are written before their meta-annotations are walked.
-/

namespace AnnotationMetadata

/-- Which parts of a hierarchy are walked, and how. -/
structure BuildOptions where
  /-- Methods and constructors inherit the annotations of their declaring type. -/
  inheritTypes : Bool := false
  declaredOnly : Bool := false
  aliases : Bool := false
  deriving DecidableEq

namespace BuildOptions

def toBits (options : BuildOptions) : Nat :=
  (if options.inheritTypes then 1 else 0) + (if options.declaredOnly then 2 else 0) +
    (if options.aliases then 4 else 0)

/-- The options of a number; bits without a meaning are dropped. -/
def ofBits (bits : Nat) : BuildOptions :=
  ⟨bits.testBit 0, bits.testBit 1, bits.testBit 2⟩

end BuildOptions

namespace Walk

/-! ## Occurrences -/

/-- An occurrence on an element that has been written. -/
structure Included where
  name : String
  plan : Plan
  kept : Bool

def deprecationMessage (name replacement : String) : String :=
  "Usages of deprecated annotation " ++ name ++ " found. You should use " ++ replacement ++
    " instead."

/-- Warns about a deprecated annotation on an element. -/
def deprecation (config : Config) (element : Element) (name : String) : Trace :=
  match config.deprecatedReplacement? name with
  | some replacement => [.warning element (deprecationMessage name replacement)]
  | none => []

/-- Reads an occurrence on an element and writes it. -/
def includeOne (context : Context) (element : Element) (declared : Bool) (aliases : Bool)
    (occurrence : Annotation) : Included :=
  let name := occurrence.name
  let warned := Plan.ofTrace (deprecation context.config element name)
  let populated := populate context element declared aliases [] occurrence
  if populated.mapped then ⟨name, warned ++ populated.plan, true⟩
  else
    let replacement := replace context declared .direct name populated.members
    ⟨name, warned ++ populated.plan ++ replacement.plan, replacement.kept⟩

/-- Whether the meta-annotations of an annotation on an element are walked. -/
def isRoot (config : Config) (name : String) : Bool :=
  !config.isStereotypeExcluded (Name.packageOf name) && !Name.isNullability name

/-- Writes occurrences on an element, then walks their meta-annotations. -/
def occurrences (context : Context) (element : Element) (declared : Bool) (aliases : Bool)
    (annotations : List Annotation) : Plan :=
  let recorded := annotations.filter fun occurrence => !context.config.isInternal occurrence.name
  let included := recorded.map (includeOne context element declared aliases)
  included.flatMap Included.plan ++
    (included.filter fun item => item.kept && isRoot context.config item.name).map fun item =>
      .descend { ancestors := [], owner := item.name, declared }

/-! ## Hierarchies -/

end Walk

/-- What walking an element came to. What was recorded before a failure stays
recorded. -/
structure ElementWalk where
  trace : Trace
  failure : Option ModelError := none

namespace Walk

/-- Walks elements in order, up to the first that cannot be read. The annotations
of `target` are its declared ones. -/
def elements (context : Context) (target : Element) (aliases : Bool) :
    List Element → ElementWalk
  | [] => { trace := [.promoteScope] }
  | current :: rest =>
    match context.model.read current with
    | .error failure => { trace := [], failure := some failure }
    | .ok annotations =>
      let others := elements context target aliases rest
      { others with
        trace :=
          carryOut context (occurrences context current (current == target) aliases annotations) ++
            others.trace }

/-- The hierarchy of an element, after that of a parent if one is given. -/
def combinedHierarchy (model : Model) (parent : Option Element) (element : Element)
    (options : BuildOptions) : Except ModelError (List Element) := do
  let own ← model.hierarchy element options.inheritTypes options.declaredOnly
  match parent with
  | none => return own
  | some parent =>
    return (← model.hierarchy parent options.inheritTypes options.declaredOnly) ++ own

/-- Walks the hierarchy of an element, the most general element first. -/
def element (context : Context) (parent : Option Element) (target : Element)
    (options : BuildOptions) : ElementWalk :=
  match combinedHierarchy context.model parent target options with
  | .error failure => { trace := [], failure := some failure }
  | .ok hierarchy => elements context target options.aliases hierarchy.reverse

/-- The occurrences on a member of an annotation type, read without aliases. -/
def memberOccurrences (context : Context) (owner member : String) : Plan :=
  let target : Element := .member owner member
  occurrences context target true false (context.model.occurrencesOn target)

/-- Walks the annotations on a member of an annotation type. -/
def annotationMember (context : Context) (owner member : String) : Trace :=
  carryOut context (memberOccurrences context owner member) ++ [.promoteScope]

/-- Walks given occurrences as if an element declared them. -/
def given (context : Context) (target : Element) (annotations : List Annotation) : Trace :=
  carryOut context (occurrences context target true true annotations)

/-- Writes an annotation that is added to metadata. An annotation of an undeclared
type is written as it is. -/
def addition (context : Context) (given : Annotation) : Plan :=
  let name := given.name
  let write container occurrence :=
    Step.record (Placement.direct.writeIn true container occurrence)
  if (context.model.annotationType? name).isNone then
    [write none given]
  else
    let occurrence := { given with retention := context.model.retentionOf name }
    [write (context.model.containerOf? name) occurrence,
      .record (context.defaults name),
      .descend
        { ancestors := [], owner := name, declared := true,
          excludes := context.config.annotateExcludes }]

/-- Walks an annotation that is added to metadata. -/
def added (context : Context) (given : Annotation) : Trace :=
  carryOut context (addition context given)

end Walk

end AnnotationMetadata
