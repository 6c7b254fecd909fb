import AnnotationMetadata.Proofs.Store.Recorded
import AnnotationMetadata.Proofs.Walk.Invariants

set_option autoImplicit false

/-!
# Names that walks record

Without extensions, a walk records occurrences on elements as annotations and what they lead to
as stereotypes, each under its own name or that of its container. Nothing else is recorded but
the group of interceptor bindings. Where a walk asks whether a name is internal, it asks about
the occurrence: neither about its container nor about the target of an alias.
-/

namespace AnnotationMetadata

/-- The name that occurrences of an annotation are recorded under. -/
def Model.recordedAs (model : Model) (name : String) : String :=
  (model.containerOf? name).getD name

theorem Model.recordedAs_of_grouped {model : Model} {name container : String}
    (grouped : model.containerOf? name = some container) : model.recordedAs name = container := by
  rw [recordedAs, grouped]
  rfl

theorem Model.recordedAs_of_ungrouped {model : Model} {name : String}
    (ungrouped : model.containerOf? name = none) : model.recordedAs name = name := by
  rw [recordedAs, ungrouped]
  rfl

/-- The recording names only such annotations and such stereotypes. -/
def Recording.NamesOnly (annotations stereotypes : String → Prop) : Recording → Prop
  | .write (.direct _ name _ _) => annotations name
  | .write (.occurrence _ container _) => annotations container
  | .write (.stereotype _ _ name _ _) => stereotypes name
  | .write (.stereotypeOccurrence _ _ container _) => stereotypes container
  | _ => True

theorem Recording.NamesOnly.mono {annotations stereotypes more : String → Prop}
    {recording : Recording} (names : recording.NamesOnly annotations stereotypes)
    (weaker : ∀ name, annotations name → more name) : recording.NamesOnly more stereotypes := by
  cases recording with
  | write write =>
    cases write with
    | direct => exact weaker _ names
    | occurrence => exact weaker _ names
    | stereotype => exact names
    | stereotypeOccurrence => exact names
    | defaults => trivial
  | warning => trivial
  | read => trivial
  | promoteScope => trivial
  | unfinished => trivial

namespace Walk

variable {context : Context}

/-- A stereotype that something on the way leads to, or the container of one. -/
def IsStereotypeName (context : Context) (name : String) : Prop :=
  ∃ item, LedTo context item ∧ context.model.recordedAs item = name

/-- What a walk below an element records. -/
abbrev NamesBelow (context : Context) : Recording → Prop :=
  Recording.NamesOnly (· = Name.interceptorBindings) (IsStereotypeName context)

/-! ## Steps -/

section Steps

variable (empty : context.registry = .empty)

include empty

theorem AliasStep.namesBelow {source : Source} {member name : String} {found : MemberAlias}
    {target : Annotation} {step : Step}
    (listed : found ∈ context.model.aliasesOf (.member source.annotation member))
    (named : found.target = some name) (remapped : target ∈ remapTarget context name)
    (taken : AliasStep context source target step) :
    step.Keeps context.config (NamesBelow context) fun _ => True := by
  rw [remapTarget_of_empty empty] at remapped
  cases List.mem_singleton.mp remapped
  have led : LedTo context name := .aliased ⟨_, _, found, listed, named⟩
  cases taken with
  | defaults => trivial
  | alone ungrouped => exact ⟨name, led, Model.recordedAs_of_ungrouped ungrouped⟩
  | grouped grouped => exact ⟨name, led, Model.recordedAs_of_grouped grouped⟩
  | descend => trivial
  | expand =>
    intro recording recorded
    rw [inline_of_bare context.config source.declared source.chain rfl] at recorded
    cases recorded

theorem ReadStep.namesBelow {source : Source} {step : Step} (taken : ReadStep context source step) :
    step.Keeps context.config (NamesBelow context) fun _ => True := by
  cases taken with
  | defaults => trivial
  | read => trivial
  | aliased listed named remapped taken => exact taken.namesBelow empty listed named remapped

/-- An occurrence is written under the name that it is recorded as. -/
theorem ReplacementStep.namesOnly {annotations stereotypes : String → Prop} {declared : Bool}
    {placement : Placement} {name : String} {step : Step} {Q : Descent → Prop}
    (taken : ReplacementStep context declared placement name step)
    (direct : placement = .direct → annotations (context.model.recordedAs name))
    (below : placement ≠ .direct → stereotypes (context.model.recordedAs name)) :
    step.Keeps context.config (Recording.NamesOnly annotations stereotypes) Q := by
  obtain ⟨members, rfl⟩ := taken.eq_itself empty
  unfold Model.recordedAs at direct below
  cases placement with
  | direct =>
    have written := direct rfl
    cases found : context.model.containerOf? name with
    | none => rwa [found] at written
    | some container => rwa [found] at written
  | stereotype parents =>
    have written := below (fun same => nomatch same)
    cases found : context.model.containerOf? name with
    | none => rwa [found] at written
    | some container => rwa [found] at written

theorem LevelStep.namesBelow {descent : Descent} {step : Step}
    (taken : LevelStep context descent step) :
    step.Keeps context.config (NamesBelow context) fun _ => True := by
  cases taken with
  | read _ _ read => exact read.namesBelow empty
  | mapped _ registered => exact absurd (mappers_of_empty empty _) registered
  | @replaced occurrence _ carried walked replaced =>
    have led : LedTo context occurrence.name := .carried carried rfl (isInternal_of_isWalked walked)
    exact replaced.namesOnly empty (fun same => nomatch same) fun _ => ⟨_, led, rfl⟩
  | descend => trivial
  | binding => exact rfl

end Steps

/-! ## Elements -/

/-- An annotation that the walk of an element records: an occurrence on it, or the container
of one, or the group of bindings. -/
def IsAnnotationName (context : Context) (element : Element) (name : String) : Prop :=
  (∃ occurrence ∈ recordedOn context element,
      context.model.recordedAs occurrence.name = name) ∨
    name = Name.interceptorBindings

private theorem namesOnly_of_mem_elementTrace (empty : context.registry = .empty)
    {target current : Element} {aliases : Bool} {recording : Recording}
    (recorded : recording ∈ elementTrace context target aliases current) :
    recording.NamesOnly (IsAnnotationName context current) (IsStereotypeName context) := by
  have widen : ∀ {step : Step}, step.Keeps context.config (NamesBelow context) (fun _ => True) →
      step.Keeps context.config
        (Recording.NamesOnly (IsAnnotationName context current) (IsStereotypeName context))
        fun _ => True :=
    fun keeps => keeps.mono fun _ names => names.mono fun _ => .inr
  refine holds_of_mem_carryOut (Q := fun _ => True) trivial
    (fun _ _ _ taken => widen (taken.namesBelow empty)) (fun step planned => ?_) recorded
  cases elementStep_of_mem_occurrences planned with
  | warning => trivial
  | read _ _ read => exact widen (read.namesBelow empty)
  | mapped _ registered => exact absurd (mappers_of_empty empty _) registered
  | @replaced occurrence _ given recorded replaced =>
    have listed : occurrence ∈ recordedOn context current :=
      List.mem_filter.mpr ⟨given, by simp [recorded]⟩
    exact replaced.namesOnly empty (fun _ => .inl ⟨occurrence, listed, rfl⟩)
      fun other => absurd rfl other
  | descend => trivial

/-- An annotation that the walk of a hierarchy records. -/
def IsAnnotationNameOf (context : Context) (hierarchy : List Element) (name : String) : Prop :=
  ∃ current ∈ hierarchy, IsAnnotationName context current name

theorem namesOnly_of_mem_hierarchy (empty : context.registry = .empty) {target : Element}
    {aliases : Bool} {hierarchy : List Element} {recording : Recording}
    (recorded : recording ∈ hierarchy.flatMap (elementTrace context target aliases)) :
    recording.NamesOnly (IsAnnotationNameOf context hierarchy) (IsStereotypeName context) := by
  obtain ⟨current, listed, walked⟩ := List.mem_flatMap.mp recorded
  exact (namesOnly_of_mem_elementTrace empty walked).mono fun _ own => ⟨current, listed, own⟩

end Walk

/-! ## Stores -/

namespace Store

variable {store : Store} {name : String}

theorem annotations_of_namesOnly {trace : Trace} {annotations stereotypes : String → Prop}
    (names : ∀ recording ∈ trace, recording.NamesOnly annotations stereotypes)
    (unpromoted : Recording.promoteScope ∉ trace)
    (listed : name ∈ (Store.empty.recordAll trace).annotationNames) : annotations name := by
  obtain ⟨write, recorded, declared, members, changed⟩ :=
    (mem_annotationNames_recordAll unpromoted).mp listed
  have only := names _ recorded
  cases write with
  | direct => cases changed; exact only
  | occurrence => cases changed; exact only
  | stereotype => cases changed
  | stereotypeOccurrence => cases changed
  | defaults => cases changed

theorem stereotypes_of_namesOnly {trace : Trace} {annotations stereotypes : String → Prop}
    (names : ∀ recording ∈ trace, recording.NamesOnly annotations stereotypes)
    (unpromoted : Recording.promoteScope ∉ trace)
    (listed : name ∈ (Store.empty.recordAll trace).stereotypeNames) : stereotypes name := by
  obtain ⟨parents, write, recorded, indexed⟩ := (mem_stereotypeNames_recordAll unpromoted).mp listed
  have only := names _ recorded
  cases write with
  | stereotype => cases indexed; exact only
  | stereotypeOccurrence => cases indexed; exact only
  | direct => cases indexed
  | occurrence => cases indexed
  | defaults => cases indexed

end Store

end AnnotationMetadata
