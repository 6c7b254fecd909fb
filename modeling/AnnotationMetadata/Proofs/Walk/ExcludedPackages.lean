import AnnotationMetadata.Proofs.Walk.Invariants

set_option autoImplicit false

/-!
# Excluded packages

An occurrence on an element whose package is excluded is not walked for meta-annotations.
Nothing else asks for the package: neither meta-annotations and targets of aliases, nor the
aliases of the occurrence itself, nor an annotation that is added.
-/

namespace AnnotationMetadata

/-- Some member of the annotation stands for a member of another one. -/
def Model.AliasesAnother (model : Model) (name : String) : Prop :=
  ∃ member, ∃ found ∈ model.aliasesOf (.member name member), found.target.isSome

namespace Walk

variable {context : Context} {P : String → Prop}

/-- In an excluded package, the annotation is one of those that a walk starts with anyway, or
another annotation leads to it. -/
def LeadsOn (context : Context) (starts : String → Prop) (name : String) : Prop :=
  context.config.isStereotypeExcluded (Name.packageOf name) = true →
    starts name ∨ LedTo context name

/-- All annotations that lead to the meta-annotations of the type have a property. -/
def Descent.Only (P : String → Prop) (descent : Descent) : Prop :=
  ∀ name ∈ descent.chain, P name

theorem Descent.Only.of_append {ancestors : List String} {owner : String} {declared : Bool}
    {excludes : List String} (above : ∀ name ∈ ancestors, P name) (own : P owner) :
    (⟨ancestors, owner, declared, excludes⟩ : Descent).Only P := by
  intro name listed
  rcases List.mem_append.mp listed with before | last
  · exact above name before
  · cases List.mem_singleton.mp last
    exact own

/-! ## Steps -/

theorem ReplacementStep.indexesOnly (empty : context.registry = .empty) {declared : Bool}
    {placement : Placement} {name : String} {step : Step}
    (above : ∀ parent ∈ placement.parents, P parent)
    (taken : ReplacementStep context declared placement name step) :
    step.Keeps context.config (Recording.IndexesOnly P) (Descent.Only P) := by
  obtain ⟨members, rfl⟩ := taken.eq_itself empty
  exact Placement.writeIn_indexesOnly above

section Steps

variable (empty : context.registry = .empty) (reached : ∀ name, LedTo context name → P name)

include empty reached

theorem AliasStep.indexesOnly {source : Source} {member name : String} {found : MemberAlias}
    {target : Annotation} {step : Step}
    (listed : found ∈ context.model.aliasesOf (.member source.annotation member))
    (named : found.target = some name) (remapped : target ∈ remapTarget context name)
    (parents : ∀ parent ∈ source.parents, P parent) (chain : ∀ parent ∈ source.chain, P parent)
    (taken : AliasStep context source target step) :
    step.Keeps context.config (Recording.IndexesOnly P) (Descent.Only P) := by
  rw [remapTarget_of_empty empty] at remapped
  cases List.mem_singleton.mp remapped
  have led : P name := reached name (.aliased ⟨_, _, found, listed, named⟩)
  cases taken with
  | defaults => trivial
  | alone => exact fun _ none => absurd none List.not_mem_nil
  | grouped => exact parents
  | descend => exact .of_append chain led
  | expand =>
    intro recording recorded
    rw [inline_of_bare context.config source.declared source.chain rfl] at recorded
    cases recorded

/-- Reading indexes something under the occurrence only if it has an alias for it. -/
theorem ReadStep.indexesOnly {originating : Element} {declared : Bool} {enclosing : List String}
    {name : String} {step : Step} (above : ∀ parent ∈ enclosing, P parent)
    (aliasing : context.model.AliasesAnother name → P name)
    (taken : ReadStep context (.ofOccurrence originating declared enclosing name) step) :
    step.Keeps context.config (Recording.IndexesOnly P) (Descent.Only P) := by
  cases taken with
  | defaults => trivial
  | read => trivial
  | @aliased member other found _ _ listed named remapped taken =>
    have own : P name := aliasing ⟨member, found, listed, by rw [named]; rfl⟩
    refine taken.indexesOnly empty reached listed named remapped ?_ ?_
    · exact fun parent same => List.mem_singleton.mp same ▸ own
    · intro parent listed
      rcases List.mem_append.mp listed with before | last
      · exact above parent before
      · exact List.mem_singleton.mp last ▸ own

theorem LevelStep.indexesOnly {descent : Descent} {step : Step} (only : descent.Only P)
    (taken : LevelStep context descent step) :
    step.Keeps context.config (Recording.IndexesOnly P) (Descent.Only P) := by
  have led : ∀ occurrence ∈ context.model.occurrencesOn (.annotationType descent.owner),
      isWalked context.config descent.chain descent.owner descent.excludes occurrence.name →
        P occurrence.name :=
    fun _ carried walked => reached _ (.carried carried rfl (isInternal_of_isWalked walked))
  cases taken with
  | read carried walked read =>
    exact read.indexesOnly empty reached only fun _ => led _ carried walked
  | mapped _ registered => exact absurd (mappers_of_empty empty _) registered
  | replaced _ _ replaced =>
    refine replaced.indexesOnly empty ?_
    exact only
  | descend carried walked => exact .of_append only (led _ carried walked)
  | binding => trivial

end Steps

/-! ## Walks -/

section Walks

variable (empty : context.registry = .empty)

include empty

theorem elementTrace_indexesOnly {target current : Element} {aliases : Bool}
    {recording : Recording} (recorded : recording ∈ elementTrace context target aliases current) :
    recording.IndexesOnly (LeadsOn context context.model.AliasesAnother) := by
  have reached : ∀ name, LedTo context name →
      LeadsOn context context.model.AliasesAnother name := fun _ led _ => .inr led
  have top : ∀ name ∈ ([] : List String), LeadsOn context context.model.AliasesAnother name :=
    fun _ listed => absurd listed List.not_mem_nil
  refine holds_of_mem_carryOut trivial
    (fun _ only _ taken => taken.indexesOnly empty reached only) (fun step planned => ?_) recorded
  cases elementStep_of_mem_occurrences planned with
  | warning => trivial
  | read _ _ read =>
    exact read.indexesOnly empty reached top fun aliasing _ => .inl aliasing
  | mapped _ registered => exact absurd (mappers_of_empty empty _) registered
  | replaced _ _ replaced =>
    refine replaced.indexesOnly empty ?_
    exact top
  | @descend occurrence _ _ root =>
    refine .of_append top fun excluded => ?_
    simp [isRoot, excluded] at root

/-- The annotation that is added is walked whatever its package is. -/
theorem added_indexesOnly {occurrence : Annotation} {recording : Recording}
    (recorded : recording ∈ added context occurrence) :
    recording.IndexesOnly (LeadsOn context (· = occurrence.name)) := by
  have reached : ∀ name, LedTo context name → LeadsOn context (· = occurrence.name) name :=
    fun _ led _ => .inr led
  have top : ∀ name ∈ ([] : List String), LeadsOn context (· = occurrence.name) name :=
    fun _ listed => absurd listed List.not_mem_nil
  refine holds_of_mem_carryOut trivial
    (fun _ only _ taken => taken.indexesOnly empty reached only) (fun step planned => ?_) recorded
  cases additionStep_of_mem_addition planned with
  | written => exact Placement.writeIn_indexesOnly top
  | defaults => trivial
  | descend => exact .of_append top fun _ => .inl rfl

end Walks

end Walk

end AnnotationMetadata
