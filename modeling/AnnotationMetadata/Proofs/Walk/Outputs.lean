import AnnotationMetadata.Proofs.Walk.Grounded
import AnnotationMetadata.Proofs.Walk.Reading
import AnnotationMetadata.Proofs.Walk.Recordings

set_option autoImplicit false

/-!
# What is planned for an occurrence

The plan of an occurrence on an element holds what reading it plans, everything that
mappers return for it, and without mappers everything that replaces it. All of it is
recorded by the walk of the element.
-/

namespace AnnotationMetadata

namespace Walk

variable {context : Context} {source : Source}

/-! ## Reading -/

theorem plan_subset_readOwn {member : String} {written : Value} {progress : Progress} :
    progress.plan ⊆ (readOwn context source member written progress).plan := by
  unfold readOwn
  split
  · exact List.Subset.refl _
  · exact List.subset_append_left _ _

private theorem plan_subset_followAlias {written : Value} {progress : Progress}
    {found : MemberAlias} :
    progress.plan ⊆ (followAlias context source written progress found).plan := by
  unfold followAlias
  split
  · exact List.Subset.refl _
  · exact List.subset_append_left _ _

theorem plan_subset_foldl {α : Type} {read : Progress → α → Progress}
    (step : ∀ progress entry, progress.plan ⊆ (read progress entry).plan) (entries : List α)
    (start : Progress) : start.plan ⊆ (entries.foldl read start).plan := by
  induction entries generalizing start with
  | nil => exact List.Subset.refl _
  | cons entry rest ih => exact List.Subset.trans (step start entry) (ih _)

private theorem plan_subset_readEntry {aliases : Bool} {progress : Progress}
    {entry : String × Value} :
    progress.plan ⊆ (readEntry context source aliases progress entry).plan := by
  rw [← markInstantiated_plan context source progress entry]
  unfold readEntry
  cases aliases with
  | true =>
    exact List.Subset.trans (plan_subset_foldl (fun _ _ => plan_subset_followAlias) _ _)
      plan_subset_readOwn
  | false => exact plan_subset_readOwn

private theorem runtimeDefaults_subset_readMembers (source : Source) (aliases : Bool)
    (members : Members) :
    runtimeDefaults context source.annotation ⊆
      (readMembers context source aliases members).plan :=
  plan_subset_foldl (fun _ _ => plan_subset_readEntry) members
    ⟨[], runtimeDefaults context source.annotation⟩

/-! ## Occurrences -/

/-- What mappers return for an occurrence. -/
def mappedBy (context : Context) (occurrence : Annotation) : List Annotation :=
  (context.registry.mappers occurrence.name).flatMap fun expand =>
    expand context.model.visitorOptions
      { name := occurrence.name, members := (context.model.reading true occurrence).members }

/-- What transformers return for an occurrence. -/
def transformedBy (context : Context) (occurrence : Annotation) : List Annotation :=
  (context.registry.transformers occurrence.name).flatMap fun expand =>
    expand context.model.visitorOptions (context.model.reading true occurrence)

section Included

variable {element : Element} {declared : Bool} {occurrence : Annotation}

theorem populate_subset_includeOne :
    (populate context element declared true [] occurrence).plan ⊆
      (includeOne context element declared true occurrence).plan := by
  simp only [includeOne]
  split
  · exact List.subset_append_right _ _
  · exact List.Subset.trans (List.subset_append_right _ _) (List.subset_append_left _ _)

theorem runtimeDefaults_subset_populate :
    runtimeDefaults context occurrence.name ⊆
      (populate context element declared true [] occurrence).plan := by
  refine List.Subset.trans (runtimeDefaults_subset_readMembers
    (.ofOccurrence element declared [] occurrence.name) true occurrence.members) ?_
  simp only [populate]
  split
  · exact List.Subset.refl _
  · exact List.subset_append_left _ _

theorem runtimeDefaults_subset_includeOne :
    runtimeDefaults context occurrence.name ⊆
      (includeOne context element declared true occurrence).plan :=
  List.Subset.trans runtimeDefaults_subset_populate populate_subset_includeOne

theorem writeMapped_subset_includeOne {mapped : Annotation}
    (returned : mapped ∈ mappedBy context occurrence) :
    writeMapped context element declared mapped ⊆
      (includeOne context element declared true occurrence).plan := by
  refine List.Subset.trans ?_ populate_subset_includeOne
  have members : (readMembers context (.ofOccurrence element declared [] occurrence.name) true
      occurrence.members).members = (context.model.reading true occurrence).members := by
    rw [← populate_members context element declared true [] occurrence]
    simp only [populate]
    split <;> rfl
  rw [mappedBy, ← members] at returned
  simp only [populate]
  split
  · next unmapped =>
    rw [unmapped] at returned
    cases returned
  · intro step planned
    exact List.mem_append_right _ (List.mem_flatMap.mpr ⟨mapped, returned, planned⟩)

theorem writeMapped_records {mapped : Annotation} :
    (writeMapped context element declared mapped).Records mapped.name := by
  simp only [writeMapped]
  split
  · exact Plan.records_of_writeIn List.mem_cons_self
  · exact Plan.records_of_writeIn List.mem_cons_self

theorem defaults_mem_writeMapped {mapped : Annotation}
    (known : (context.model.annotationType? mapped.name).isSome)
    (kept : mapped.retention = .runtime) :
    Step.record (context.defaults mapped.name) ∈ writeMapped context element declared mapped := by
  have declares : (context.model.annotationType? mapped.name).isNone = false := by
    simpa using known
  simp [writeMapped, declares, kept]

theorem replace_subset_includeOne (unmapped : context.registry.mappers occurrence.name = []) :
    (replace context declared .direct occurrence.name
      (context.model.reading true occurrence).members).plan ⊆
        (includeOne context element declared true occurrence).plan := by
  have kept : (populate context element declared true [] occurrence).mapped = false := by
    simp only [populate, unmapped]
  simp only [includeOne, kept, Bool.false_eq_true, if_false, populate_members]
  exact List.subset_append_right _ _

end Included

/-- What the plan of a recorded occurrence records is recorded by the walk of its element. -/
theorem mem_elementTrace_of_planned {target current : Element} {aliases : Bool}
    {occurrence : Annotation} (listed : occurrence ∈ recordedOn context current)
    {recording : Recording}
    (planned : Step.record recording ∈
      (includeOne context current (current == target) aliases occurrence).plan) :
    recording ∈ elementTrace context target aliases current := by
  refine List.mem_flatMap.mpr ⟨.record recording, List.mem_append_left _ ?_,
    List.mem_singleton_self _⟩
  exact List.mem_flatMap.mpr ⟨_, List.mem_map_of_mem listed, planned⟩

end Walk

end AnnotationMetadata
