import AnnotationMetadata.Proofs.Walk.Chain

set_option autoImplicit false

/-!
# What a walk reaches

A walk that is not cut off records exactly what the steps that it reaches record
themselves. The number of levels that it is given plays no further part.
-/

namespace AnnotationMetadata.Walk

variable {context : Context} {plan : Plan}

/-- What a step records itself, apart from the walks of declared types. -/
def Step.Records (config : Config) (recording : Recording) : Step → Prop
  | .record own => recording = own
  | .descend _ => False
  | .expand declared ancestors given => recording ∈ inline config declared ancestors given

theorem Step.Records.mem_carryOut {config : Config} {walk : Descent → Trace} {step : Step}
    {recording : Recording} (records : step.Records config recording) :
    recording ∈ step.carryOut config walk := by
  cases step with
  | record own => exact List.mem_singleton.mpr records
  | descend descent => cases records
  | expand declared ancestors given => exact records

/-- Everything below a walk that is reached is recorded. -/
private theorem exists_stereotypes_subset (finished : Recording.unfinished ∉ carryOut context plan)
    {descent : Descent} (reached : Reached context plan (.descend descent)) :
    ∃ levels, ∀ recording ∈ stereotypes context (levels + 1) descent,
      recording ∈ carryOut context plan := by
  have uncut : ∀ levels descent,
      (∀ recording ∈ stereotypes context levels descent, recording ∈ carryOut context plan) →
      ∃ fewer, levels = fewer + 1 := by
    intro levels descent subset
    refine Nat.exists_eq_succ_of_ne_zero ?_
    rintro rfl
    exact finished (subset _ (List.mem_singleton_self _))
  generalize same : Step.descend descent = step at reached
  induction reached generalizing descent with
  | planned member =>
    subst same
    have subset : ∀ recording ∈ stereotypes context (budget context) descent,
        recording ∈ carryOut context plan :=
      fun recording recorded => List.mem_flatMap.mpr ⟨_, member, recorded⟩
    obtain ⟨fewer, equal⟩ := uncut _ _ subset
    exact ⟨fewer, equal ▸ subset⟩
  | deeper _ member ih =>
    subst same
    obtain ⟨levels, subset⟩ := ih rfl
    have below : ∀ recording ∈ stereotypes context levels descent,
        recording ∈ carryOut context plan :=
      fun recording recorded => subset recording (List.mem_flatMap.mpr ⟨_, member, recorded⟩)
    obtain ⟨fewer, equal⟩ := uncut _ _ below
    exact ⟨fewer, equal ▸ below⟩

theorem mem_carryOut_of_reached (finished : Recording.unfinished ∉ carryOut context plan)
    {step : Step} (reached : Reached context plan step) {recording : Recording}
    (records : step.Records context.config recording) : recording ∈ carryOut context plan := by
  cases reached with
  | planned member => exact List.mem_flatMap.mpr ⟨step, member, records.mem_carryOut⟩
  | deeper above member =>
    obtain ⟨levels, subset⟩ := exists_stereotypes_subset finished above
    exact subset recording (List.mem_flatMap.mpr ⟨step, member, records.mem_carryOut⟩)

/-- By induction on the levels: what is recorded below a walk that is reached is cut off or
recorded by a step that is reached. -/
private theorem exists_reached_of_mem_stereotypes {levels : Nat} {descent : Descent}
    (above : Reached context plan (.descend descent)) {recording : Recording}
    (recorded : recording ∈ stereotypes context levels descent) :
    recording = .unfinished ∨
      ∃ step, Reached context plan step ∧ step.Records context.config recording := by
  induction levels generalizing descent recording with
  | zero => exact .inl (List.mem_singleton.mp recorded)
  | succ levels ih =>
    obtain ⟨step, member, recorded⟩ := List.mem_flatMap.mp recorded
    have reached : Reached context plan step := .deeper above member
    cases step with
    | record own => exact .inr ⟨_, reached, List.mem_singleton.mp recorded⟩
    | descend below => exact ih reached recorded
    | expand declared ancestors given => exact .inr ⟨_, reached, recorded⟩

theorem mem_carryOut_iff (finished : Recording.unfinished ∉ carryOut context plan)
    {recording : Recording} :
    recording ∈ carryOut context plan ↔
      ∃ step, Reached context plan step ∧ step.Records context.config recording := by
  constructor
  · intro recorded
    obtain ⟨step, member, walked⟩ := List.mem_flatMap.mp recorded
    have reached : Reached context plan step := .planned member
    cases step with
    | record own => exact ⟨_, reached, List.mem_singleton.mp walked⟩
    | descend descent =>
      refine (exists_reached_of_mem_stereotypes reached walked).resolve_left ?_
      rintro rfl
      exact finished recorded
    | expand declared ancestors given => exact ⟨_, reached, walked⟩
  · rintro ⟨step, reached, records⟩
    exact mem_carryOut_of_reached finished reached records

end AnnotationMetadata.Walk
