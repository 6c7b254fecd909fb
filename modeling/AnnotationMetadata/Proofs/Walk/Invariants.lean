import AnnotationMetadata.Proofs.Walk.GivenDefaults

set_option autoImplicit false

/-!
# Invariants of walks

A walk starts with a plan, and each of its levels plans what is below. What holds of every
recording that a level plans, as long as the walks that it goes on with keep an invariant,
holds of everything that the walk records.
-/

namespace AnnotationMetadata.Walk

variable {context : Context} {P : Recording → Prop} {Q : Descent → Prop}

/-- What the step itself records has the one property, and the walk that it starts the
other. -/
def Step.Keeps (config : Config) (P : Recording → Prop) (Q : Descent → Prop) : Step → Prop
  | .record recording => P recording
  | .descend descent => Q descent
  | .expand declared ancestors given =>
    ∀ recording ∈ inline config declared ancestors given, P recording

theorem Step.Keeps.of_mem_carryOut {config : Config} {walk : Descent → Trace} {step : Step}
    (keeps : step.Keeps config P Q)
    (walks : ∀ descent, Q descent → ∀ recording ∈ walk descent, P recording)
    {recording : Recording} (recorded : recording ∈ step.carryOut config walk) : P recording := by
  cases step with
  | record own => exact List.mem_singleton.mp recorded ▸ keeps
  | descend descent => exact walks descent keeps recording recorded
  | expand declared ancestors given => exact keeps recording recorded

theorem Step.Keeps.mono {config : Config} {P' : Recording → Prop} {step : Step}
    (keeps : step.Keeps config P Q) (weaker : ∀ recording, P recording → P' recording) :
    step.Keeps config P' Q := by
  cases step with
  | record own => exact weaker own keeps
  | descend descent => exact keeps
  | expand => exact fun recording inside => weaker recording (keeps recording inside)

section Levels

variable (cut : P .unfinished)
  (levels : ∀ descent, Q descent → ∀ step ∈ level context descent,
    step.Keeps context.config P Q)

include cut levels

/-- By induction on the levels: below a descent that has the invariant there are only such. -/
private theorem holds_of_mem_stereotypes {budget : Nat} {descent : Descent} (holds : Q descent)
    {recording : Recording} (recorded : recording ∈ stereotypes context budget descent) :
    P recording := by
  induction budget generalizing descent recording with
  | zero => exact List.mem_singleton.mp recorded ▸ cut
  | succ budget ih =>
    obtain ⟨step, planned, recorded⟩ := List.mem_flatMap.mp recorded
    exact (levels descent holds step planned).of_mem_carryOut
      (fun _ below _ walked => ih below walked) recorded

theorem holds_of_mem_carryOut_of_level {plan : Plan}
    (steps : ∀ step ∈ plan, step.Keeps context.config P Q) {recording : Recording}
    (recorded : recording ∈ carryOut context plan) : P recording := by
  obtain ⟨step, planned, recorded⟩ := List.mem_flatMap.mp recorded
  exact (steps step planned).of_mem_carryOut
    (fun _ below _ walked => holds_of_mem_stereotypes cut levels below walked) recorded

end Levels

theorem holds_of_mem_carryOut (cut : P .unfinished)
    (levels : ∀ descent, Q descent → ∀ step, LevelStep context descent step →
      step.Keeps context.config P Q)
    {plan : Plan} (steps : ∀ step ∈ plan, step.Keeps context.config P Q) {recording : Recording}
    (recorded : recording ∈ carryOut context plan) : P recording :=
  holds_of_mem_carryOut_of_level cut
    (fun descent holds step planned =>
      levels descent holds step (levelStep_of_mem_level planned)) steps recorded

/-! ## Annotations that others lead to -/

/-- Another annotation leads to this one: an annotation type carries it and it is recorded,
or it has a member that some alias stands for. -/
inductive LedTo (context : Context) (name : String) : Prop where
  | carried {owner : String} {occurrence : Annotation}
      (present : occurrence ∈ context.model.occurrencesOn (.annotationType owner))
      (named : occurrence.name = name) (recorded : context.config.isInternal name = false) :
      LedTo context name
  | aliased (target : context.model.IsAliasTarget name) : LedTo context name

theorem isInternal_of_isWalked {config : Config} {chain : List String} {owner : String}
    {excludes : List String} {name : String}
    (walked : isWalked config chain owner excludes name = true) :
    config.isInternal name = false := by
  simp only [isWalked, Bool.and_eq_true, Bool.not_eq_true'] at walked
  exact walked.1.1.2

theorem fresh_of_isWalked {config : Config} {chain : List String} {owner : String}
    {excludes : List String} {name : String}
    (walked : isWalked config chain owner excludes name = true) :
    name ∉ chain ∧ name ∉ excludes := by
  simp only [isWalked, Bool.and_eq_true, Bool.not_eq_true'] at walked
  obtain ⟨⟨⟨fresh, -⟩, unskipped⟩, -⟩ := walked
  exact ⟨by simpa using fresh, by simpa using unskipped⟩

/-- An annotation without meta-annotations of its own has nothing to walk. -/
theorem inline_of_bare (config : Config) (declared : Bool) (ancestors : List String)
    {given : Annotation} (bare : given.stereotypes = []) :
    inline config declared ancestors given = [] := by
  obtain ⟨name, members, retention, stereotypes⟩ := given
  cases bare
  rfl

end AnnotationMetadata.Walk
