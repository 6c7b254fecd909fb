import AnnotationMetadata.Proofs.Walk.Declaration

set_option autoImplicit false

/-!
# Depth of walks

A walk is cut off exactly when it goes down more levels than it is given. A walk
that ends records the same however many more levels it could have had.
-/

namespace AnnotationMetadata.Walk

/-- A plan is cut off only in a walk that it goes on with. -/
theorem unfinished_mem_carryOut_iff {config : Config} {walk : Descent → Trace} {plan : Plan}
    {declared : Bool} (steps : ∀ step ∈ plan, step.DeclaredAs declared) :
    Recording.unfinished ∈ Plan.carryOut config walk plan ↔
      ∃ descent, .descend descent ∈ plan ∧ Recording.unfinished ∈ walk descent := by
  constructor
  · intro recorded
    obtain ⟨step, planned, recorded⟩ := List.mem_flatMap.mp recorded
    have known := steps step planned
    cases step with
    | record own =>
      have same : Recording.unfinished = own := List.mem_singleton.mp recorded
      have known : own.DeclaredAs declared := known
      exact absurd same.symm known.ne_unfinished
    | descend descent => exact ⟨descent, planned, recorded⟩
    | expand flag ancestors given =>
      exact absurd rfl (declaredAs_of_mem_inline given recorded).ne_unfinished
  · rintro ⟨descent, planned, recorded⟩
    exact List.mem_flatMap.mpr ⟨.descend descent, planned, recorded⟩

theorem unfinished_mem_stereotypes_succ_iff {context : Context} {levels : Nat}
    {descent : Descent} :
    Recording.unfinished ∈ stereotypes context (levels + 1) descent ↔
      ∃ below, .descend below ∈ level context descent ∧
        Recording.unfinished ∈ stereotypes context levels below :=
  unfinished_mem_carryOut_iff fun _ planned => (levelStep_of_mem_level planned).declaredAs

/-! ## More levels than needed -/

private theorem Plan.carryOut_congr {config : Config} {walk other : Descent → Trace} {plan : Plan}
    (same : ∀ descent, .descend descent ∈ plan → walk descent = other descent) :
    Plan.carryOut config walk plan = Plan.carryOut config other plan := by
  induction plan with
  | nil => rfl
  | cons step rest ih =>
    have others := ih fun descent member => same descent (List.mem_cons_of_mem _ member)
    have first : Step.carryOut config walk step = Step.carryOut config other step := by
      cases step with
      | record => rfl
      | descend descent => exact same descent List.mem_cons_self
      | expand => rfl
    simp only [Plan.carryOut, List.flatMap_cons] at others ⊢
    rw [first, others]

private theorem stereotypes_succ_of_finished {context : Context} {levels : Nat} {descent : Descent}
    (finished : Recording.unfinished ∉ stereotypes context levels descent) :
    stereotypes context (levels + 1) descent = stereotypes context levels descent := by
  induction levels generalizing descent with
  | zero => exact absurd (List.mem_singleton_self _) finished
  | succ levels ih =>
    apply Plan.carryOut_congr
    intro below planned
    apply ih
    exact fun cut => finished (unfinished_mem_stereotypes_succ_iff.mpr ⟨below, planned, cut⟩)

/-- A walk that ends within some levels is the same within more. -/
theorem stereotypes_eq_of_le {context : Context} {levels more : Nat} {descent : Descent}
    (finished : Recording.unfinished ∉ stereotypes context levels descent)
    (enough : levels ≤ more) :
    stereotypes context more descent = stereotypes context levels descent := by
  induction enough with
  | refl => rfl
  | step _ ih =>
    have still : Recording.unfinished ∉ stereotypes context _ descent := ih ▸ finished
    exact (stereotypes_succ_of_finished still).trans ih

end AnnotationMetadata.Walk
