import AnnotationMetadata.Proofs.Walk.Steps

set_option autoImplicit false

/-!
# Declared and inherited recordings

A walk is told whether the element itself declares what is walked. Every write
of the walk says the same, however it is reached: through aliases, extensions,
meta-annotations at any depth or interceptor bindings. A walk of one element
never promotes a scope.
-/

namespace AnnotationMetadata

/-- A recording that counts as declared, or as inherited, wherever that makes a
difference. -/
inductive Recording.DeclaredAs (declared : Bool) : Recording → Prop where
  | direct {name : String} {members : Members} {retention : Retention} :
      DeclaredAs declared (.write (.direct declared name members retention))
  | stereotype {parents : List String} {name : String} {members : Members}
      {retention : Retention} :
      DeclaredAs declared (.write (.stereotype declared parents name members retention))
  | occurrence {container : String} {occurrence : Annotation} :
      DeclaredAs declared (.write (.occurrence declared container occurrence))
  | stereotypeOccurrence {parents : List String} {container : String} {occurrence : Annotation} :
      DeclaredAs declared (.write (.stereotypeOccurrence declared parents container occurrence))
  | defaults {name : String} {members : Members} :
      DeclaredAs declared (.write (.defaults name members))
  | warning {element : Element} {message : String} : DeclaredAs declared (.warning element message)
  | read {value : ReadValue} : DeclaredAs declared (.read value)

/-- What is recorded for meta-annotations that come with an annotation. -/
inductive Recording.OfInline (declared : Bool) : Recording → Prop where
  | stereotype {parents : List String} {name : String} {members : Members}
      {retention : Retention} :
      OfInline declared (.write (.stereotype declared parents name members retention))
  | binding {binding : Annotation} :
      OfInline declared (.write (.occurrence declared Name.interceptorBindings binding))

theorem Recording.DeclaredAs.ne_unfinished {declared : Bool} {recording : Recording}
    (known : recording.DeclaredAs declared) : recording ≠ .unfinished := by
  intro same
  subst same
  cases known

namespace Placement

theorem write_declaredAs (placement : Placement) (declared : Bool) (name : String)
    (members : Members) (retention : Retention) :
    (placement.write declared name members retention).DeclaredAs declared := by
  cases placement with
  | direct => exact .direct
  | stereotype parents => exact .stereotype

private theorem writeOccurrence_declaredAs (placement : Placement) (declared : Bool)
    (container : String) (occurrence : Annotation) :
    (placement.writeOccurrence declared container occurrence).DeclaredAs declared := by
  cases placement with
  | direct => exact .occurrence
  | stereotype parents => exact .stereotypeOccurrence

theorem writeIn_declaredAs (placement : Placement) (declared : Bool) (container : Option String)
    (occurrence : Annotation) :
    (placement.writeIn declared container occurrence).DeclaredAs declared := by
  cases container with
  | none => exact placement.write_declaredAs declared _ _ _
  | some container => exact placement.writeOccurrence_declaredAs declared container occurrence

end Placement

namespace Walk

/-! ## Steps -/

/-- A step that counts as declared, or as inherited, wherever that makes a
difference. -/
def Step.DeclaredAs (declared : Bool) : Step → Prop
  | .record recording => recording.DeclaredAs declared
  | .descend descent => descent.declared = declared
  | .expand own _ _ => own = declared

theorem AliasStep.declaredAs {context : Context} {source : Source} {target : Annotation}
    {step : Step} (taken : AliasStep context source target step) :
    step.DeclaredAs source.declared := by
  cases taken with
  | defaults => exact .defaults
  | alone => exact .stereotype
  | grouped => exact .stereotypeOccurrence
  | descend => rfl
  | expand => rfl

theorem ReadStep.declaredAs {context : Context} {source : Source} {step : Step}
    (taken : ReadStep context source step) : step.DeclaredAs source.declared := by
  cases taken with
  | defaults => exact .defaults
  | read => exact .read
  | aliased _ _ _ written => exact written.declaredAs

theorem MappedStep.declaredAs {context : Context} {originating : Element} {declared : Bool}
    {step : Step} (taken : MappedStep context originating declared step) :
    step.DeclaredAs declared := by
  cases taken with
  | written => exact Placement.direct.writeIn_declaredAs declared _ _
  | completed => exact Placement.direct.write_declaredAs declared _ _ _
  | read _ read => exact read.declaredAs
  | defaults => exact .defaults
  | descend => rfl

theorem ReplacementStep.declaredAs {context : Context} {declared : Bool} {placement : Placement}
    {name : String} {step : Step} (taken : ReplacementStep context declared placement name step) :
    step.DeclaredAs declared := by
  cases taken with
  | itself => exact placement.writeIn_declaredAs declared _ _
  | returned => exact placement.writeIn_declaredAs declared _ _
  | expand => rfl
  | descend => rfl

theorem LevelStep.declaredAs {context : Context} {descent : Descent} {step : Step}
    (taken : LevelStep context descent step) : step.DeclaredAs descent.declared := by
  cases taken with
  | read _ _ read => exact read.declaredAs
  | mapped _ _ mapped => exact mapped.declaredAs
  | replaced _ _ replaced => exact replaced.declaredAs
  | descend => rfl
  | binding => exact .occurrence

theorem ElementStep.declaredAs {context : Context} {element : Element} {declared : Bool}
    {annotations : List Annotation} {step : Step}
    (taken : ElementStep context element declared annotations step) :
    step.DeclaredAs declared := by
  cases taken with
  | warning => exact .warning
  | read _ _ read => exact read.declaredAs
  | mapped _ _ mapped => exact mapped.declaredAs
  | replaced _ _ replaced => exact replaced.declaredAs
  | descend => rfl

theorem AdditionStep.declaredAs {context : Context} {given : Annotation} {step : Step}
    (taken : AdditionStep context given step) : step.DeclaredAs true := by
  cases taken with
  | written => exact Placement.direct.writeIn_declaredAs true _ _
  | defaults => exact .defaults
  | descend => rfl

/-! ## Meta-annotations that come with an annotation -/

mutual

theorem ofInline_of_mem_inline {config : Config} {declared : Bool} {ancestors : List String}
    {recording : Recording} : (given : Annotation) →
    recording ∈ inline config declared ancestors given → recording.OfInline declared
  | ⟨name, _, _, stereotypes⟩, recorded => by
    simp only [inline, List.mem_append, List.mem_map] at recorded
    rcases recorded with (⟨stereotype, _, written⟩ | below) | bound
    · subst written
      exact .stereotype
    · exact ofInline_of_mem_inlineAll stereotypes below
    · obtain ⟨binding, rfl⟩ := exists_of_mem_bindingTrace bound
      exact .binding

theorem ofInline_of_mem_inlineAll {config : Config} {declared : Bool} {chain : List String}
    {owner : String} {recording : Recording} : (stereotypes : List Annotation) →
    recording ∈ inlineAll config declared chain owner stereotypes → recording.OfInline declared
  | [], recorded => by cases recorded
  | stereotype :: rest, recorded => by
    rcases List.mem_append.mp recorded with first | others
    · split at first
      · exact ofInline_of_mem_inline stereotype first
      · cases first
    · exact ofInline_of_mem_inlineAll rest others

end

theorem declaredAs_of_mem_inline {config : Config} {declared : Bool} {ancestors : List String}
    {recording : Recording} (given : Annotation)
    (recorded : recording ∈ inline config declared ancestors given) :
    recording.DeclaredAs declared := by
  cases ofInline_of_mem_inline given recorded with
  | stereotype => exact .stereotype
  | binding => exact .occurrence

/-! ## Whole walks -/

/-- What a walk below a plan records is declared like the plan, or else cut off. -/
theorem Plan.declaredAs_of_mem_carryOut {config : Config} {walk : Descent → Trace}
    {declared : Bool} {plan : Plan} (steps : ∀ step ∈ plan, step.DeclaredAs declared)
    (walks : ∀ descent, ∀ recording ∈ walk descent,
      recording = .unfinished ∨ recording.DeclaredAs descent.declared)
    {recording : Recording} (recorded : recording ∈ Plan.carryOut config walk plan) :
    recording = .unfinished ∨ recording.DeclaredAs declared := by
  obtain ⟨step, planned, recorded⟩ := List.mem_flatMap.mp recorded
  have own := steps step planned
  cases step with
  | record own' =>
    cases List.mem_singleton.mp recorded
    exact .inr own
  | descend descent =>
    have same : descent.declared = declared := own
    exact same ▸ walks descent recording recorded
  | expand flag ancestors given =>
    have same : flag = declared := own
    subst same
    exact .inr (declaredAs_of_mem_inline given recorded)

theorem declaredAs_of_mem_stereotypes {context : Context} {levels : Nat} {descent : Descent}
    {recording : Recording} (recorded : recording ∈ stereotypes context levels descent) :
    recording = .unfinished ∨ recording.DeclaredAs descent.declared := by
  induction levels generalizing descent recording with
  | zero => exact .inl (List.mem_singleton.mp recorded)
  | succ levels ih =>
    exact Plan.declaredAs_of_mem_carryOut
      (fun step planned => (levelStep_of_mem_level planned).declaredAs)
      (fun below recording recorded => ih recorded) recorded

/-- Everything that is recorded for one element counts as declared, or everything
as inherited. -/
theorem declaredAs_of_mem_occurrences {context : Context} {element : Element}
    {declared aliases : Bool} {annotations : List Annotation} {recording : Recording}
    (recorded : recording ∈
      carryOut context (occurrences context element declared aliases annotations)) :
    recording = .unfinished ∨ recording.DeclaredAs declared :=
  Plan.declaredAs_of_mem_carryOut
    (fun _ planned => (elementStep_of_mem_occurrences planned).declaredAs)
    (fun _ _ recorded => declaredAs_of_mem_stereotypes recorded) recorded

end Walk

end AnnotationMetadata
