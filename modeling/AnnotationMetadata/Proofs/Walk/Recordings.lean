import AnnotationMetadata.Proofs.Walk.Chain
import AnnotationMetadata.Proofs.Walk.Hierarchy
import AnnotationMetadata.Proofs.Walk.Reading

set_option autoImplicit false

/-!
# Recordings without extensions

Without extensions, the annotations of an element are written once for each
occurrence on it. Everything else that its walk writes are defaults, stereotypes
and interceptor bindings, and stereotypes are grouped in containers only.
-/

namespace AnnotationMetadata

/-- What is recorded for the members and the meta-annotations of an occurrence. -/
inductive Recording.OfMeta (model : Model) : Recording → Prop where
  | defaults {name : String} {members : Members} : OfMeta model (.write (.defaults name members))
  | stereotype {declared : Bool} {parents : List String} {name : String} {members : Members}
      {retention : Retention} :
      OfMeta model (.write (.stereotype declared parents name members retention))
  | grouped {declared : Bool} {parents : List String} {container : String}
      {occurrence : Annotation} (groups : model.isContainer container = true) :
      OfMeta model (.write (.stereotypeOccurrence declared parents container occurrence))
  | binding {declared : Bool} {binding : Annotation} :
      OfMeta model (.write (.occurrence declared Name.interceptorBindings binding))
  | read {value : ReadValue} : OfMeta model (.read value)
  | unfinished : OfMeta model .unfinished

theorem Model.isContainer_of_containerOf? {model : Model} {name container : String}
    (found : model.containerOf? name = some container) : model.isContainer container = true := by
  obtain ⟨declaration, known, grouped⟩ := Option.bind_eq_some_iff.mp found
  exact List.any_eq_true.mpr ⟨_, Dict.mem_of_get?_eq_some known, by simp [grouped]⟩

theorem flatMap_if_eq_map_filter {α β : Type} (items : List α) (p : α → Bool) (f : α → β) :
    (items.flatMap fun item => if p item then [f item] else []) = (items.filter p).map f := by
  induction items with
  | nil => rfl
  | cons item rest ih =>
    rw [List.flatMap_cons, ih, List.filter_cons]
    cases p item <;> rfl

namespace Walk

variable {context : Context}

/-! ## Steps -/

/-- What the step itself records is of that kind. -/
def Step.OfMeta (model : Model) : Step → Prop
  | .record recording => recording.OfMeta model
  | .descend _ => True
  | .expand _ _ _ => True

theorem ReadStep.ofMeta {source : Source} {step : Step} (taken : ReadStep context source step) :
    step.OfMeta context.model := by
  cases taken with
  | defaults => exact .defaults
  | read => exact .read
  | aliased _ _ _ written =>
    cases written with
    | defaults => exact .defaults
    | alone => exact .stereotype
    | grouped found => exact .grouped (Model.isContainer_of_containerOf? found)
    | descend => trivial
    | expand => trivial

theorem ReplacementStep.eq_itself (empty : context.registry = .empty) {declared : Bool}
    {placement : Placement} {name : String} {step : Step}
    (taken : ReplacementStep context declared placement name step) :
    ∃ members, step = .record (placement.writeIn declared (context.model.containerOf? name)
      { name, members, retention := context.model.retentionOf name }) := by
  have unreplaced := not_replaces_of_empty empty name
  cases taken with
  | itself => exact ⟨_, rfl⟩
  | returned registered => exact absurd registered unreplaced
  | expand registered => exact absurd registered unreplaced
  | descend registered => exact absurd registered unreplaced

theorem LevelStep.ofMeta (empty : context.registry = .empty) {descent : Descent} {step : Step}
    (taken : LevelStep context descent step) : step.OfMeta context.model := by
  cases taken with
  | read _ _ read => exact read.ofMeta
  | mapped _ registered => exact absurd (mappers_of_empty empty _) registered
  | @replaced occurrence _ _ _ replaced =>
    obtain ⟨members, rfl⟩ := replaced.eq_itself empty
    cases found : context.model.containerOf? occurrence.name with
    | none => exact .stereotype
    | some container => exact .grouped (Model.isContainer_of_containerOf? found)
  | descend => trivial
  | binding => exact .binding

/-! ## Walks -/

theorem Step.ofMeta_of_mem_carryOut {model : Model} {config : Config} {walk : Descent → Trace}
    {step : Step} (own : step.OfMeta model)
    (walks : ∀ descent, ∀ recording ∈ walk descent, recording.OfMeta model)
    {recording : Recording} (recorded : recording ∈ step.carryOut config walk) :
    recording.OfMeta model := by
  cases step with
  | record own' => exact List.mem_singleton.mp recorded ▸ own
  | descend descent => exact walks descent recording recorded
  | expand declared ancestors given =>
    cases ofInline_of_mem_inline given recorded with
    | stereotype => exact .stereotype
    | binding => exact .binding

theorem ofMeta_of_mem_stereotypes (empty : context.registry = .empty) {levels : Nat}
    {descent : Descent} {recording : Recording}
    (recorded : recording ∈ stereotypes context levels descent) :
    recording.OfMeta context.model := by
  induction levels generalizing descent recording with
  | zero =>
    cases List.mem_singleton.mp recorded
    exact .unfinished
  | succ levels ih =>
    obtain ⟨step, planned, recorded⟩ := List.mem_flatMap.mp recorded
    exact Step.ofMeta_of_mem_carryOut ((levelStep_of_mem_level planned).ofMeta empty)
      (fun below recording recorded => ih recorded) recorded

/-! ## Elements -/

/-- The occurrences on an element that are recorded. -/
def recordedOn (context : Context) (element : Element) : List Annotation :=
  (context.model.occurrencesOn element).filter fun occurrence =>
    !context.config.isInternal occurrence.name

/-- How an occurrence on an element is written when nothing replaces it. -/
def occurrenceWrite (context : Context) (declared aliases : Bool) (occurrence : Annotation) :
    Recording :=
  Placement.direct.writeIn declared (context.model.containerOf? occurrence.name)
    (context.model.reading aliases occurrence)

theorem replace_of_empty (empty : context.registry = .empty) (declared : Bool)
    (placement : Placement) (name : String) (members : Members) :
    replace context declared placement name members =
      ⟨[.record (placement.writeIn declared (context.model.containerOf? name)
        { name, members, retention := context.model.retentionOf name })], true⟩ := by
  have remappers : context.registry.remappersFor name = [] := by rw [empty]; rfl
  have transformers : context.registry.transformers name = [] := by rw [empty]; rfl
  simp only [replace, remappers, transformers]

theorem populate_mapped_of_empty (empty : context.registry = .empty) (originating : Element)
    (declared aliases : Bool) (enclosing : List String) (occurrence : Annotation) :
    (populate context originating declared aliases enclosing occurrence).mapped = false := by
  simp only [populate, mappers_of_empty empty]

theorem ofMeta_of_mem_elementTrace (empty : context.registry = .empty) {target current : Element}
    {aliases : Bool} {recording : Recording}
    (recorded : recording ∈ elementTrace context target aliases current) :
    recording.OfMeta context.model ∨ (∃ message, recording = .warning current message) ∨
      ∃ container occurrence,
        recording = Placement.direct.writeIn (current == target) container occurrence := by
  obtain ⟨step, planned, recorded⟩ := List.mem_flatMap.mp recorded
  cases elementStep_of_mem_occurrences planned with
  | warning => exact .inr (.inl ⟨_, List.mem_singleton.mp recorded⟩)
  | read _ _ read =>
    exact .inl (Step.ofMeta_of_mem_carryOut read.ofMeta
      (fun _ _ recorded => ofMeta_of_mem_stereotypes empty recorded) recorded)
  | mapped _ registered => exact absurd (mappers_of_empty empty _) registered
  | replaced _ _ replaced =>
    obtain ⟨members, rfl⟩ := replaced.eq_itself empty
    exact .inr (.inr ⟨_, _, List.mem_singleton.mp recorded⟩)
  | descend => exact .inl (ofMeta_of_mem_stereotypes empty recorded)

/-! ## Views -/

section View

variable {α : Type}

/-- What a view shows of everything that a plan records. -/
def shown (context : Context) (view : Recording → List α) (plan : Plan) : List α :=
  (carryOut context plan).flatMap view

theorem shown_append (view : Recording → List α) (first second : Plan) :
    shown context view (first ++ second) =
      shown context view first ++ shown context view second := by
  simp only [shown, carryOut, Plan.carryOut, List.flatMap_append]

theorem shown_flatMap {β : Type} (view : Recording → List α) (items : List β) (plan : β → Plan) :
    shown context view (items.flatMap plan) =
      items.flatMap fun item => shown context view (plan item) := by
  simp only [shown, carryOut, Plan.carryOut, List.flatMap_assoc]

variable (empty : context.registry = .empty) {view : Recording → List α}
  (warnings : ∀ element message, view (.warning element message) = [])
  (ofMeta : ∀ recording : Recording, recording.OfMeta context.model → view recording = [])

include empty ofMeta

theorem shown_eq_nil {plan : Plan} (own : ∀ step ∈ plan, step.OfMeta context.model) :
    shown context view plan = [] := by
  refine List.flatMap_eq_nil_iff.mpr fun recording recorded => ofMeta recording ?_
  obtain ⟨step, planned, recorded⟩ := List.mem_flatMap.mp recorded
  exact Step.ofMeta_of_mem_carryOut (own step planned)
    (fun _ _ recorded => ofMeta_of_mem_stereotypes empty recorded) recorded

include warnings

private theorem shown_includeOne (target current : Element) (aliases : Bool)
    (occurrence : Annotation) :
    shown context view (includeOne context current (current == target) aliases occurrence).plan =
      view (occurrenceWrite context (current == target) aliases occurrence) := by
  have unwarned : shown context view
      (Plan.ofTrace (deprecation context.config current occurrence.name)) = [] := by
    unfold deprecation
    split
    · simp [shown, carryOut, Plan.carryOut, Plan.ofTrace, Step.carryOut, warnings]
    · rfl
  have unread : shown context view
      (populate context current (current == target) aliases [] occurrence).plan = [] := by
    refine shown_eq_nil empty ofMeta fun step planned => ?_
    rcases step_of_mem_populate planned with read | ⟨registered, _⟩
    · exact read.ofMeta
    · exact absurd (mappers_of_empty empty _) registered
  simp only [includeOne, populate_mapped_of_empty empty, replace_of_empty empty,
    Bool.false_eq_true, if_false, shown_append, unwarned, unread, List.nil_append]
  simp [shown, carryOut, Plan.carryOut, Step.carryOut, occurrenceWrite, populate_members,
    Model.reading]

/-- Apart from warnings, the walk of an element writes its occurrences and what belongs
to their members and meta-annotations. -/
theorem flatMap_elementTrace (target current : Element) (aliases : Bool) :
    (elementTrace context target aliases current).flatMap view =
      (recordedOn context current).flatMap fun occurrence =>
        view (occurrenceWrite context (current == target) aliases occurrence) := by
  have seen : (elementTrace context target aliases current).flatMap view =
      shown context view (occurrences context current (current == target) aliases
        (context.model.occurrencesOn current)) := rfl
  rw [seen, occurrences, shown_append, shown_flatMap, List.flatMap_map]
  simp only [shown_includeOne empty warnings ofMeta]
  rw [shown_eq_nil empty ofMeta, List.append_nil]
  · rfl
  intro step planned
  obtain ⟨item, _, rfl⟩ := List.mem_map.mp planned
  trivial

end View

end Walk

end AnnotationMetadata
