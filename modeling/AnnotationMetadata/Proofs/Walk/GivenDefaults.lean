import AnnotationMetadata.Proofs.Store.GivenDefaults
import AnnotationMetadata.Proofs.Walk.Grounded
import AnnotationMetadata.Proofs.Walk.Recordings

set_option autoImplicit false

/-!
# Defaults that walks give

All defaults that a walk gives are the declared ones. Which annotations it gives them for
depends on how it reaches them: reading an occurrence asks for its retention, following an
alias to another annotation and adding an annotation do not.
-/

namespace AnnotationMetadata

/-- A member of some annotation is an alias for a member of this one. -/
def Model.IsAliasTarget (model : Model) (name : String) : Prop :=
  ∃ owner member, ∃ found ∈ model.aliasesOf (.member owner member), found.target = some name

/-- All annotations that a recording gives defaults for have a property. -/
def Recording.GivesFor (P : String → Prop) (recording : Recording) : Prop :=
  ∀ entry ∈ recording.given, P entry.1

theorem Recording.GivesFor.mono {P Q : String → Prop} {recording : Recording}
    (gives : recording.GivesFor P) (weaker : ∀ name, P name → Q name) : recording.GivesFor Q :=
  fun entry listed => weaker _ (gives entry listed)

theorem Placement.writeIn_given (placement : Placement) (declared : Bool)
    (container : Option String) (occurrence : Annotation) :
    (placement.writeIn declared container occurrence).given = [] := by
  cases placement <;> cases container <;> rfl

namespace Walk

variable {context : Context}

/-! ## Declared defaults -/

theorem IsStart.givesDeclared {plan : Plan} (start : IsStart context plan) :
    Trace.GivesDeclared context.model (carryOut context plan) := by
  have grounded : plan.Grounded context [] := by
    cases start with
    | occurrences element declared aliases annotations => exact occurrences_grounded _ _ _ _
    | addition given => exact addition_grounded given
  exact fun _ _ recorded => (trace_grounded grounded _ recorded).2

theorem OfElements.givesDeclared {name : String} {members : Members}
    (walked : OfElements context (.write (.defaults name members))) :
    members = context.model.defaultsOf name := by
  cases walked with
  | walked recorded => exact (IsStart.occurrences _ _ _ _).givesDeclared _ _ recorded

/-! ## Guarded and unguarded defaults -/

/-- The defaults of the annotation are kept at runtime, or else an alias gives them. -/
def GivenByReading (context : Context) (name : String) : Prop :=
  context.model.retentionOf name = .runtime ∨
    (context.model.annotationType? name).isSome ∧ context.model.IsAliasTarget name

/-- What the step itself records gives defaults for such annotations only. -/
def Step.GivesFor (P : String → Prop) : Step → Prop
  | .record recording => recording.GivesFor P
  | .descend _ => True
  | .expand _ _ _ => True

section Steps

variable (empty : context.registry = .empty) {step : Step}

include empty

theorem remapTarget_of_empty (target : String) :
    remapTarget context target = [{ name := target }] := by
  have remappers : context.registry.remappersFor target = [] := by rw [empty]; rfl
  simp only [remapTarget, remappers]

theorem ReadStep.givesFor {source : Source} (taken : ReadStep context source step) :
    step.GivesFor (GivenByReading context) := by
  cases taken with
  | defaults kept =>
    intro entry listed
    cases List.mem_singleton.mp listed
    exact .inl kept
  | read => exact fun _ none => nomatch none
  | aliased listed named remapped taken =>
    rw [remapTarget_of_empty empty] at remapped
    cases List.mem_singleton.mp remapped
    cases taken with
    | defaults known =>
      intro entry listed
      cases List.mem_singleton.mp listed
      exact .inr ⟨known, _, _, _, ‹_›, named⟩
    | alone => exact fun _ none => nomatch none
    | grouped => exact fun _ none => nomatch none
    | descend => trivial
    | expand => trivial

theorem ReplacementStep.givesFor {declared : Bool} {placement : Placement} {name : String}
    (taken : ReplacementStep context declared placement name step) (P : String → Prop) :
    step.GivesFor P := by
  obtain ⟨members, rfl⟩ := taken.eq_itself empty
  intro entry listed
  rw [Placement.writeIn_given] at listed
  cases listed

theorem LevelStep.givesFor {descent : Descent} (taken : LevelStep context descent step) :
    step.GivesFor (GivenByReading context) := by
  cases taken with
  | read _ _ read => exact read.givesFor empty
  | mapped _ registered => exact absurd (mappers_of_empty empty _) registered
  | replaced _ _ replaced => exact replaced.givesFor empty _
  | descend => trivial
  | binding => exact fun _ none => nomatch none

theorem ElementStep.givesFor {element : Element} {declared : Bool} {annotations : List Annotation}
    (taken : ElementStep context element declared annotations step) :
    step.GivesFor (GivenByReading context) := by
  cases taken with
  | warning => exact fun _ none => nomatch none
  | read _ _ read => exact read.givesFor empty
  | mapped _ registered => exact absurd (mappers_of_empty empty _) registered
  | replaced _ _ replaced => exact replaced.givesFor empty _
  | descend => trivial

end Steps

theorem AdditionStep.givesFor {given : Annotation} {step : Step}
    (taken : AdditionStep context given step) :
    step.GivesFor fun name =>
      name = given.name ∧ (context.model.annotationType? name).isSome := by
  cases taken with
  | written =>
    intro entry listed
    rw [Placement.writeIn_given] at listed
    cases listed
  | defaults known =>
    intro entry listed
    cases List.mem_singleton.mp listed
    exact ⟨rfl, known⟩
  | descend => trivial

/-! ## Walks -/

theorem Step.givesFor_of_mem_carryOut {P : String → Prop} {config : Config}
    {walk : Descent → Trace} {step : Step} (own : step.GivesFor P)
    (walks : ∀ descent, ∀ recording ∈ walk descent, recording.GivesFor P) {recording : Recording}
    (recorded : recording ∈ step.carryOut config walk) : recording.GivesFor P := by
  cases step with
  | record own' => exact List.mem_singleton.mp recorded ▸ own
  | descend descent => exact walks descent recording recorded
  | expand declared ancestors given =>
    cases ofInline_of_mem_inline given recorded with
    | stereotype => exact fun _ none => nomatch none
    | binding => exact fun _ none => nomatch none

section Walks

variable (empty : context.registry = .empty) {recording : Recording}

include empty

theorem givesFor_of_mem_stereotypes {levels : Nat} {descent : Descent}
    (recorded : recording ∈ stereotypes context levels descent) :
    recording.GivesFor (GivenByReading context) := by
  induction levels generalizing descent recording with
  | zero =>
    cases List.mem_singleton.mp recorded
    exact fun _ none => nomatch none
  | succ levels ih =>
    obtain ⟨step, planned, recorded⟩ := List.mem_flatMap.mp recorded
    exact Step.givesFor_of_mem_carryOut ((levelStep_of_mem_level planned).givesFor empty)
      (fun _ _ below => ih below) recorded

theorem OfElements.givesFor (walked : OfElements context recording) :
    recording.GivesFor (GivenByReading context) := by
  cases walked with
  | walked recorded =>
    obtain ⟨step, planned, recorded⟩ := List.mem_flatMap.mp recorded
    exact Step.givesFor_of_mem_carryOut ((elementStep_of_mem_occurrences planned).givesFor empty)
      (fun _ _ below => givesFor_of_mem_stereotypes empty below) recorded
  | promoteScope => exact fun _ none => nomatch none

/-- Adding an annotation gives its own defaults, whatever its retention is. -/
theorem givesFor_of_mem_added {given : Annotation} (recorded : recording ∈ added context given) :
    recording.GivesFor fun name => GivenByReading context name ∨
      name = given.name ∧ (context.model.annotationType? name).isSome := by
  obtain ⟨step, planned, recorded⟩ := List.mem_flatMap.mp recorded
  have own := (additionStep_of_mem_addition planned).givesFor
  cases step with
  | record itself =>
    rw [List.mem_singleton.mp recorded]
    exact fun entry listed => .inr (own entry listed)
  | descend descent => exact (givesFor_of_mem_stereotypes empty recorded).mono fun _ => .inl
  | expand => nomatch additionStep_of_mem_addition planned

end Walks

theorem defaults_mem_added {given : Annotation}
    (known : (context.model.annotationType? given.name).isSome) :
    context.defaults given.name ∈ added context given := by
  have declared : (context.model.annotationType? given.name).isNone = false := by
    simpa [Option.isSome_iff_ne_none] using known
  refine List.mem_flatMap.mpr ⟨.record (context.defaults given.name), ?_, List.mem_singleton_self _⟩
  simp [addition, declared]

end Walk

end AnnotationMetadata
