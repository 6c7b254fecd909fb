import AnnotationMetadata.Proofs.Walk.Hierarchy
import AnnotationMetadata.Proofs.Walk.Reading
import AnnotationMetadata.Proofs.Walk.Remapping
import AnnotationMetadata.Walk.Element

set_option autoImplicit false

/-!
# Walks under another registry

A walk looks extensions up for the occurrences that it meets and for the targets of
aliases, all of which the model or the request names. Registries that treat those alike
make no difference to any walk.
-/

namespace AnnotationMetadata

def Context.withRegistry (context : Context) (registry : Registry) : Context :=
  { context with registry }

/-! ## What extensions are looked up for -/

/-- The occurrences that a walk meets, with or without their aliases being followed. -/
inductive Met (model : Model) (given : List Annotation) : Bool → Annotation → Prop where
  | carried {element : Element} {occurrence : Annotation}
      (listed : occurrence ∈ model.occurrencesOn element) : Met model given true occurrence
  | validated {owner member : String} {occurrence : Annotation}
      (listed : occurrence ∈ model.occurrencesOn (.member owner member)) :
      Met model given false occurrence
  | given {occurrence : Annotation} (listed : occurrence ∈ given) :
      Met model given true occurrence

/-- The occurrences that remappers can be asked about: recorded ones, as they are read
from the model or from a list of given ones. -/
inductive Asked (context : Context) (given : List Annotation) : Annotation → Prop where
  | carried {element : Element} {occurrence : Annotation}
      (listed : occurrence ∈ context.model.occurrencesOn element)
      (recorded : context.config.isInternal occurrence.name = false)
      (unmapped : context.registry.mappers occurrence.name = []) :
      Asked context given (context.model.reading true occurrence)
  | validated {owner member : String} {occurrence : Annotation}
      (listed : occurrence ∈ context.model.occurrencesOn (.member owner member))
      (recorded : context.config.isInternal occurrence.name = false)
      (unmapped : context.registry.mappers occurrence.name = []) :
      Asked context given (context.model.reading false occurrence)
  | given {occurrence : Annotation} (listed : occurrence ∈ given)
      (recorded : context.config.isInternal occurrence.name = false)
      (unmapped : context.registry.mappers occurrence.name = []) :
      Asked context given (context.model.reading true occurrence)

def AliasTarget (model : Model) (name : String) : Prop :=
  ∃ owner member, ∃ found ∈ model.aliasesOf (.member owner member), found.target = some name

theorem Met.asked {context : Context} {given : List Annotation} {aliases : Bool}
    {occurrence : Annotation} (met : Met context.model given aliases occurrence)
    (recorded : context.config.isInternal occurrence.name = false)
    (unmapped : context.registry.mappers occurrence.name = []) :
    Asked context given (context.model.reading aliases occurrence) := by
  cases met with
  | carried listed => exact .carried listed recorded unmapped
  | validated listed => exact .validated listed recorded unmapped
  | given listed => exact .given listed recorded unmapped

theorem Asked.exists_met {context : Context} {given : List Annotation} {read : Annotation}
    (asked : Asked context given read) :
    ∃ aliases occurrence, Met context.model given aliases occurrence ∧
      read = context.model.reading aliases occurrence := by
  cases asked with
  | carried listed => exact ⟨_, _, .carried listed, rfl⟩
  | validated listed => exact ⟨_, _, .validated listed, rfl⟩
  | given listed => exact ⟨_, _, .given listed, rfl⟩

/-- The registry treats everything that a walk looks up as that of the context does. -/
structure Context.TreatsAlike (context : Context) (given : List Annotation) (other : Registry) :
    Prop where
  mappers : ∀ aliases occurrence, Met context.model given aliases occurrence →
    other.mappers occurrence.name = context.registry.mappers occurrence.name
  replace : ∀ {name members}, Asked context given (context.model.stored name members) →
    ∀ declared placement,
      Walk.replace (context.withRegistry other) declared placement name members =
        Walk.replace context declared placement name members
  targets : ∀ name, AliasTarget context.model name →
    Walk.remapTarget (context.withRegistry other) name = Walk.remapTarget context name

namespace Walk

variable {context : Context} {given : List Annotation} {other : Registry}

section Alike

variable (alike : context.TreatsAlike given other)

include alike

/-! ## Members -/

private theorem followAlias_withRegistry {source : Source} {member : String} {found : MemberAlias}
    (listed : found ∈ context.model.aliasesOf (.member source.annotation member))
    (written : Value) (progress : Progress) :
    followAlias (context.withRegistry other) source written progress found =
      followAlias context source written progress found := by
  unfold followAlias
  cases named : found.target with
  | none => rfl
  | some target =>
    dsimp only
    rw [alike.targets target ⟨_, member, found, listed, named⟩]
    rfl

theorem readAliased_withRegistry (source : Source) (progress : Progress)
    (entry : String × Value) :
    readAliased (context.withRegistry other) source progress entry =
      readAliased context source progress entry := by
  have aliases : ∀ start : Progress,
      (context.model.aliasesOf (.member source.annotation entry.1)).foldl
          (followAlias (context.withRegistry other) source entry.2) start =
        (context.model.aliasesOf (.member source.annotation entry.1)).foldl
          (followAlias context source entry.2) start :=
    fun start => List.foldl_ext _ _ start fun progress found listed =>
      followAlias_withRegistry alike listed entry.2 progress
  exact congrArg (readOwn context source entry.1 entry.2) (aliases progress)

private theorem readMembers_withRegistry (source : Source) (aliases : Bool) (members : Members) :
    readMembers (context.withRegistry other) source aliases members =
      readMembers context source aliases members := by
  refine List.foldl_ext _ (readEntry context source aliases) _ fun progress entry _ => ?_
  cases aliases with
  | true => exact readAliased_withRegistry alike source _ entry
  | false => rfl

private theorem writeMapped_withRegistry (originating : Element) (declared : Bool)
    (mapped : Annotation) :
    writeMapped (context.withRegistry other) originating declared mapped =
      writeMapped context originating declared mapped := by
  have aliased : ∀ source, aliasedByMapped (context.withRegistry other) source mapped =
      aliasedByMapped context source mapped := by
    intro source
    unfold aliasedByMapped
    rw [List.foldl_ext _ (readAliased context source) _ fun progress entry _ =>
      readAliased_withRegistry alike source progress entry]
    rfl
  simp only [writeMapped, aliased]
  rfl

theorem populate_withRegistry (originating : Element) (declared : Bool) {aliases : Bool}
    (enclosing : List String) {occurrence : Annotation}
    (met : Met context.model given aliases occurrence) :
    populate (context.withRegistry other) originating declared aliases enclosing occurrence =
      populate context originating declared aliases enclosing occurrence := by
  have mapped : writeMapped (context.withRegistry other) originating declared =
      writeMapped context originating declared :=
    funext (writeMapped_withRegistry alike originating declared)
  have mappers : (context.withRegistry other).registry.mappers occurrence.name =
      context.registry.mappers occurrence.name := alike.mappers aliases occurrence met
  simp only [populate, readMembers_withRegistry alike, mapped, mappers]
  rfl

/-! ## Levels -/

private theorem readMeta_withRegistry {descent : Descent} {occurrence : Annotation}
    (listed : occurrence ∈ context.model.occurrencesOn (.annotationType descent.owner))
    (walked : isWalked context.config descent.chain descent.owner descent.excludes
      occurrence.name) :
    readMeta (context.withRegistry other) descent.declared descent.chain descent.owner occurrence =
      readMeta context descent.declared descent.chain descent.owner occurrence := by
  have met : Met context.model given true occurrence := .carried listed
  have populated := populate_withRegistry alike (.annotationType descent.owner)
    descent.declared descent.chain met
  unfold readMeta
  dsimp only
  rw [populated]
  split
  · rfl
  · next direct =>
    have recorded : context.config.isInternal occurrence.name = false := by
      simp only [isWalked, Bool.and_eq_true, Bool.not_eq_true'] at walked
      exact walked.1.1.2
    rw [Bool.or_eq_true, not_or] at direct
    rw [alike.replace]
    rw [populate_members]
    exact met.asked recorded (mappers_eq_nil_of_unmapped direct.2)

private theorem level_withRegistry (descent : Descent) :
    level (context.withRegistry other) descent = level context descent := by
  have readings : readMetas (context.withRegistry other) descent = readMetas context descent :=
    List.map_congr_left fun occurrence member => by
      obtain ⟨listed, walked⟩ := List.mem_filter.mp member
      exact readMeta_withRegistry alike listed walked
  simp only [level, readings]

private theorem stereotypes_withRegistry (levels : Nat) (descent : Descent) :
    stereotypes (context.withRegistry other) levels descent =
      stereotypes context levels descent := by
  induction levels generalizing descent with
  | zero => rfl
  | succ levels ih =>
    have below : stereotypes (context.withRegistry other) levels = stereotypes context levels :=
      funext ih
    simp only [stereotypes, level_withRegistry alike, below]
    rfl

theorem carryOut_withRegistry (plan : Plan) :
    carryOut (context.withRegistry other) plan = carryOut context plan := by
  have walks : stereotypes (context.withRegistry other) (budget context) =
      stereotypes context (budget context) :=
    funext (stereotypes_withRegistry alike _)
  exact congrArg (Plan.carryOut context.config · plan) walks

/-! ## Elements -/

private theorem includeOne_withRegistry {element : Element} {declared aliases : Bool}
    {occurrence : Annotation} (met : Met context.model given aliases occurrence)
    (recorded : context.config.isInternal occurrence.name = false) :
    includeOne (context.withRegistry other) element declared aliases occurrence =
      includeOne context element declared aliases occurrence := by
  have populated := populate_withRegistry alike element declared [] met
  unfold includeOne
  dsimp only
  rw [populated]
  split
  · rfl
  · next direct =>
    rw [alike.replace]
    · rfl
    · rw [populate_members]
      exact met.asked recorded (mappers_eq_nil_of_unmapped direct)

theorem occurrences_withRegistry {element : Element} {declared aliases : Bool}
    {annotations : List Annotation}
    (met : ∀ occurrence ∈ annotations, Met context.model given aliases occurrence) :
    occurrences (context.withRegistry other) element declared aliases annotations =
      occurrences context element declared aliases annotations := by
  have included : (annotations.filter fun occurrence =>
        !context.config.isInternal occurrence.name).map
        (includeOne (context.withRegistry other) element declared aliases) =
      (annotations.filter fun occurrence => !context.config.isInternal occurrence.name).map
        (includeOne context element declared aliases) :=
    List.map_congr_left fun occurrence member => by
      obtain ⟨listed, recorded⟩ := List.mem_filter.mp member
      exact includeOne_withRegistry alike (met occurrence listed) (by simpa using recorded)
  simp only [occurrences, Context.withRegistry] at included ⊢
  rw [included]

private theorem elements_withRegistry (target : Element) (hierarchy : List Element) :
    elements (context.withRegistry other) target true hierarchy =
      elements context target true hierarchy := by
  induction hierarchy with
  | nil => rfl
  | cons current rest ih =>
    have read : (context.withRegistry other).model.read current = context.model.read current := rfl
    simp only [elements, read, ih]
    cases found : context.model.read current with
    | error failure => rfl
    | ok annotations =>
      have listed := Model.eq_occurrencesOn_of_read found
      subst listed
      dsimp only
      rw [occurrences_withRegistry alike fun _ listed => .carried listed,
        carryOut_withRegistry alike]

theorem element_withRegistry (parent : Option Element) (target : Element) {options : BuildOptions}
    (aliases : options.aliases = true) :
    element (context.withRegistry other) parent target options =
      element context parent target options := by
  unfold element
  cases combined : combinedHierarchy context.model parent target options with
  | error failure => simp only [Context.withRegistry, combined]
  | ok hierarchy =>
    have same := elements_withRegistry alike target hierarchy.reverse
    simp only [Context.withRegistry, combined, aliases] at same ⊢
    exact same

theorem annotationMember_withRegistry (owner member : String) :
    annotationMember (context.withRegistry other) owner member =
      annotationMember context owner member := by
  have plans : memberOccurrences (context.withRegistry other) owner member =
      memberOccurrences context owner member :=
    occurrences_withRegistry alike fun _ listed => .validated listed
  rw [annotationMember, plans, carryOut_withRegistry alike]
  rfl

theorem given_withRegistry (target : Element) :
    Walk.given (context.withRegistry other) target given = Walk.given context target given := by
  rw [Walk.given, occurrences_withRegistry alike fun _ listed => .given listed,
    carryOut_withRegistry alike]
  rfl

theorem added_withRegistry (occurrence : Annotation) :
    added (context.withRegistry other) occurrence = added context occurrence :=
  carryOut_withRegistry alike (addition context occurrence)

end Alike

end Walk

end AnnotationMetadata
