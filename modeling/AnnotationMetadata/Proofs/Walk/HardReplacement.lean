import AnnotationMetadata.Proofs.Walk.Outputs

set_option autoImplicit false

/-!
# Hard replacement

Mappers and transformers take an annotation out of every walk: as long as no extension
returns an annotation that another one is registered for, a walk writes none of them,
wherever they stand.
-/

namespace AnnotationMetadata

/-- No extension is registered for the annotation, nor for what comes with it at any depth,
and none of them groups others. -/
inductive Annotation.Clean (context : Context) : Annotation → Prop where
  | mk {given : Annotation} (unextended : ¬ Extended context.registry given.name)
      (single : context.model.isContainer given.name = false)
      (below : ∀ stereotype ∈ given.stereotypes, Clean context stereotype) :
      Clean context given

/-- There are mappers and transformers only. What they return is clean, and they are not
registered for containers or for anything that a walk makes itself. -/
structure Context.ReplacesHard (context : Context) : Prop where
  remappers : ∀ packageName, context.registry.remappers packageName = []
  unaliased : context.model.Unaliased
  single : ∀ name, Extended context.registry name → context.model.isContainer name = false
  unbound : ∀ name, Extended context.registry name →
    name ≠ Name.interceptorBinding ∧ name ≠ Name.interceptorBindings
  clean : ∀ given : Annotation, given.stereotypes = [] → ∀ expand : Expansion,
    expand ∈ context.registry.mappers given.name ++ context.registry.transformers given.name →
      ∀ returned ∈ expand context.model.visitorOptions given, returned.Clean context

/-- The annotation that a write sets members of. -/
def Store.Write.direct? : Write → Option String
  | .direct _ name _ _ => some name
  | _ => none

/-- The recording writes nothing that an extension is registered for, and sets members of
no container but the given ones. -/
def Recording.Spares (context : Context) (own : String → Prop) : Recording → Prop
  | .write written =>
    (∀ name, written.Records name → ¬ Extended context.registry name) ∧
      ∀ name, written.direct? = some name → context.model.isContainer name = true → own name
  | _ => True

variable {context : Context} {own : String → Prop}

theorem Placement.writeIn_spares {placement : Placement} {declared : Bool}
    {container : Option String} {occurrence : Annotation}
    (unextended : ¬ Extended context.registry occurrence.name)
    (outside : ∀ group, container = some group → ¬ Extended context.registry group)
    (free : placement = .direct → context.model.isContainer occurrence.name = true →
      own occurrence.name) :
    (placement.writeIn declared container occurrence).Spares context own := by
  obtain ⟨write, same, records⟩ := placement.exists_writeIn declared container occurrence
  rw [same]
  refine ⟨fun name recorded => ?_, fun name set => ?_⟩
  · rcases (records name).mp recorded with rfl | grouped
    · exact unextended
    · exact outside name grouped
  · cases container with
    | some group => cases placement <;> cases same <;> cases set
    | none =>
      cases placement with
      | direct =>
        cases same
        cases set
        exact free rfl
      | stereotype =>
        cases same
        cases set

theorem Annotation.Clean.writeIn_spares {occurrence : Annotation}
    (clean : occurrence.Clean context) (placement : Placement) (declared : Bool)
    {container : Option String}
    (outside : ∀ group, container = some group → ¬ Extended context.registry group) :
    (placement.writeIn declared container occurrence).Spares context own := by
  obtain ⟨unextended, single, _⟩ := clean
  refine Placement.writeIn_spares unextended outside fun _ grouped => ?_
  cases single.symm.trans grouped

theorem Context.defaults_spares (context : Context) (own : String → Prop) (name : String) :
    (context.defaults name).Spares context own := by
  refine ⟨?_, fun _ none => nomatch none⟩
  rintro _ (none | ⟨_, none⟩)
  · cases none
  · cases none

namespace Context.ReplacesHard

variable (hard : context.ReplacesHard)

include hard

theorem not_extended_of_containerOf? {name container : String}
    (found : context.model.containerOf? name = some container) :
    ¬ Extended context.registry container := by
  intro extended
  cases (Model.isContainer_of_containerOf? found).symm.trans (hard.single container extended)

private theorem not_extended {name : String} (unmapped : context.registry.mappers name = [])
    (untransformed : context.registry.transformers name = []) :
    ¬ Extended context.registry name := by
  rintro (mappers | remappers | transformers)
  · exact mappers unmapped
  · exact remappers (hard.remappers _)
  · exact transformers untransformed

end Context.ReplacesHard

namespace Walk

def Step.Spares (context : Context) (own : String → Prop) : Step → Prop
  | .record recording => recording.Spares context own
  | .descend _ => True
  | .expand _ _ given => ∀ stereotype ∈ given.stereotypes, stereotype.Clean context

/-! ## Meta-annotations that come along -/

theorem spares_of_mem_bindingTrace (hard : context.ReplacesHard) {declared : Bool}
    {owner : String} {metas : List (String × Members)} {recording : Recording}
    (recorded : recording ∈ bindingTrace declared owner metas) :
    recording.Spares context own := by
  obtain ⟨binding, found, rfl⟩ := List.mem_map.mp recorded
  have named := binding?_name (Option.mem_toList.mp found)
  refine ⟨?_, fun _ none => nomatch none⟩
  rintro name (grouped | ⟨container, bound⟩) extended
  · cases grouped
    exact (hard.unbound _ extended).2 rfl
  · cases bound
    exact (hard.unbound _ extended).1 named

mutual

theorem spares_of_mem_inline (hard : context.ReplacesHard) {declared : Bool}
    {ancestors : List String} {recording : Recording} : (given : Annotation) →
    (∀ stereotype ∈ given.stereotypes, stereotype.Clean context) →
      recording ∈ inline context.config declared ancestors given → recording.Spares context own
  | ⟨name, _, _, stereotypes⟩, clean, recorded => by
    simp only [inline, List.mem_append, List.mem_map] at recorded
    rcases recorded with (⟨stereotype, placed, rfl⟩ | below) | bound
    · have listed := (List.mem_filter.mp (List.mem_filter.mp placed).1).1
      have single : ∀ group, (none : Option String) = some group →
          ¬ Extended context.registry group := fun _ none => nomatch none
      exact (clean stereotype listed).writeIn_spares (.stereotype (ancestors ++ [name])) declared
        single
    · exact spares_of_mem_inlineAll hard stereotypes clean below
    · exact spares_of_mem_bindingTrace hard bound

theorem spares_of_mem_inlineAll (hard : context.ReplacesHard) {declared : Bool}
    {chain : List String} {owner : String} {recording : Recording} :
    (stereotypes : List Annotation) → (∀ stereotype ∈ stereotypes, stereotype.Clean context) →
      recording ∈ inlineAll context.config declared chain owner stereotypes →
        recording.Spares context own
  | [], _, recorded => by cases recorded
  | stereotype :: rest, clean, recorded => by
    rcases List.mem_append.mp recorded with first | others
    · split at first
      · obtain ⟨_, _, below⟩ := clean stereotype List.mem_cons_self
        exact spares_of_mem_inline hard stereotype below first
      · cases first
    · exact spares_of_mem_inlineAll hard rest
        (fun other listed => clean other (List.mem_cons_of_mem _ listed)) others

end

/-! ## Steps -/

theorem returned_spares {declared : Bool} {placement : Placement} {container : Option String}
    {returned : Annotation} (clean : returned.Clean context)
    (outside : ∀ group, container = some group → ¬ Extended context.registry group) {step : Step}
    (planned : step ∈ Step.record (placement.writeIn declared container returned) ::
      ofReturned context declared placement.parents returned) : step.Spares context own := by
  rcases List.mem_cons.mp planned with written | walked
  · subst written
    exact clean.writeIn_spares placement declared outside
  · simp only [ofReturned] at walked
    split at walked
    · cases walked
    · split at walked
      · cases List.mem_singleton.mp walked
        obtain ⟨_, _, below⟩ := clean
        exact below
      · split at walked
        · cases List.mem_singleton.mp walked
          trivial
        · cases walked

section Steps

variable (hard : context.ReplacesHard)

include hard

theorem ReadStep.spares {source : Source} {step : Step} (taken : ReadStep context source step) :
    step.Spares context own := by
  cases taken with
  | defaults => exact context.defaults_spares own _
  | read => trivial
  | aliased listed =>
    rw [hard.unaliased.aliasesOf_eq_nil] at listed
    cases listed

private theorem writeMapped_spares {originating : Element} {declared : Bool} {mapped : Annotation}
    (clean : mapped.Clean context) {step : Step}
    (planned : step ∈ writeMapped context originating declared mapped) :
    step.Spares context own := by
  have written : (Placement.direct.writeIn declared (context.model.containerOf? mapped.name)
      mapped).Spares context own :=
    clean.writeIn_spares .direct declared fun _ => hard.not_extended_of_containerOf?
  simp only [writeMapped] at planned
  split at planned
  · cases List.mem_singleton.mp planned
    exact written
  · simp only [List.cons_append, List.mem_cons, List.mem_append] at planned
    rcases planned with itself | ((aliased | completed) | defaults) | walked
    · subst itself
      exact written
    · exact (readStep_of_mem_aliasedByMapped aliased).spares hard
    · split at completed
      · cases List.mem_singleton.mp completed
        obtain ⟨unextended, single, _⟩ := clean
        have filled : ∀ members, (Placement.direct.writeIn declared none
            { mapped with members }).Spares context own := by
          intro members
          refine Placement.writeIn_spares unextended (fun _ none => nomatch none) ?_
          intro _ grouped
          cases single.symm.trans grouped
        exact filled _
      · cases completed
    · split at defaults
      · cases List.mem_singleton.mp defaults
        exact context.defaults_spares own _
      · cases defaults
    · rcases walked with same | none
      · subst same
        trivial
      · cases none

theorem populate_spares {originating : Element} {declared aliases : Bool}
    {enclosing : List String} {occurrence : Annotation} {step : Step}
    (planned :
      step ∈ (populate context originating declared aliases enclosing occurrence).plan) :
    step.Spares context own := by
  simp only [populate] at planned
  split at planned
  · exact (readStep_of_mem_readMembers planned).spares hard
  · rcases List.mem_append.mp planned with read | mapped
    · exact (readStep_of_mem_readMembers read).spares hard
    · obtain ⟨output, returned, written⟩ := List.mem_flatMap.mp mapped
      obtain ⟨expand, registered, listed⟩ := List.mem_flatMap.mp returned
      -- A mapper is asked about an occurrence as it was read, which carries nothing.
      refine writeMapped_spares hard (hard.clean _ ?_ expand ?_ output listed) written
      · rfl
      · exact List.mem_append_left _ registered

/-- No transformer is asked for a container, so its group stays where it is. -/
theorem transformedContainers_eq {name container : String} (occurrence : Annotation)
    (found : context.model.containerOf? name = some container) :
    transformedContainers context container occurrence = [container] := by
  have untransformed : context.registry.transformers container = [] := by
    by_contra transformers
    exact hard.not_extended_of_containerOf? found (.inr (.inr transformers))
  simp only [transformedContainers, untransformed]

theorem replace_spares {declared : Bool} {placement : Placement} {name : String}
    {members : Members} (unmapped : context.registry.mappers name = [])
    (named : placement = .direct → own name) {step : Step}
    (planned : step ∈ (replace context declared placement name members).plan) :
    step.Spares context own := by
  have clean : ∀ returned ∈ (context.registry.transformers name).flatMap fun expand =>
      expand context.model.visitorOptions
        { name, members, retention := context.model.retentionOf name },
      returned.Clean context := by
    intro returned listed
    obtain ⟨expand, registered, listed⟩ := List.mem_flatMap.mp listed
    refine hard.clean _ ?_ expand ?_ returned listed
    · rfl
    · exact List.mem_append_right _ registered
  simp only [replace] at planned
  split at planned
  · next untransformed =>
    -- Nothing replaces the occurrence, so it is written itself, and it was not mapped either.
    cases List.mem_singleton.mp planned
    exact Placement.writeIn_spares (hard.not_extended unmapped untransformed)
      (fun _ => hard.not_extended_of_containerOf?) fun direct _ => named direct
  · split at planned
    · next container found =>
      rw [transformedContainers_eq hard _ found] at planned
      obtain ⟨group, listed, inside⟩ := List.mem_flatMap.mp planned
      obtain ⟨returned, output, inside⟩ := List.mem_flatMap.mp inside
      cases List.mem_singleton.mp listed
      change step ∈
        Step.record (placement.writeIn declared (some container) returned) :: _ at inside
      refine returned_spares (clean returned output) (fun group same => ?_) inside
      cases same
      exact hard.not_extended_of_containerOf? found
    · obtain ⟨returned, listed, planned⟩ := List.mem_flatMap.mp planned
      refine returned_spares (clean returned listed) (fun group found => ?_) planned
      unfold returnedContainer? at found
      split at found
      · cases found
      · exact hard.not_extended_of_containerOf? found
  · next registered _ => exact absurd (hard.remappers _) registered

private theorem readMeta_spares {declared : Bool} {chain : List String} {owner : String}
    {occurrence : Annotation} {step : Step}
    (planned : step ∈ (readMeta context declared chain owner occurrence).plan) :
    step.Spares context own := by
  simp only [readMeta] at planned
  split at planned
  · exact populate_spares hard planned
  · next unmapped =>
    rw [Bool.or_eq_true, not_or] at unmapped
    rcases List.mem_append.mp planned with read | replaced
    · exact populate_spares hard read
    · refine replace_spares hard (mappers_eq_nil_of_unmapped unmapped.2) ?_ replaced
      intro direct
      cases direct

private theorem level_spares {descent : Descent} {step : Step}
    (planned : step ∈ level context descent) :
    step.Spares context own := by
  rcases List.mem_append.mp planned with before | bound
  · rcases List.mem_append.mp before with read | walked
    · obtain ⟨reading, listed, inside⟩ := List.mem_flatMap.mp read
      obtain ⟨occurrence, _, _, rfl⟩ := mem_readMetas_iff.mp listed
      exact readMeta_spares hard inside
    · obtain ⟨reading, _, rfl⟩ := List.mem_map.mp walked
      trivial
  · obtain ⟨recording, recorded, rfl⟩ := List.mem_map.mp bound
    exact spares_of_mem_bindingTrace hard recorded

private theorem includeOne_spares {element : Element} {declared aliases : Bool}
    {occurrence : Annotation} (named : own occurrence.name) {step : Step}
    (planned : step ∈ (includeOne context element declared aliases occurrence).plan) :
    step.Spares context own := by
  have warned : ∀ step ∈ Plan.ofTrace (deprecation context.config element occurrence.name),
      step.Spares context own := by
    intro step warned
    obtain ⟨recording, recorded, rfl⟩ := List.mem_map.mp warned
    simp only [deprecation] at recorded
    split at recorded
    · cases List.mem_singleton.mp recorded
      trivial
    · cases recorded
  simp only [includeOne] at planned
  split at planned
  · rcases List.mem_append.mp planned with warning | read
    · exact warned step warning
    · exact populate_spares hard read
  · next unmapped =>
    rcases List.mem_append.mp planned with before | replaced
    · rcases List.mem_append.mp before with warning | read
      · exact warned step warning
      · exact populate_spares hard read
    · exact replace_spares hard (mappers_eq_nil_of_unmapped unmapped) (fun _ => named) replaced

/-! ## Walks -/

theorem Step.spares_of_mem_carryOut {walk : Descent → Trace} {step : Step}
    (planned : step.Spares context own)
    (walks : ∀ descent, ∀ recording ∈ walk descent, recording.Spares context own)
    {recording : Recording} (recorded : recording ∈ step.carryOut context.config walk) :
    recording.Spares context own := by
  cases step with
  | record single => exact List.mem_singleton.mp recorded ▸ planned
  | descend descent => exact walks descent recording recorded
  | expand declared ancestors given => exact spares_of_mem_inline hard given planned recorded

private theorem spares_of_mem_stereotypes {levels : Nat} {descent : Descent} {recording : Recording}
    (recorded : recording ∈ stereotypes context levels descent) :
    recording.Spares context own := by
  induction levels generalizing descent recording with
  | zero =>
    cases List.mem_singleton.mp recorded
    trivial
  | succ levels ih =>
    obtain ⟨step, planned, recorded⟩ := List.mem_flatMap.mp recorded
    exact Step.spares_of_mem_carryOut hard (level_spares hard planned)
      (fun _ _ below => ih below) recorded

/-- The walk of an element writes nothing that an extension is registered for. It sets
members of a container only where an occurrence on the element has its name. -/
theorem spares_of_mem_elementTrace {target current : Element} {aliases : Bool}
    (named : ∀ occurrence ∈ recordedOn context current, own occurrence.name)
    {recording : Recording} (recorded : recording ∈ elementTrace context target aliases current) :
    recording.Spares context own := by
  obtain ⟨step, planned, recorded⟩ := List.mem_flatMap.mp recorded
  refine Step.spares_of_mem_carryOut hard ?_
    (fun _ _ below => spares_of_mem_stereotypes hard below) recorded
  rcases List.mem_append.mp planned with read | walked
  · obtain ⟨item, listed, inside⟩ := List.mem_flatMap.mp read
    obtain ⟨occurrence, written, rfl⟩ := List.mem_map.mp listed
    exact includeOne_spares hard (named occurrence written) inside
  · obtain ⟨item, _, rfl⟩ := List.mem_map.mp walked
    trivial

end Steps

/-! ## Outputs -/

/-- What extensions return for an occurrence. Transformers are asked where there are no
mappers. -/
def outputs (context : Context) (occurrence : Annotation) : List Annotation :=
  match context.registry.mappers occurrence.name with
  | [] => transformedBy context occurrence
  | _ => mappedBy context occurrence

/-- The container whose group an output is added to. What a transformer returns for a
repeatable annotation stays in the group of that annotation. -/
def outputGroup? (context : Context) (occurrence output : Annotation) : Option String :=
  match context.registry.mappers occurrence.name with
  | [] =>
    match context.model.containerOf? occurrence.name with
    | some container => some container
    | none => returnedContainer? context output.name
  | _ => context.model.containerOf? output.name

theorem output_mem_includeOne (hard : context.ReplacesHard) {element : Element}
    {declared : Bool} {occurrence output : Annotation}
    (returned : output ∈ outputs context occurrence) :
    Step.record (Placement.direct.writeIn declared (outputGroup? context occurrence output)
      output) ∈ (includeOne context element declared true occurrence).plan := by
  unfold outputs at returned
  unfold outputGroup?
  cases mappers : context.registry.mappers occurrence.name with
  | cons first rest =>
    simp only [mappers] at returned ⊢
    refine writeMapped_subset_includeOne returned ?_
    simp only [writeMapped]
    split
    · exact List.mem_singleton_self _
    · exact List.mem_cons_self
  | nil =>
    simp only [mappers] at returned ⊢
    refine replace_subset_includeOne mappers ?_
    have transformers : context.registry.transformers occurrence.name ≠ [] := by
      intro untransformed
      rw [transformedBy, untransformed] at returned
      cases returned
    obtain ⟨first, rest, registered⟩ := List.exists_cons_of_ne_nil transformers
    have remappers : context.registry.remappersFor occurrence.name = [] := hard.remappers _
    simp only [transformedBy, registered] at returned
    simp only [replace, remappers, registered]
    cases found : context.model.containerOf? occurrence.name with
    | none => exact List.mem_flatMap.mpr ⟨output, returned, List.mem_cons_self⟩
    | some container =>
      simp only [transformedContainers_eq hard _ found]
      exact List.mem_flatMap.mpr ⟨container, List.mem_singleton_self _,
        List.mem_flatMap.mpr ⟨output, returned, List.mem_cons_self⟩⟩

/-- The group of an output belongs to a declared container. -/
theorem isContainer_of_outputGroup? {occurrence output : Annotation} {group : String}
    (grouped : outputGroup? context occurrence output = some group) :
    context.model.isContainer group = true := by
  unfold outputGroup? at grouped
  split at grouped
  · split at grouped
    · next found =>
      cases grouped
      exact Model.isContainer_of_containerOf? found
    · unfold returnedContainer? at grouped
      split at grouped
      · cases grouped
      · exact Model.isContainer_of_containerOf? grouped
  · exact Model.isContainer_of_containerOf? grouped

end Walk

end AnnotationMetadata
