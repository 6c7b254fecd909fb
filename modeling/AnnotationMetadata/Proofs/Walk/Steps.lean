import AnnotationMetadata.Walk.Element

set_option autoImplicit false

/-!
# What a plan holds

Every function that plans a part of a walk adds steps of a few kinds only. The
predicates of this module list the kinds, with what is known about each of them,
and the theorems say that a plan holds nothing else. Properties of whole walks
are proved from these lists.
-/

namespace AnnotationMetadata.Walk

/-! ## Aliases of other annotations -/

/-- A step that writes an aliased value to an annotation or walks on from it. -/
inductive AliasStep (context : Context) (source : Source) (target : Annotation) : Step → Prop where
  | defaults (known : (context.model.annotationType? target.name).isSome) :
      AliasStep context source target (.record (context.defaults target.name))
  | alone {members : Members} (ungrouped : context.model.containerOf? target.name = none) :
      AliasStep context source target
        (.record (.write (.stereotype source.declared [] target.name members
          (context.model.retentionOf target.name))))
  | grouped {container : String} {members : Members}
      (found : context.model.containerOf? target.name = some container) :
      AliasStep context source target
        (.record (.write (.stereotypeOccurrence source.declared source.parents container
          { name := target.name, members, retention := context.model.retentionOf target.name })))
  | descend (known : (context.model.annotationType? target.name).isSome)
      (fresh : target.name ∉ source.chain) :
      AliasStep context source target
        (.descend { ancestors := source.chain, owner := target.name, declared := source.declared })
  | expand (unknown : context.model.annotationType? target.name = none)
      (fresh : target.name ∉ source.chain) :
      AliasStep context source target (.expand source.declared source.chain target)

theorem aliasStep_of_mem_writeAliased {context : Context} {source : Source} {member : String}
    {value : Value} {target : Annotation} {step : Step}
    (planned : step ∈ writeAliased context source member value target) :
    AliasStep context source target step := by
  simp only [writeAliased, List.mem_append, List.mem_cons] at planned
  rcases planned with defaults | written | walked
  · split at defaults
    · next known =>
      cases List.mem_singleton.mp defaults
      exact .defaults known
    · cases defaults
  · subst written
    cases found : context.model.containerOf? target.name with
    | none => exact .alone found
    | some container => exact .grouped found
  · split at walked
    · cases walked
    · next revisits =>
      have fresh : target.name ∉ source.chain := by simpa using revisits
      split at walked
      · next known =>
        cases List.mem_singleton.mp walked
        exact .descend known fresh
      · next unknown =>
        cases List.mem_singleton.mp walked
        exact .expand (by simpa using unknown) fresh

/-! ## Reading -/

/-- A step of reading the members of an occurrence. -/
inductive ReadStep (context : Context) (source : Source) : Step → Prop where
  | defaults (kept : context.model.retentionOf source.annotation = .runtime) :
      ReadStep context source (.record (context.defaults source.annotation))
  | read {member : String} {value : Value} :
      ReadStep context source
        (.record (.read ⟨source.originating, source.annotation, member, value⟩))
  | aliased {member name : String} {found : MemberAlias} {target : Annotation} {step : Step}
      (listed : found ∈ context.model.aliasesOf (.member source.annotation member))
      (named : found.target = some name) (remapped : target ∈ remapTarget context name)
      (taken : AliasStep context source target step) : ReadStep context source step

/-- Every step that is planned so far has a property. -/
def Progress.All (P : Step → Prop) (progress : Progress) : Prop :=
  ∀ step ∈ progress.plan, P step

/-- What each entry adds only steps with a property, all entries together do. -/
theorem Progress.all_foldl {α : Type} {P : Step → Prop} {read : Progress → α → Progress}
    {entries : List α}
    (step : ∀ entry ∈ entries, ∀ progress : Progress, progress.All P → (read progress entry).All P)
    {start : Progress} (holds : start.All P) : (entries.foldl read start).All P := by
  induction entries generalizing start with
  | nil => exact holds
  | cons entry rest ih =>
    exact ih (fun later member => step later (List.mem_cons_of_mem _ member))
      (step entry List.mem_cons_self start holds)

theorem readOwn_all {context : Context} {source : Source} {member : String} {written : Value}
    {progress : Progress} (holds : progress.All (ReadStep context source)) :
    (readOwn context source member written progress).All (ReadStep context source) := by
  unfold readOwn
  split
  · exact holds
  · intro step planned
    rcases List.mem_append.mp planned with before | added
    · exact holds step before
    · cases List.mem_singleton.mp added
      exact .read

private theorem followAlias_all {context : Context} {source : Source} {member : String}
    {written : Value} {progress : Progress} {found : MemberAlias}
    (listed : found ∈ context.model.aliasesOf (.member source.annotation member))
    (holds : progress.All (ReadStep context source)) :
    (followAlias context source written progress found).All (ReadStep context source) := by
  unfold followAlias
  cases named : found.target with
  | none => exact holds
  | some name =>
    intro step planned
    rcases List.mem_append.mp planned with before | added
    · exact holds step before
    · obtain ⟨target, remapped, written⟩ := List.mem_flatMap.mp added
      exact .aliased listed named remapped (aliasStep_of_mem_writeAliased written)

theorem readAliased_all {context : Context} {source : Source} {progress : Progress}
    {entry : String × Value} (holds : progress.All (ReadStep context source)) :
    (readAliased context source progress entry).All (ReadStep context source) :=
  readOwn_all (Progress.all_foldl (fun _ listed _ before => followAlias_all listed before) holds)

theorem markInstantiated_plan (context : Context) (source : Source) (progress : Progress)
    (entry : String × Value) :
    (markInstantiated context source progress entry).plan = progress.plan := by
  unfold markInstantiated
  split
  · split <;> rfl
  · rfl

private theorem readEntry_all {context : Context} {source : Source} {aliases : Bool}
    {progress : Progress}
    {entry : String × Value} (holds : progress.All (ReadStep context source)) :
    (readEntry context source aliases progress entry).All (ReadStep context source) := by
  have marked : (markInstantiated context source progress entry).All (ReadStep context source) := by
    unfold Progress.All
    rw [markInstantiated_plan]
    exact holds
  unfold readEntry
  cases aliases with
  | true => exact readAliased_all marked
  | false => exact readOwn_all marked

theorem readStep_of_mem_readMembers {context : Context} {source : Source} {aliases : Bool}
    {members : Members} {step : Step}
    (planned : step ∈ (readMembers context source aliases members).plan) :
    ReadStep context source step := by
  have start : (⟨[], runtimeDefaults context source.annotation⟩ : Progress).All
      (ReadStep context source) := by
    intro first added
    simp only [runtimeDefaults] at added
    split at added
    · next kept =>
      cases List.mem_singleton.mp added
      exact .defaults kept
    · cases added
  exact Progress.all_foldl (fun _ _ _ before => readEntry_all before) start step planned

theorem readStep_of_mem_aliasedByMapped {context : Context} {source : Source}
    {mapped : Annotation} {step : Step}
    (planned : step ∈ (aliasedByMapped context source mapped).plan) :
    ReadStep context source step := by
  have start : (⟨[], []⟩ : Progress).All (ReadStep context source) := by
    intro first added
    cases added
  exact Progress.all_foldl (fun _ _ _ before => readAliased_all before) start step planned

/-! ## Mappers -/

/-- A step of writing what a mapper returned. -/
inductive MappedStep (context : Context) (originating : Element) (declared : Bool) :
    Step → Prop where
  | written {mapped : Annotation} {container : Option String} :
      MappedStep context originating declared
        (.record (Placement.direct.writeIn declared container mapped))
  | completed {name : String} {members : Members} {retention : Retention} :
      MappedStep context originating declared
        (.record (Placement.direct.write declared name members retention))
  | read {name : String} {step : Step} (known : (context.model.annotationType? name).isSome)
      (taken : ReadStep context ⟨originating, declared, name, [], [name]⟩ step) :
      MappedStep context originating declared step
  | defaults {name : String} (known : (context.model.annotationType? name).isSome) :
      MappedStep context originating declared (.record (context.defaults name))
  | descend {name : String} (known : (context.model.annotationType? name).isSome) :
      MappedStep context originating declared
        (.descend { ancestors := [], owner := name, declared })

private theorem mappedStep_of_mem_writeMapped {context : Context} {originating : Element}
    {declared : Bool} {mapped : Annotation} {step : Step}
    (planned : step ∈ writeMapped context originating declared mapped) :
    MappedStep context originating declared step := by
  simp only [writeMapped] at planned
  split at planned
  · cases List.mem_singleton.mp planned
    exact .written
  · next unknown =>
    have known : (context.model.annotationType? mapped.name).isSome := by
      simpa [Option.isSome_iff_ne_none] using unknown
    simp only [List.cons_append, List.mem_cons, List.mem_append] at planned
    rcases planned with written | ((aliased | completed) | defaults) | walked
    · subst written
      exact .written
    · exact .read known (readStep_of_mem_aliasedByMapped aliased)
    · split at completed
      · cases List.mem_singleton.mp completed
        exact .completed
      · cases completed
    · split at defaults
      · cases List.mem_singleton.mp defaults
        exact .defaults known
      · cases defaults
    · rcases walked with same | none
      · subst same
        exact .descend known
      · cases none

/-- The occurrence that is read on an element or an annotation type. -/
def Source.ofOccurrence (originating : Element) (declared : Bool) (enclosing : List String)
    (name : String) : Source :=
  ⟨originating, declared, name, [name], enclosing ++ [name]⟩

theorem step_of_mem_populate {context : Context} {originating : Element} {declared aliases : Bool}
    {enclosing : List String} {occurrence : Annotation} {step : Step}
    (planned :
      step ∈ (populate context originating declared aliases enclosing occurrence).plan) :
    ReadStep context (.ofOccurrence originating declared enclosing occurrence.name) step ∨
      context.registry.mappers occurrence.name ≠ [] ∧
        MappedStep context originating declared step := by
  simp only [populate] at planned
  split at planned
  · exact .inl (readStep_of_mem_readMembers planned)
  · next registered =>
    rcases List.mem_append.mp planned with read | mapped
    · exact .inl (readStep_of_mem_readMembers read)
    · obtain ⟨output, _, written⟩ := List.mem_flatMap.mp mapped
      exact .inr ⟨registered, mappedStep_of_mem_writeMapped written⟩

/-! ## Replacements -/

/-- Some remapper or transformer is asked for occurrences of the annotation. -/
def Replaces (registry : Registry) (name : String) : Prop :=
  registry.remappersFor name ≠ [] ∨ registry.transformers name ≠ []

/-- A step of writing an occurrence or what takes its place. -/
inductive ReplacementStep (context : Context) (declared : Bool) (placement : Placement)
    (name : String) : Step → Prop where
  | itself {members : Members} :
      ReplacementStep context declared placement name
        (.record (placement.writeIn declared (context.model.containerOf? name)
          { name, members, retention := context.model.retentionOf name }))
  | returned {container : Option String} {occurrence : Annotation}
      (registered : Replaces context.registry name) :
      ReplacementStep context declared placement name
        (.record (placement.writeIn declared container occurrence))
  | expand {returned : Annotation} (registered : Replaces context.registry name) :
      ReplacementStep context declared placement name
        (.expand declared placement.parents returned)
  | descend {owner : String} (registered : Replaces context.registry name)
      (known : (context.model.annotationType? owner).isSome) :
      ReplacementStep context declared placement name
        (.descend { ancestors := placement.parents, owner, declared })

section Replacement

variable {context : Context} {declared : Bool} {placement : Placement} {name : String}
  {step : Step}

theorem ReplacementStep.grouped {group : String} {occurrence : Annotation}
    (registered : Replaces context.registry name) :
    ReplacementStep context declared placement name
      (.record (placement.writeOccurrence declared group occurrence)) := by
  change ReplacementStep context declared placement name
    (.record (placement.writeIn declared (some group) occurrence))
  exact .returned registered

theorem replacementStep_of_mem_ofReturned {returned : Annotation}
    (registered : Replaces context.registry name)
    (planned : step ∈ ofReturned context declared placement.parents returned) :
    ReplacementStep context declared placement name step := by
  simp only [ofReturned] at planned
  split at planned
  · cases planned
  · split at planned
    · cases List.mem_singleton.mp planned
      exact .expand registered
    · split at planned
      · next known =>
        cases List.mem_singleton.mp planned
        exact .descend registered known
      · cases planned

private theorem replacementStep_of_mem_remapped {members : Members} {kept : Bool}
    {outcomes : List RemapOutcome} (registered : Replaces context.registry name)
    (ungrouped : context.model.containerOf? name = none)
    (planned : step ∈ remapped context declared placement
      { name, members, retention := context.model.retentionOf name } kept outcomes) :
    ReplacementStep context declared placement name step := by
  induction outcomes generalizing kept with
  | nil => cases planned
  | cons outcome rest ih =>
    cases outcome with
    | unchanged =>
      simp only [remapped, List.mem_append] at planned
      rcases planned with itself | others
      · split at itself
        · cases itself
        · cases List.mem_singleton.mp itself
          rw [← ungrouped]
          exact .itself
      · exact ih others
    | replaced annotations =>
      simp only [remapped, List.mem_append, List.mem_flatMap, List.mem_cons] at planned
      rcases planned with ⟨returned, _, written | walked⟩ | others
      · subst written
        exact .returned registered
      · exact replacementStep_of_mem_ofReturned registered walked
      · exact ih others

theorem exists_of_mem_remappedInGroups {container : String} {occurrence : Annotation} {kept : Bool}
    {outcomes : List (List String × RemapOutcome)} {recording : Recording}
    (recorded : recording ∈
      remappedInGroups declared placement container occurrence kept outcomes) :
    ∃ group written, recording = placement.writeOccurrence declared group written := by
  induction outcomes generalizing kept with
  | nil => cases recorded
  | cons outcome rest ih =>
    obtain ⟨groups, outcome⟩ := outcome
    cases outcome with
    | unchanged =>
      simp only [remappedInGroups] at recorded
      split at recorded
      · rcases List.mem_cons.mp recorded with same | others
        · exact ⟨container, occurrence, same⟩
        · exact ih others
      · exact ih recorded
    | replaced annotations =>
      simp only [remappedInGroups, List.mem_append, List.mem_flatMap, List.mem_map] at recorded
      rcases recorded with ⟨group, _, written, _, same⟩ | others
      · exact ⟨group, written, same.symm⟩
      · exact ih others

private theorem replacementStep_of_mem_transformed {annotations : List Annotation}
    (registered : Replaces context.registry name)
    (planned : step ∈ transformed context declared placement annotations) :
    ReplacementStep context declared placement name step := by
  simp only [transformed, List.mem_flatMap, List.mem_cons] at planned
  obtain ⟨returned, _, written | walked⟩ := planned
  · subst written
    exact .returned registered
  · exact replacementStep_of_mem_ofReturned registered walked

private theorem replacementStep_of_mem_transformedInGroups {containers : List String}
    {annotations : List Annotation} (registered : Replaces context.registry name)
    (planned :
      step ∈ transformedInGroups context declared placement containers annotations) :
    ReplacementStep context declared placement name step := by
  simp only [transformedInGroups, List.mem_flatMap, List.mem_cons] at planned
  obtain ⟨container, _, returned, _, written | walked⟩ := planned
  · subst written
    exact .grouped registered
  · exact replacementStep_of_mem_ofReturned registered walked

theorem replacementStep_of_mem_replace {members : Members}
    (planned : step ∈ (replace context declared placement name members).plan) :
    ReplacementStep context declared placement name step := by
  simp only [replace] at planned
  split at planned
  · cases List.mem_singleton.mp planned
    exact .itself
  · next _ registered =>
    have registered : Replaces context.registry name := .inr (fun none => registered none)
    split at planned
    · exact replacementStep_of_mem_transformedInGroups registered planned
    · exact replacementStep_of_mem_transformed registered planned
  · next registered _ =>
    have registered : Replaces context.registry name := .inl (fun none => registered none)
    split at planned
    · obtain ⟨recording, recorded, same⟩ := List.mem_map.mp planned
      obtain ⟨group, written, rfl⟩ := exists_of_mem_remappedInGroups recorded
      subst same
      exact .grouped registered
    · next ungrouped => exact replacementStep_of_mem_remapped registered ungrouped planned

end Replacement

/-! ## Levels -/

/-- A step of one level of a walk. -/
inductive LevelStep (context : Context) (descent : Descent) : Step → Prop where
  | read {occurrence : Annotation} {step : Step}
      (carried : occurrence ∈ context.model.occurrencesOn (.annotationType descent.owner))
      (walked : isWalked context.config descent.chain descent.owner descent.excludes
        occurrence.name)
      (taken : ReadStep context
        (.ofOccurrence (.annotationType descent.owner) descent.declared descent.chain
          occurrence.name) step) :
      LevelStep context descent step
  | mapped {occurrence : Annotation} {step : Step}
      (carried : occurrence ∈ context.model.occurrencesOn (.annotationType descent.owner))
      (registered : context.registry.mappers occurrence.name ≠ [])
      (taken : MappedStep context (.annotationType descent.owner) descent.declared step) :
      LevelStep context descent step
  | replaced {occurrence : Annotation} {step : Step}
      (carried : occurrence ∈ context.model.occurrencesOn (.annotationType descent.owner))
      (walked : isWalked context.config descent.chain descent.owner descent.excludes
        occurrence.name)
      (taken : ReplacementStep context descent.declared (.stereotype descent.chain)
        occurrence.name step) :
      LevelStep context descent step
  | descend {occurrence : Annotation}
      (carried : occurrence ∈ context.model.occurrencesOn (.annotationType descent.owner))
      (walked : isWalked context.config descent.chain descent.owner descent.excludes
        occurrence.name) :
      LevelStep context descent
        (.descend
          { ancestors := descent.chain, owner := occurrence.name, declared := descent.declared })
  | binding {binding : Annotation} :
      LevelStep context descent
        (.record (.write (.occurrence descent.declared Name.interceptorBindings binding)))

theorem readMeta_name (context : Context) (declared : Bool) (chain : List String) (owner : String)
    (occurrence : Annotation) :
    (readMeta context declared chain owner occurrence).name = occurrence.name := by
  simp only [readMeta]
  split <;> rfl

theorem mem_readMetas_iff {context : Context} {descent : Descent} {reading : MetaReading} :
    reading ∈ readMetas context descent ↔
      ∃ occurrence ∈ context.model.occurrencesOn (.annotationType descent.owner),
        isWalked context.config descent.chain descent.owner descent.excludes occurrence.name ∧
          readMeta context descent.declared descent.chain descent.owner occurrence = reading := by
  simp only [readMetas, List.mem_map, List.mem_filter]
  constructor
  · rintro ⟨occurrence, ⟨carried, walked⟩, same⟩
    exact ⟨occurrence, carried, walked, same⟩
  · rintro ⟨occurrence, carried, walked, same⟩
    exact ⟨occurrence, ⟨carried, walked⟩, same⟩

private theorem step_of_mem_readMeta {context : Context} {declared : Bool} {chain : List String}
    {owner : String} {occurrence : Annotation} {step : Step}
    (planned : step ∈ (readMeta context declared chain owner occurrence).plan) :
    ReadStep context (.ofOccurrence (.annotationType owner) declared chain occurrence.name) step ∨
      (context.registry.mappers occurrence.name ≠ [] ∧
        MappedStep context (.annotationType owner) declared step) ∨
          ReplacementStep context declared (.stereotype chain) occurrence.name step := by
  have populated : ∀ step ∈
      (populate context (.annotationType owner) declared true chain occurrence).plan,
      ReadStep context (.ofOccurrence (.annotationType owner) declared chain occurrence.name) step ∨
        (context.registry.mappers occurrence.name ≠ [] ∧
          MappedStep context (.annotationType owner) declared step) ∨
            ReplacementStep context declared (.stereotype chain) occurrence.name step := by
    intro step read
    exact (step_of_mem_populate read).imp_right .inl
  simp only [readMeta] at planned
  split at planned
  · exact populated step planned
  · rcases List.mem_append.mp planned with read | replaced
    · exact populated step read
    · exact .inr (.inr (replacementStep_of_mem_replace replaced))

theorem exists_of_mem_bindingTrace {declared : Bool} {owner : String}
    {metas : List (String × Members)} {recording : Recording}
    (recorded : recording ∈ bindingTrace declared owner metas) :
    ∃ binding, recording = .write (.occurrence declared Name.interceptorBindings binding) := by
  obtain ⟨binding, _, same⟩ := List.mem_map.mp recorded
  exact ⟨binding, same.symm⟩

theorem levelStep_of_mem_level {context : Context} {descent : Descent} {step : Step}
    (planned : step ∈ level context descent) : LevelStep context descent step := by
  simp only [level, List.mem_append, List.mem_flatMap, List.mem_map, List.mem_filter,
    Plan.ofTrace] at planned
  rcases planned with (⟨reading, listed, read⟩ | ⟨reading, ⟨listed, _⟩, same⟩) |
    ⟨recording, recorded, same⟩
  · obtain ⟨occurrence, carried, walked, rfl⟩ := mem_readMetas_iff.mp listed
    rcases step_of_mem_readMeta read with taken | ⟨registered, taken⟩ | taken
    · exact .read carried walked taken
    · exact .mapped carried registered taken
    · exact .replaced carried walked taken
  · obtain ⟨occurrence, carried, walked, rfl⟩ := mem_readMetas_iff.mp listed
    subst same
    rw [readMeta_name]
    exact .descend carried walked
  · obtain ⟨binding, rfl⟩ := exists_of_mem_bindingTrace recorded
    subst same
    exact .binding

/-! ## Elements -/

/-- A step of walking the occurrences on an element. -/
inductive ElementStep (context : Context) (element : Element) (declared : Bool)
    (annotations : List Annotation) : Step → Prop where
  | warning {message : String} :
      ElementStep context element declared annotations (.record (.warning element message))
  | read {occurrence : Annotation} {step : Step} (given : occurrence ∈ annotations)
      (recorded : context.config.isInternal occurrence.name = false)
      (taken : ReadStep context (.ofOccurrence element declared [] occurrence.name) step) :
      ElementStep context element declared annotations step
  | mapped {occurrence : Annotation} {step : Step} (given : occurrence ∈ annotations)
      (registered : context.registry.mappers occurrence.name ≠ [])
      (taken : MappedStep context element declared step) :
      ElementStep context element declared annotations step
  | replaced {occurrence : Annotation} {step : Step} (given : occurrence ∈ annotations)
      (recorded : context.config.isInternal occurrence.name = false)
      (taken : ReplacementStep context declared .direct occurrence.name step) :
      ElementStep context element declared annotations step
  | descend {occurrence : Annotation} (given : occurrence ∈ annotations)
      (recorded : context.config.isInternal occurrence.name = false)
      (root : isRoot context.config occurrence.name) :
      ElementStep context element declared annotations
        (.descend { ancestors := [], owner := occurrence.name, declared })

theorem includeOne_name (context : Context) (element : Element) (declared aliases : Bool)
    (occurrence : Annotation) :
    (includeOne context element declared aliases occurrence).name = occurrence.name := by
  simp only [includeOne]
  split <;> rfl

private theorem elementStep_of_mem_includeOne {context : Context} {element : Element}
    {declared aliases : Bool} {annotations : List Annotation} {occurrence : Annotation}
    {step : Step} (given : occurrence ∈ annotations)
    (recorded : context.config.isInternal occurrence.name = false)
    (planned : step ∈ (includeOne context element declared aliases occurrence).plan) :
    ElementStep context element declared annotations step := by
  have warned : ∀ step ∈ Plan.ofTrace (deprecation context.config element occurrence.name),
      ElementStep context element declared annotations step := by
    intro step warned
    obtain ⟨recording, recorded, rfl⟩ := List.mem_map.mp warned
    simp only [deprecation] at recorded
    split at recorded
    · cases List.mem_singleton.mp recorded
      exact .warning
    · cases recorded
  have populated : ∀ step ∈ (populate context element declared aliases [] occurrence).plan,
      ElementStep context element declared annotations step := by
    intro step read
    rcases step_of_mem_populate read with taken | ⟨registered, taken⟩
    · exact .read given recorded taken
    · exact .mapped given registered taken
  simp only [includeOne] at planned
  split at planned
  · rcases List.mem_append.mp planned with warning | read
    · exact warned step warning
    · exact populated step read
  · rcases List.mem_append.mp planned with before | replaced
    · rcases List.mem_append.mp before with warning | read
      · exact warned step warning
      · exact populated step read
    · exact .replaced given recorded (replacementStep_of_mem_replace replaced)

theorem elementStep_of_mem_occurrences {context : Context} {element : Element}
    {declared aliases : Bool} {annotations : List Annotation} {step : Step}
    (planned : step ∈ occurrences context element declared aliases annotations) :
    ElementStep context element declared annotations step := by
  simp only [occurrences, List.mem_append, List.mem_flatMap, List.mem_map, List.mem_filter,
    Bool.not_eq_true'] at planned
  rcases planned with ⟨_, ⟨occurrence, ⟨given, recorded⟩, rfl⟩, read⟩ |
    ⟨_, ⟨⟨occurrence, ⟨given, recorded⟩, rfl⟩, kept⟩, same⟩
  · exact elementStep_of_mem_includeOne given recorded read
  · subst same
    simp only [Bool.and_eq_true, includeOne_name] at kept
    rw [includeOne_name]
    exact .descend given recorded kept.2

/-! ## Added annotations -/

/-- A step of adding an annotation to metadata. -/
inductive AdditionStep (context : Context) (given : Annotation) : Step → Prop where
  | written {container : Option String} {occurrence : Annotation}
      (named : occurrence.name = given.name) :
      AdditionStep context given
        (.record (Placement.direct.writeIn true container occurrence))
  | defaults (known : (context.model.annotationType? given.name).isSome) :
      AdditionStep context given (.record (context.defaults given.name))
  | descend (known : (context.model.annotationType? given.name).isSome) :
      AdditionStep context given
        (.descend
          { ancestors := [], owner := given.name, declared := true,
            excludes := context.config.annotateExcludes })

theorem additionStep_of_mem_addition {context : Context} {given : Annotation} {step : Step}
    (planned : step ∈ addition context given) : AdditionStep context given step := by
  simp only [addition] at planned
  split at planned
  · cases List.mem_singleton.mp planned
    exact .written rfl
  · next unknown =>
    have known : (context.model.annotationType? given.name).isSome := by
      simpa [Option.isSome_iff_ne_none] using unknown
    simp only [List.mem_cons, List.not_mem_nil, or_false] at planned
    rcases planned with written | defaults | walked
    · subst written
      exact .written rfl
    · subst defaults
      exact .defaults known
    · subst walked
      exact .descend known

end AnnotationMetadata.Walk
