import AnnotationMetadata.Proofs.Store.Recorded
import AnnotationMetadata.Proofs.Walk.Hierarchy

set_option autoImplicit false

/-!
# Grounded walks

A walk names annotations before it writes them: it indexes a stereotype under the
annotations above it, and gives the defaults of an occurrence that it is still reading.
All of these are recorded in the end, unless an extension is registered for them. Until
then they are pending, and each function of a walk settles what is pending with it.
-/

namespace AnnotationMetadata

/-- Some extension is asked for occurrences of the annotation. -/
def Extended (registry : Registry) (name : String) : Prop :=
  registry.mappers name ≠ [] ∨ Walk.Replaces registry name

/-- What a recording names but does not record itself is known, and the defaults that it
gives are the declared ones. -/
def Recording.Grounded (model : Model) (known : String → Prop) : Recording → Prop
  | .write (.stereotype _ parents _ _ _) => ∀ name ∈ parents, known name
  | .write (.stereotypeOccurrence _ parents _ _) => ∀ name ∈ parents, known name
  | .write (.defaults name members) => known name ∧ members = model.defaultsOf name
  | _ => True

theorem Recording.Grounded.mono {model : Model} {known more : String → Prop}
    {recording : Recording} (grounded : recording.Grounded model known)
    (weaker : ∀ name, known name → more name) : recording.Grounded model more := by
  cases recording with
  | write write =>
    cases write with
    | direct => trivial
    | stereotype => exact fun name listed => weaker name (grounded name listed)
    | occurrence => trivial
    | stereotypeOccurrence => exact fun name listed => weaker name (grounded name listed)
    | defaults => exact ⟨weaker _ grounded.1, grounded.2⟩
  | warning => trivial
  | read => trivial
  | promoteScope => trivial
  | unfinished => trivial

/-- All annotations that a recording indexes a stereotype under have a property. -/
def Recording.IndexesOnly (P : String → Prop) : Recording → Prop
  | .write (.stereotype _ parents _ _ _) => ∀ name ∈ parents, P name
  | .write (.stereotypeOccurrence _ parents _ _) => ∀ name ∈ parents, P name
  | _ => True

theorem Recording.Grounded.indexesOnly {model : Model} {known : String → Prop}
    {recording : Recording} (grounded : recording.Grounded model known) :
    recording.IndexesOnly known := by
  cases recording with
  | write write =>
    cases write with
    | direct => trivial
    | stereotype => exact grounded
    | occurrence => trivial
    | stereotypeOccurrence => exact grounded
    | defaults => trivial
  | warning => trivial
  | read => trivial
  | promoteScope => trivial
  | unfinished => trivial

namespace Placement

variable {placement : Placement} {declared : Bool} {container : Option String}
  {occurrence : Annotation}

theorem writeIn_grounded {model : Model} {known : String → Prop}
    (above : ∀ name ∈ placement.parents, known name) :
    (placement.writeIn declared container occurrence).Grounded model known := by
  cases placement with
  | direct => cases container <;> trivial
  | stereotype parents => cases container <;> exact above

theorem writeIn_indexesOnly {P : String → Prop} (above : ∀ name ∈ placement.parents, P name) :
    (placement.writeIn declared container occurrence).IndexesOnly P := by
  cases placement with
  | direct => cases container <;> trivial
  | stereotype parents => cases container <;> exact above

/-- An annotation is written as itself, or else into the group of a container. -/
theorem exists_writeIn (placement : Placement) (declared : Bool) (container : Option String)
    (occurrence : Annotation) :
    ∃ write : Store.Write, placement.writeIn declared container occurrence = .write write ∧
      ∀ name, write.Records name ↔ name = occurrence.name ∨ container = some name := by
  cases container with
  | none =>
    cases placement with
    | direct => exact ⟨_, rfl, by simp [Store.Write.Records, Store.Write.key?,
        Store.Write.grouping?, eq_comm]⟩
    | stereotype => exact ⟨_, rfl, by simp [Store.Write.Records, Store.Write.key?,
        Store.Write.grouping?, eq_comm]⟩
  | some container =>
    cases placement with
    | direct => exact ⟨_, rfl, by simp [Store.Write.Records, Store.Write.key?,
        Store.Write.grouping?, eq_comm, or_comm]⟩
    | stereotype => exact ⟨_, rfl, by simp [Store.Write.Records, Store.Write.key?,
        Store.Write.grouping?, eq_comm, or_comm]⟩

end Placement

/-! ## Plans -/

namespace Walk

def Step.Grounded (model : Model) (known : String → Prop) : Step → Prop
  | .record recording => recording.Grounded model known
  | .descend descent => ∀ name ∈ descent.chain, known name
  | .expand _ ancestors given => ∀ name ∈ ancestors ++ [given.name], known name

theorem Step.Grounded.mono {model : Model} {known more : String → Prop} {step : Step}
    (grounded : step.Grounded model known) (weaker : ∀ name, known name → more name) :
    step.Grounded model more := by
  cases step with
  | record recording => exact Recording.Grounded.mono grounded weaker
  | descend descent => exact fun name listed => weaker name (grounded name listed)
  | expand => exact fun name listed => weaker name (grounded name listed)

namespace Plan

def Records (plan : Plan) (name : String) : Prop :=
  ∃ write, Step.record (.write write) ∈ plan ∧ write.Records name

theorem records_of_writeIn {plan : Plan} {placement : Placement} {declared : Bool}
    {container : Option String} {occurrence : Annotation}
    (planned : Step.record (placement.writeIn declared container occurrence) ∈ plan) :
    plan.Records occurrence.name := by
  obtain ⟨write, same, records⟩ := placement.exists_writeIn declared container occurrence
  exact ⟨write, same ▸ planned, (records _).mpr (.inl rfl)⟩

/-- The plan records the annotation or leaves it to an extension. -/
def Settles (context : Context) (plan : Plan) (name : String) : Prop :=
  plan.Records name ∨ Extended context.registry name

/-- All that the plan names is pending or settled by it. -/
def Grounded (context : Context) (pending : List String) (plan : Plan) : Prop :=
  ∀ step ∈ plan, step.Grounded context.model fun name =>
    name ∈ pending ∨ plan.Settles context name

variable {context : Context} {pending below : List String} {plan part : Plan} {name : String}

theorem Records.of_subset (recorded : part.Records name) (within : part ⊆ plan) :
    plan.Records name := by
  obtain ⟨write, member, records⟩ := recorded
  exact ⟨write, within member, records⟩

theorem Settles.of_subset (settles : part.Settles context name) (within : part ⊆ plan) :
    plan.Settles context name :=
  settles.imp_left (·.of_subset within)

/-- A part of a plan is grounded in the plan, once that settles what is pending below. -/
theorem Grounded.within (grounded : part.Grounded context below) (within : part ⊆ plan)
    (settled : ∀ name ∈ below, name ∈ pending ∨ plan.Settles context name) :
    ∀ step ∈ part, step.Grounded context.model fun name =>
      name ∈ pending ∨ plan.Settles context name := by
  intro step planned
  refine (grounded step planned).mono fun name either => ?_
  rcases either with waiting | settles
  · exact settled name waiting
  · exact .inr (settles.of_subset within)

theorem Grounded.mono (grounded : plan.Grounded context below) (kept : below ⊆ pending) :
    plan.Grounded context pending :=
  grounded.within (List.Subset.refl plan) fun _ waiting => .inl (kept waiting)

theorem Grounded.settle (grounded : plan.Grounded context (pending ++ [name]))
    (settles : plan.Settles context name) : plan.Grounded context pending := by
  refine grounded.within (List.Subset.refl plan) fun other waiting => ?_
  rcases List.mem_append.mp waiting with above | same
  · exact .inl above
  · exact .inr (List.mem_singleton.mp same ▸ settles)

theorem grounded_nil : Plan.Grounded context pending [] :=
  fun _ none => nomatch none

theorem Grounded.append {rest : Plan} (grounded : plan.Grounded context pending)
    (others : rest.Grounded context pending) : Plan.Grounded context pending (plan ++ rest) := by
  intro step planned
  rcases List.mem_append.mp planned with first | second
  · exact grounded.within (List.subset_append_left _ _) (fun _ waiting => .inl waiting) step first
  · exact others.within (List.subset_append_right _ _) (fun _ waiting => .inl waiting) step second

theorem grounded_single {step : Step} (grounded : step.Grounded context.model (· ∈ pending)) :
    Plan.Grounded context pending [step] := by
  intro other planned
  cases List.mem_singleton.mp planned
  exact grounded.mono fun _ waiting => .inl waiting

theorem Grounded.cons {step : Step} (grounded : plan.Grounded context pending)
    (first : step.Grounded context.model (· ∈ pending)) :
    Plan.Grounded context pending (step :: plan) :=
  (grounded_single first).append grounded

/-- An occurrence is settled for all that follows once it is written. -/
theorem Grounded.writeIn {placement : Placement} {declared : Bool} {container : Option String}
    {occurrence : Annotation} (grounded : plan.Grounded context (pending ++ [occurrence.name]))
    (above : placement.parents ⊆ pending) :
    Plan.Grounded context pending
      (.record (placement.writeIn declared container occurrence) :: plan) := by
  refine Grounded.settle (grounded.cons ?_) (.inl (records_of_writeIn List.mem_cons_self))
  exact Placement.writeIn_grounded fun _ listed => List.mem_append_left _ (above listed)

theorem subset_flatMap {α β : Type} {items : List α} {item : α} (part : α → List β)
    (listed : item ∈ items) : part item ⊆ items.flatMap part :=
  fun _ planned => List.mem_flatMap.mpr ⟨item, listed, planned⟩

theorem grounded_flatMap {α : Type} {items : List α} {part : α → Plan}
    (each : ∀ item ∈ items, (part item).Grounded context pending) :
    Plan.Grounded context pending (items.flatMap part) := by
  intro step planned
  obtain ⟨item, listed, planned⟩ := List.mem_flatMap.mp planned
  exact (each item listed).within (subset_flatMap part listed)
    (fun _ waiting => .inl waiting) step planned

end Plan

variable {context : Context}

/-! ## Reading -/

/-- The annotations that are pending while an occurrence is read. -/
def Source.pending (source : Source) : List String :=
  source.annotation :: (source.parents ++ source.chain)

private theorem writeAliased_grounded (source : Source) (member : String) (value : Value)
    (target : Annotation) :
    (writeAliased context source member value target).Grounded context source.pending := by
  have written : (writeAliased context source member value target).Records target.name := by
    simp only [writeAliased]
    cases context.model.containerOf? target.name with
    | none =>
      exact ⟨_, List.mem_append_right _ List.mem_cons_self, .inl rfl⟩
    | some container =>
      exact ⟨_, List.mem_append_right _ List.mem_cons_self, .inr ⟨container, rfl⟩⟩
  have chain : ∀ name ∈ source.chain ++ [target.name], name ∈ source.pending ++ [target.name] := by
    intro name listed
    rcases List.mem_append.mp listed with above | same
    · exact List.mem_append_left _ (List.mem_cons_of_mem _ (List.mem_append_right _ above))
    · exact List.mem_append_right _ same
  have kinds : ∀ step ∈ writeAliased context source member value target,
      step.Grounded context.model (· ∈ source.pending ++ [target.name]) := by
    intro step planned
    cases aliasStep_of_mem_writeAliased planned with
    | defaults => exact ⟨List.mem_append_right _ (List.mem_singleton_self _), rfl⟩
    | alone => exact fun _ none => absurd none List.not_mem_nil
    | grouped =>
      intro name listed
      exact List.mem_append_left _ (List.mem_cons_of_mem _ (List.mem_append_left _ listed))
    | descend => exact chain
    | expand => exact chain
  refine Plan.Grounded.settle (fun step planned => ?_) (.inl written)
  exact (kinds step planned).mono fun _ waiting => .inl waiting

theorem readOwn_grounded {source : Source} {member : String} {written : Value}
    {progress : Progress} (grounded : progress.plan.Grounded context source.pending) :
    (readOwn context source member written progress).plan.Grounded context source.pending := by
  unfold readOwn
  split
  · exact grounded
  · exact grounded.append (Plan.grounded_single trivial)

private theorem followAlias_grounded {source : Source} {written : Value} {progress : Progress}
    {found : MemberAlias} (grounded : progress.plan.Grounded context source.pending) :
    (followAlias context source written progress found).plan.Grounded context source.pending := by
  unfold followAlias
  split
  · exact grounded
  · exact grounded.append
      (Plan.grounded_flatMap fun target _ => writeAliased_grounded source _ _ target)

theorem readAliased_grounded {source : Source} {progress : Progress} {entry : String × Value}
    (grounded : progress.plan.Grounded context source.pending) :
    (readAliased context source progress entry).plan.Grounded context source.pending :=
  readOwn_grounded (List.foldlRecOn (motive := fun progress : Progress =>
    progress.plan.Grounded context source.pending) _ _ grounded fun _ before _ _ =>
      followAlias_grounded before)

private theorem readEntry_grounded {source : Source} {aliases : Bool} {progress : Progress}
    {entry : String × Value} (grounded : progress.plan.Grounded context source.pending) :
    (readEntry context source aliases progress entry).plan.Grounded context source.pending := by
  rw [← markInstantiated_plan context source progress entry] at grounded
  unfold readEntry
  cases aliases with
  | true => exact readAliased_grounded grounded
  | false => exact readOwn_grounded grounded

private theorem readMembers_grounded (source : Source) (aliases : Bool) (members : Members) :
    (readMembers context source aliases members).plan.Grounded context source.pending := by
  refine List.foldlRecOn (motive := fun progress : Progress =>
    progress.plan.Grounded context source.pending) _ _ ?_ fun _ before _ _ =>
      readEntry_grounded before
  simp only [runtimeDefaults]
  split
  · exact Plan.grounded_single ⟨List.mem_cons_self, rfl⟩
  · exact Plan.grounded_nil

/-! ## Mappers -/

private theorem writeMapped_grounded (originating : Element) (declared : Bool)
    (mapped : Annotation) :
    (writeMapped context originating declared mapped).Grounded context [] := by
  simp only [writeMapped]
  split
  · exact Plan.grounded_nil.writeIn (List.nil_subset _)
  · have aliased : (aliasedByMapped context ⟨originating, declared, mapped.name, [], [mapped.name]⟩
        mapped).plan.Grounded context ([] ++ [mapped.name]) := by
      refine Plan.Grounded.mono (List.foldlRecOn (motive := fun progress : Progress =>
        progress.plan.Grounded context _) _ _ Plan.grounded_nil fun _ before _ _ =>
          readAliased_grounded before) ?_
      simp [Source.pending]
    refine Plan.Grounded.writeIn (((aliased.append ?_).append ?_).append ?_) (List.nil_subset _)
    · split
      · exact Plan.grounded_single trivial
      · exact Plan.grounded_nil
    · split
      · exact Plan.grounded_single ⟨List.mem_singleton_self _, rfl⟩
      · exact Plan.grounded_nil
    · exact Plan.grounded_single fun _ listed => listed

theorem populate_grounded (originating : Element) (declared aliases : Bool)
    (enclosing : List String) (occurrence : Annotation) :
    (populate context originating declared aliases enclosing occurrence).plan.Grounded context
      (enclosing ++ [occurrence.name]) := by
  have read : (readMembers context (.ofOccurrence originating declared enclosing occurrence.name)
      aliases occurrence.members).plan.Grounded context (enclosing ++ [occurrence.name]) :=
    (readMembers_grounded _ aliases _).mono (by simp [Source.pending, Source.ofOccurrence])
  simp only [populate]
  split
  · exact read
  · refine read.append (Plan.grounded_flatMap fun mapped _ => ?_)
    exact (writeMapped_grounded originating declared mapped).mono (List.nil_subset _)

/-! ## Replacements -/

section Replacement

variable {declared : Bool} {placement : Placement}

/-- An annotation that an extension returned is settled once it is written. -/
theorem returned_grounded (container : Option String) (returned : Annotation) :
    Plan.Grounded context placement.parents
      (.record (placement.writeIn declared container returned) ::
        ofReturned context declared placement.parents returned) := by
  refine Plan.Grounded.writeIn ?_ (List.Subset.refl _)
  simp only [ofReturned]
  split
  · exact Plan.grounded_nil
  · split
    · exact Plan.grounded_single fun _ listed => listed
    · split
      · exact Plan.grounded_single fun _ listed => listed
      · exact Plan.grounded_nil

private theorem remapped_grounded (occurrence : Annotation) (kept : Bool)
    (outcomes : List RemapOutcome) :
    (remapped context declared placement occurrence kept outcomes).Grounded context
      placement.parents := by
  induction outcomes generalizing kept with
  | nil => exact Plan.grounded_nil
  | cons outcome rest ih =>
    cases outcome with
    | unchanged =>
      refine Plan.Grounded.append ?_ (ih true)
      split
      · exact Plan.grounded_nil
      · exact Plan.grounded_single (Placement.writeIn_grounded fun _ listed => listed)
    | replaced annotations =>
      exact (Plan.grounded_flatMap fun returned _ => returned_grounded none returned).append
        (ih kept)

theorem replace_grounded (name : String) (members : Members) :
    (replace context declared placement name members).plan.Grounded context
      placement.parents := by
  simp only [replace]
  split
  · exact Plan.grounded_single (Placement.writeIn_grounded fun _ listed => listed)
  · split
    · exact Plan.grounded_flatMap fun container _ => Plan.grounded_flatMap fun returned _ =>
        returned_grounded (some container) returned
    · exact Plan.grounded_flatMap fun returned _ => returned_grounded _ returned
  · split
    · intro step planned
      obtain ⟨recording, recorded, rfl⟩ := List.mem_map.mp planned
      obtain ⟨group, written, rfl⟩ := exists_of_mem_remappedInGroups recorded
      have grounded : (placement.writeIn declared (some group) written).Grounded context.model
          (· ∈ placement.parents) := Placement.writeIn_grounded fun _ listed => listed
      exact Recording.Grounded.mono grounded fun _ listed => .inl listed
    · exact remapped_grounded _ false _

theorem replace_settles (name : String) (members : Members) :
    (replace context declared placement name members).plan.Settles context name := by
  by_cases registered : Replaces context.registry name
  · exact .inr (.inr registered)
  · simp only [Replaces, not_or, not_not] at registered
    have written : Step.record (placement.writeIn declared (context.model.containerOf? name)
        { name, members, retention := context.model.retentionOf name }) ∈
        (replace context declared placement name members).plan := by
      simp [replace, registered]
    exact .inl (Plan.records_of_writeIn written)

end Replacement

/-! ## Levels -/

theorem extended_of_mapped {originating : Element} {declared aliases : Bool}
    {enclosing : List String} {occurrence : Annotation}
    (mapped : (populate context originating declared aliases enclosing occurrence).mapped = true) :
    Extended context.registry occurrence.name := by
  simp only [populate] at mapped
  split at mapped
  · cases mapped
  · next registered => exact .inl fun none => registered none

private theorem readMeta_grounded {declared : Bool} {chain : List String} {owner : String}
    (occurrence : Annotation) :
    (readMeta context declared chain owner occurrence).plan.Grounded context
      (chain ++ [occurrence.name]) := by
  have populated : (populate context (.annotationType owner) declared true chain
      occurrence).plan.Grounded context (chain ++ [occurrence.name]) :=
    populate_grounded _ declared true chain occurrence
  simp only [readMeta]
  split
  · exact populated
  · exact populated.append ((replace_grounded _ _).mono (List.subset_append_left _ _))

private theorem readMeta_settles {declared : Bool} {chain : List String} {owner : String}
    {occurrence : Annotation} (unbound : occurrence.name ≠ Name.interceptorBinding) :
    (readMeta context declared chain owner occurrence).plan.Settles context occurrence.name := by
  simp only [readMeta, unbound, decide_false, Bool.false_or]
  split
  · next mapped => exact .inr (extended_of_mapped mapped)
  · exact (replace_settles _ _).of_subset (List.subset_append_right _ _)

theorem withDeclared_name (binding : Annotation) (metas : List (String × Members)) :
    (Interception.withDeclared binding metas).name = binding.name :=
  List.foldlRecOn (motive := fun result : Annotation => result.name = binding.name) _ _ rfl
    fun _ same _ _ => same

theorem binding?_name {owner : String} {metas : List (String × Members)} {binding : Annotation}
    (found : Interception.binding? owner metas = some binding) :
    binding.name = Name.interceptorBinding := by
  obtain ⟨kind, _, rfl⟩ := Option.map_eq_some_iff.mp found
  dsimp only
  split
  · exact withDeclared_name _ _
  · exact withDeclared_name _ _

private theorem exists_binding (owner : String) {metas : List (String × Members)}
    {entry : String × Members} (listed : entry ∈ metas)
    (bound : entry.1 = Name.interceptorBinding) :
    ∃ binding, Interception.binding? owner metas = some binding := by
  have started : (metas.findSome? fun entry => Interception.kind? entry.1).isSome := by
    refine List.findSome?_isSome_iff.mpr ⟨entry, listed, ?_⟩
    rw [bound]
    rfl
  obtain ⟨kind, found⟩ := Option.isSome_iff_exists.mp started
  exact ⟨_, by rw [Interception.binding?, found]; rfl⟩

/-- A declared binding is settled by the binding that its owner gets. -/
theorem bindingTrace_settles {declared : Bool} {owner : String} {metas : List (String × Members)}
    {entry : String × Members} (listed : entry ∈ metas)
    (bound : entry.1 = Name.interceptorBinding) :
    (Plan.ofTrace (bindingTrace declared owner metas)).Settles context entry.1 := by
  obtain ⟨binding, found⟩ := exists_binding owner listed bound
  refine .inl ⟨.occurrence declared Name.interceptorBindings binding, ?_,
    .inr ⟨Name.interceptorBindings, ?_⟩⟩
  · simp [Plan.ofTrace, bindingTrace, found]
  · rw [bound, ← binding?_name found]
    rfl

theorem bindingTrace_grounded {declared : Bool} {owner : String}
    {metas : List (String × Members)} :
    (Plan.ofTrace (bindingTrace declared owner metas)).Grounded context [] := by
  intro step planned
  obtain ⟨recording, recorded, rfl⟩ := List.mem_map.mp planned
  obtain ⟨binding, rfl⟩ := exists_of_mem_bindingTrace recorded
  trivial

private theorem level_settles {descent : Descent} {reading : MetaReading}
    (listed : reading ∈ readMetas context descent) :
    (level context descent).Settles context reading.name := by
  by_cases bound : reading.name = Name.interceptorBinding
  · have entry := List.mem_map_of_mem (f := fun reading : MetaReading =>
      (reading.name, reading.members)) listed
    exact (bindingTrace_settles entry bound).of_subset (List.subset_append_right _ _)
  · have read : reading.plan.Settles context reading.name := by
      obtain ⟨occurrence, _, _, rfl⟩ := mem_readMetas_iff.mp listed
      rw [readMeta_name] at bound ⊢
      exact readMeta_settles bound
    refine (read.of_subset (Plan.subset_flatMap MetaReading.plan listed)).of_subset ?_
    exact List.Subset.trans (List.subset_append_left _ _) (List.subset_append_left _ _)

private theorem level_grounded (descent : Descent) :
    (level context descent).Grounded context descent.chain := by
  have chain : ∀ reading ∈ readMetas context descent, ∀ name ∈ descent.chain ++ [reading.name],
      name ∈ descent.chain ∨ (level context descent).Settles context name := by
    intro reading listed name waiting
    rcases List.mem_append.mp waiting with above | same
    · exact .inl above
    · exact .inr (List.mem_singleton.mp same ▸ level_settles listed)
  intro step planned
  -- A level is read before it is walked: what a descent from here has above it is settled
  -- by a reading of this level, or by the binding at its end.
  rcases List.mem_append.mp planned with before | bound
  · rcases List.mem_append.mp before with read | walked
    · obtain ⟨reading, listed, planned⟩ := List.mem_flatMap.mp read
      have grounded : reading.plan.Grounded context (descent.chain ++ [reading.name]) := by
        obtain ⟨occurrence, _, _, rfl⟩ := mem_readMetas_iff.mp listed
        rw [readMeta_name]
        exact readMeta_grounded occurrence
      refine grounded.within (fun _ inside => ?_) (chain reading listed) step planned
      exact List.mem_append_left _
        (List.mem_append_left _ (List.mem_flatMap.mpr ⟨reading, listed, inside⟩))
    · obtain ⟨reading, kept, rfl⟩ := List.mem_map.mp walked
      exact chain reading (List.mem_filter.mp kept).1
  · exact bindingTrace_grounded.within (List.subset_append_right _ _)
      (fun _ none => nomatch none) step bound

/-! ## Elements -/

theorem includeOne_settles {element : Element} {declared aliases : Bool}
    {occurrence : Annotation} :
    (includeOne context element declared aliases occurrence).plan.Settles context
      occurrence.name := by
  simp only [includeOne]
  split
  · next mapped => exact .inr (extended_of_mapped mapped)
  · exact (replace_settles _ _).of_subset (List.subset_append_right _ _)

private theorem includeOne_grounded {element : Element} {declared aliases : Bool}
    {occurrence : Annotation} :
    (includeOne context element declared aliases occurrence).plan.Grounded context [] := by
  refine Plan.Grounded.settle ?_ includeOne_settles
  have warned : (Plan.ofTrace (deprecation context.config element occurrence.name)).Grounded
      context ([] ++ [occurrence.name]) := by
    simp only [deprecation]
    split
    · exact Plan.grounded_single trivial
    · exact Plan.grounded_nil
  have read := warned.append (populate_grounded element declared aliases [] occurrence)
  simp only [includeOne]
  split
  · exact read
  · exact read.append ((replace_grounded _ _).mono (List.nil_subset _))

theorem occurrences_grounded (element : Element) (declared aliases : Bool)
    (annotations : List Annotation) :
    (occurrences context element declared aliases annotations).Grounded context [] := by
  have included : ∀ item ∈ (annotations.filter fun occurrence =>
      !context.config.isInternal occurrence.name).map
        (includeOne context element declared aliases),
      item.plan.Grounded context [] ∧ item.plan.Settles context item.name := by
    intro item listed
    obtain ⟨occurrence, _, rfl⟩ := List.mem_map.mp listed
    rw [includeOne_name]
    exact ⟨includeOne_grounded, includeOne_settles⟩
  intro step planned
  rcases List.mem_append.mp planned with read | walked
  · exact (Plan.grounded_flatMap fun item listed => (included item listed).1).within
      (List.subset_append_left _ _) (fun _ none => nomatch none) step read
  · obtain ⟨item, kept, rfl⟩ := List.mem_map.mp walked
    intro name same
    cases List.mem_singleton.mp same
    have listed := (List.mem_filter.mp kept).1
    refine .inr ((included item listed).2.of_subset fun _ inside => ?_)
    exact List.mem_append_left _ (List.mem_flatMap.mpr ⟨item, listed, inside⟩)

theorem addition_grounded (given : Annotation) :
    (addition context given).Grounded context [] := by
  simp only [addition]
  split
  · exact Plan.grounded_nil.writeIn (List.nil_subset _)
  · refine Plan.Grounded.writeIn ?_ (List.nil_subset _)
    refine Plan.Grounded.cons ?_ ⟨List.mem_singleton_self _, rfl⟩
    exact Plan.grounded_single fun _ listed => listed

/-! ## Walks -/

theorem ofTrace_append (first second : Trace) :
    Plan.ofTrace (first ++ second) = Plan.ofTrace first ++ Plan.ofTrace second :=
  List.map_append

private theorem inline_settles {declared : Bool} {ancestors : List String}
    {given stereotype : Annotation} (listed : stereotype ∈ given.stereotypes)
    (walked : isWalked context.config (ancestors ++ [given.name]) given.name [] stereotype.name) :
    (Plan.ofTrace (inline context.config declared ancestors given)).Settles context
      stereotype.name := by
  obtain ⟨name, members, retention, stereotypes⟩ := given
  have kept : stereotype ∈ stereotypes.filter fun stereotype =>
      isWalked context.config (ancestors ++ [name]) name [] stereotype.name :=
    List.mem_filter.mpr ⟨listed, walked⟩
  rw [inline, ofTrace_append]
  by_cases bound : stereotype.name = Name.interceptorBinding
  · have entry := List.mem_map_of_mem (f := fun stereotype : Annotation =>
      (stereotype.name, stereotype.members)) kept
    exact (bindingTrace_settles entry bound).of_subset (List.subset_append_right _ _)
  · refine .inl ⟨.stereotype declared (ancestors ++ [name]) stereotype.name stereotype.members
      stereotype.retention, List.mem_append_left _ (List.mem_map_of_mem ?_), .inl rfl⟩
    refine List.mem_append_left _ (List.mem_map.mpr ⟨stereotype, ?_, rfl⟩)
    exact List.mem_filter.mpr ⟨kept, by simpa using bound⟩

mutual

theorem inline_grounded (declared : Bool) (ancestors : List String) : (given : Annotation) →
    (Plan.ofTrace (inline context.config declared ancestors given)).Grounded context
      (ancestors ++ [given.name])
  | ⟨name, members, retention, stereotypes⟩ => by
    -- Below, the annotations that are walked on this level are pending as well.
    have below := inlineAll_grounded declared (ancestors ++ [name]) name
      (ancestors ++ [name] ++ (stereotypes.filter fun stereotype =>
        isWalked context.config (ancestors ++ [name]) name [] stereotype.name).map
          Annotation.name) (List.subset_append_left _ _) stereotypes fun stereotype listed walked =>
            List.mem_append_right _ (List.mem_map_of_mem (List.mem_filter.mpr ⟨listed, walked⟩))
    have settled : ∀ waiting ∈ (stereotypes.filter fun stereotype =>
        isWalked context.config (ancestors ++ [name]) name [] stereotype.name).map Annotation.name,
        (Plan.ofTrace (inline context.config declared ancestors
          ⟨name, members, retention, stereotypes⟩)).Settles context waiting := by
      intro waiting listed
      obtain ⟨stereotype, kept, rfl⟩ := List.mem_map.mp listed
      obtain ⟨listed, walked⟩ := List.mem_filter.mp kept
      exact inline_settles listed walked
    rw [inline, ofTrace_append, ofTrace_append] at settled ⊢
    intro step planned
    rcases List.mem_append.mp planned with before | bound
    · rcases List.mem_append.mp before with placed | deeper
      · obtain ⟨_, recorded, rfl⟩ := List.mem_map.mp placed
        obtain ⟨stereotype, _, rfl⟩ := List.mem_map.mp recorded
        exact fun _ listed => .inl listed
      · refine below.within (fun _ inside => ?_) (fun waiting listed => ?_) step deeper
        · exact List.mem_append_left _ (List.mem_append_right _ inside)
        · exact (List.mem_append.mp listed).imp_right (settled waiting)
    · exact bindingTrace_grounded.within (List.subset_append_right _ _)
        (fun _ none => nomatch none) step bound

theorem inlineAll_grounded (declared : Bool) (chain : List String) (owner : String)
    (pending : List String) (above : chain ⊆ pending) : (stereotypes : List Annotation) →
    (∀ stereotype ∈ stereotypes, isWalked context.config chain owner [] stereotype.name →
      stereotype.name ∈ pending) →
    (Plan.ofTrace (inlineAll context.config declared chain owner stereotypes)).Grounded context
      pending
  | [], _ => Plan.grounded_nil
  | stereotype :: rest, waiting => by
    rw [inlineAll, ofTrace_append]
    refine Plan.Grounded.append ?_ (inlineAll_grounded declared chain owner pending above rest
      fun other listed => waiting other (List.mem_cons_of_mem _ listed))
    split
    · next walked =>
      refine (inline_grounded declared chain stereotype).mono fun name listed => ?_
      rcases List.mem_append.mp listed with higher | same
      · exact above higher
      · cases List.mem_singleton.mp same
        exact waiting stereotype List.mem_cons_self walked
    · exact Plan.grounded_nil

end

theorem carryOut_grounded {walk : Descent → Trace} {pending : List String} {plan : Plan}
    (grounded : plan.Grounded context pending)
    (walks : ∀ descent, (Plan.ofTrace (walk descent)).Grounded context descent.chain) :
    (Plan.ofTrace (plan.carryOut context.config walk)).Grounded context pending := by
  have carried : ∀ step ∈ plan, Plan.ofTrace (step.carryOut context.config walk) ⊆
      Plan.ofTrace (plan.carryOut context.config walk) := by
    intro step planned
    exact List.map_subset _ (Plan.subset_flatMap (Step.carryOut context.config walk) planned)
  have settled : ∀ name, name ∈ pending ∨ plan.Settles context name →
      name ∈ pending ∨ (Plan.ofTrace (plan.carryOut context.config walk)).Settles context name := by
    intro name either
    refine either.imp_right fun settles => settles.imp_left fun recorded => ?_
    obtain ⟨write, planned, records⟩ := recorded
    exact ⟨write, carried _ planned List.mem_cons_self, records⟩
  intro step planned
  obtain ⟨recording, recorded, rfl⟩ := List.mem_map.mp planned
  obtain ⟨step, planned, recorded⟩ := List.mem_flatMap.mp recorded
  -- The step that was carried out names only what the plan settles, and so does what is below.
  have own := grounded step planned
  cases step with
  | record recording =>
    cases List.mem_singleton.mp recorded
    exact own.mono settled
  | descend descent =>
    exact (walks descent).within (carried _ planned) (fun name above => settled name (own name above))
      _ (List.mem_map_of_mem recorded)
  | expand declared ancestors given =>
    exact (inline_grounded declared ancestors given).within (carried _ planned)
      (fun name above => settled name (own name above)) _ (List.mem_map_of_mem recorded)

private theorem stereotypes_grounded (levels : Nat) (descent : Descent) :
    (Plan.ofTrace (stereotypes context levels descent)).Grounded context descent.chain := by
  induction levels generalizing descent with
  | zero => exact Plan.grounded_single trivial
  | succ levels ih => exact carryOut_grounded (level_grounded descent) ih

end Walk

/-! ## Traces -/

namespace Trace

/-- The trace records the annotation or leaves it to an extension. -/
def Settles (context : Context) (trace : Trace) (name : String) : Prop :=
  (∃ write, Recording.write write ∈ trace ∧ write.Records name) ∨ Extended context.registry name

def Grounded (context : Context) (trace : Trace) : Prop :=
  ∀ recording ∈ trace, recording.Grounded context.model (Settles context trace)

theorem grounded_flatMap {α : Type} {context : Context} {items : List α} {trace : α → Trace}
    (each : ∀ item ∈ items, Grounded context (trace item)) :
    Grounded context (items.flatMap trace) := by
  intro recording recorded
  obtain ⟨item, listed, recorded⟩ := List.mem_flatMap.mp recorded
  refine (each item listed recording recorded).mono fun name settled => ?_
  refine settled.imp_left fun ⟨write, written, records⟩ => ⟨write, ?_, records⟩
  exact List.mem_flatMap.mpr ⟨item, listed, written⟩

end Trace

namespace Walk

variable {context : Context}

/-- What the walk of a grounded plan names, it records or leaves to an extension. -/
theorem trace_grounded {plan : Plan} (grounded : plan.Grounded context []) :
    Trace.Grounded context (carryOut context plan) := by
  intro recording recorded
  have walked := carryOut_grounded grounded (stereotypes_grounded (budget context))
  refine (walked _ (List.mem_map_of_mem recorded) : Recording.Grounded _ _ _).mono
    fun name either => ?_
  rcases either with none | ⟨write, planned, records⟩ | extended
  · cases none
  · obtain ⟨_, member, same⟩ := List.mem_map.mp planned
    cases same
    exact .inl ⟨write, member, records⟩
  · exact .inr extended

theorem hierarchy_grounded (target : Element) (aliases : Bool) (hierarchy : List Element) :
    Trace.Grounded context (hierarchy.flatMap (elementTrace context target aliases)) :=
  Trace.grounded_flatMap fun _ _ => trace_grounded (occurrences_grounded _ _ _ _)

theorem added_grounded (given : Annotation) : Trace.Grounded context (added context given) :=
  trace_grounded (addition_grounded given)

end Walk

end AnnotationMetadata
