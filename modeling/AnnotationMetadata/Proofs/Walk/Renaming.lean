import AnnotationMetadata.Proofs.Extension.Renaming
import AnnotationMetadata.Proofs.Walk.Bindings
import AnnotationMetadata.Proofs.Walk.Invariants
import AnnotationMetadata.Proofs.Walk.Remapping

set_option autoImplicit false

/-!
# Walks that rename a group

Under extensions that rename, whatever is written has its new name, and a group that it had
goes along. Of all that an element has written, only the occurrences of a repeatable
annotation concern its renamed group.
-/

namespace AnnotationMetadata

variable {context : Context} {rename : String → String}

/-! ## Replacements -/

/-- The group that a renamed annotation is added to. Its own group is renamed as well, unless
nothing is renamed; one without a group can come to have one by its new name. -/
inductive Regrouped (model : Model) (rename : String → String) (name : String) :
    Option String → Prop where
  | alone (ungrouped : model.containerOf? name = none) : Regrouped model rename name none
  | joined {container : String} (ungrouped : model.containerOf? name = none)
      (found : model.containerOf? (rename name) = some container) :
      Regrouped model rename name (some container)
  | kept {container : String} (found : model.containerOf? name = some container)
      (unmoved : rename name = name) : Regrouped model rename name (some container)
  | moved {container : String} (found : model.containerOf? name = some container) :
      Regrouped model rename name (some (rename container))

namespace Walk

def Step.Descends : Step → Prop
  | .descend _ => True
  | _ => False

theorem descends_of_mem_ofReturned {declared : Bool} {parents : List String}
    {returned : Annotation} (bare : returned.stereotypes = []) {step : Step}
    (planned : step ∈ ofReturned context declared parents returned) : step.Descends := by
  simp only [ofReturned, bare] at planned
  split at planned
  · cases planned
  · split at planned
    · next given => cases given
    · split at planned
      · cases List.mem_singleton.mp planned
        trivial
      · cases planned

section Replacing

variable {declared : Bool} {placement : Placement} {name : String} {members : Members}

/-- The plan of an occurrence that is written once, under its new name. -/
def WritesRenamed (context : Context) (rename : String → String) (declared : Bool)
    (placement : Placement) (name : String) (members : Members) (plan : Plan) : Prop :=
  ∃ group walks, plan =
      .record (placement.writeIn declared group
        { context.model.stored name members with name := rename name }) :: walks ∧
    Regrouped context.model rename name group ∧ ∀ step ∈ walks, step.Descends

theorem writesRenamed_of_unreplaced (remappers : context.registry.remappersFor name = [])
    (transformers : context.registry.transformers name = []) (unmoved : rename name = name) :
    WritesRenamed context rename declared placement name members
      (replace context declared placement name members).plan := by
  simp only [replace, remappers, transformers]
  refine ⟨_, [], by rw [unmoved]; rfl, ?_, List.forall_mem_nil _⟩
  cases found : context.model.containerOf? name with
  | none => exact .alone found
  | some container => exact .kept found unmoved

private theorem writesRenamed_of_transformer (remappers : context.registry.remappersFor name = [])
    (transformer : context.registry.transformers name =
      [fun _ annotation => [{ annotation with name := rename name }]])
    (containers : ∀ container, context.registry.transformers container = [] ∧
        rename container = container ∨
      context.registry.transformers container =
        [fun _ annotation => [{ annotation with name := rename container }]]) :
    WritesRenamed context rename declared placement name members
      (replace context declared placement name members).plan := by
  simp only [replace, remappers, transformer]
  cases found : context.model.containerOf? name with
  | none =>
    refine ⟨returnedContainer? context (rename name), _, rfl, ?_, fun step planned => ?_⟩
    · unfold returnedContainer?
      split
      · exact .alone found
      · cases joined : context.model.containerOf? (rename name) with
        | none => exact .alone found
        | some container => exact .joined found joined
    · have inside : step ∈ ofReturned context declared placement.parents
          { name := rename name, members, retention := context.model.retentionOf name } := by
        simpa using planned
      exact descends_of_mem_ofReturned rfl inside
  | some container =>
    have renamed : transformedContainers context container
        { name, members, retention := context.model.retentionOf name } = [rename container] := by
      rcases containers container with ⟨none, unmoved⟩ | single
      · simp only [transformedContainers, none, unmoved]
      · simp only [transformedContainers, single]
        rfl
    simp only [renamed]
    refine ⟨some (rename container), _, rfl, .moved found, fun step planned => ?_⟩
    have inside : step ∈ ofReturned context declared placement.parents
        { name := rename name, members, retention := context.model.retentionOf name } := by
      simpa using planned
    exact descends_of_mem_ofReturned rfl inside

private theorem writesRenamed_of_remapper {source : String} {remap : Remapping}
    (remappers : context.registry.remappersFor name = [remap])
    (inside : Name.packageOf name = source)
    (remaps : ∀ options annotation, remap options annotation =
      if Name.packageOf annotation.name = source then
        .replaced [{ annotation with name := rename annotation.name }]
      else .unchanged)
    (unmoved : ∀ name, Name.packageOf name ≠ source → rename name = name) :
    WritesRenamed context rename declared placement name members
      (replace context declared placement name members).plan := by
  have outcome : remap context.model.visitorOptions
      { name, members, retention := context.model.retentionOf name } =
        .replaced [{ context.model.stored name members with name := rename name }] := by
    rw [remaps, if_pos inside]
    rfl
  simp only [replace, remappers, List.map_cons, List.map_nil, outcome]
  cases found : context.model.containerOf? name with
  | none =>
    refine ⟨none, _, rfl, .alone found, fun step planned => ?_⟩
    have inside : step ∈ ofReturned context declared placement.parents
        { context.model.stored name members with name := rename name } := by
      simpa [remapped] using planned
    exact descends_of_mem_ofReturned rfl inside
  | some container =>
    have renamed : remappedContainers container (remap context.model.visitorOptions
        (groupOf container
          { name, members, retention := context.model.retentionOf name })) =
        [rename container] := by
      have named : (groupOf container { name, members, retention := context.model.retentionOf name }
        ).name = container := rfl
      rw [remaps, named]
      split
      · rfl
      · next outside =>
        rw [unmoved container outside]
        rfl
    simp only [renamed]
    exact ⟨some (rename container), [], rfl, .moved found, List.forall_mem_nil _⟩

theorem writesRenamed_replace (renames : context.registry.Renames rename) :
    WritesRenamed context rename declared placement name members
      (replace context declared placement name members).plan := by
  cases renames with
  | transforming mappers remappers transformers =>
    rcases transformers name with ⟨untransformed, unmoved⟩ | transformer
    · exact writesRenamed_of_unreplaced (remappers name) untransformed unmoved
    · exact writesRenamed_of_transformer (remappers name) transformer transformers
  | remapping source remap mappers transformers remappers remaps unmoved =>
    by_cases inside : Name.packageOf name = source
    · exact writesRenamed_of_remapper (by rw [remappers, if_pos inside]) inside remaps unmoved
    · exact writesRenamed_of_unreplaced (by rw [remappers, if_neg inside]) (transformers name)
        (unmoved name inside)

end Replacing

end Walk

theorem Registry.Renames.mappers_eq_nil {registry : Registry} (renames : registry.Renames rename)
    (name : String) : registry.mappers name = [] := by
  cases renames with
  | transforming mappers => exact mappers name
  | remapping _ _ mappers => exact mappers name

/-! ## Writes of a renamed group -/

/-- Occurrences of other annotations are added to a group of the name. -/
def Model.isGroup (model : Model) (name : String) : Bool :=
  model.isContainer name || name == Name.interceptorBindings

/-- Whether a write has to do with an annotation that is renamed, or with its new group: it
records the annotation, other than as a group that it is itself, adds to a group under the
new name, or writes the new group directly. -/
def Store.Write.concerns (model : Model) (source target group : String) (write : Write) : Bool :=
  match write.grouping? with
  | some (item, container) =>
    item == source || item == target || (container == source && !model.isGroup source)
  | none => write.key? == some source || write.key? == some group

def Recording.concerns (model : Model) (source target group : String) : Recording → Bool
  | .write written => written.concerns model source target group
  | _ => false

/-- A repeatable annotation is renamed with its group. No meta-annotation has its old or its
new name, or comes to have the name of the group. -/
structure Context.RenamesGroup (context : Context) (rename : String → String)
    (source container : String) : Prop where
  renames : context.registry.Renames rename
  unaliased : context.model.Unaliased
  grouped : context.model.containerOf? source = some container
  fresh : ∀ other, rename other ≠ source
  injective : ∀ other, rename other = rename source → other = source ∨ other = rename source
  unbound : Name.interceptorBinding ≠ source ∧ Name.interceptorBinding ≠ rename source
  metas : ∀ owner, ∀ occurrence ∈ context.model.occurrencesOn (.annotationType owner),
    occurrence.name ≠ source ∧ occurrence.name ≠ rename source ∧
      rename occurrence.name ≠ rename container

namespace Walk

variable {source container : String} (group : context.RenamesGroup rename source container)

/-- Nothing that the step records itself concerns the group. -/
def Step.Unconcerned (context : Context) (rename : String → String) (source container : String) :
    Step → Prop :=
  Step.Keeps context.config
    (fun recording =>
      recording.concerns context.model source (rename source) (rename container) = false)
    fun _ => True

theorem Step.Descends.unconcerned {step : Step} (descends : step.Descends) :
    step.Unconcerned context rename source container := by
  cases step with
  | descend => trivial
  | record => cases descends
  | expand => cases descends

include group

theorem ReadStep.unconcerned {there : Source} {step : Step} (taken : ReadStep context there step) :
    step.Unconcerned context rename source container := by
  cases taken with
  | defaults => exact rfl
  | read => exact rfl
  | aliased listed =>
    rw [group.unaliased.aliasesOf_eq_nil] at listed
    cases listed

theorem populate_unconcerned {originating : Element} {declared aliases : Bool}
    {enclosing : List String} {occurrence : Annotation} {step : Step}
    (planned :
      step ∈ (populate context originating declared aliases enclosing occurrence).plan) :
    step.Unconcerned context rename source container := by
  rcases step_of_mem_populate planned with read | ⟨registered, _⟩
  · exact read.unconcerned group
  · exact absurd (group.renames.mappers_eq_nil _) registered

private theorem concerns_writeIn {declared : Bool} {placement : Placement} {name : String}
    {members : Members} {grouping : Option String}
    (regrouped : Regrouped context.model rename name grouping)
    (other : name ≠ source ∧ name ≠ rename source ∧ rename name ≠ rename container) :
    (placement.writeIn declared grouping
      { context.model.stored name members with name := rename name }).concerns context.model source
        (rename source) (rename container) = false := by
  obtain ⟨write, same, keyed, grouped⟩ := placement.exists_write_of_writeIn declared grouping
    { context.model.stored name members with name := rename name }
  have renamed : rename name ≠ rename source := by
    intro collides
    rcases group.injective name collides with itself | new
    · exact other.1 itself
    · exact other.2.1 new
  -- A group keeps the old name only where other annotations are declared to be grouped so.
  have outside : ∀ joined, grouping = some joined →
      joined ≠ source ∨ context.model.isGroup source = true := by
    rintro joined rfl
    by_cases same : joined = source
    · right
      subst same
      have contains : context.model.isContainer joined = true := by
        cases regrouped with
        | joined _ found => exact Model.isContainer_of_containerOf? found
        | kept found => exact Model.isContainer_of_containerOf? found
        | moved => exact absurd rfl (group.fresh _)
      rw [Model.isGroup, contains, Bool.true_or]
    · exact .inl same
  rw [same, Recording.concerns, Store.Write.concerns, grouped, keyed]
  cases grouping with
  | none => simp [group.fresh, other.2.2]
  | some joined =>
    rcases outside joined rfl with apart | groups
    · simp [group.fresh, renamed, apart]
    · simp [group.fresh, renamed, groups]

theorem replace_unconcerned {declared : Bool} {placement : Placement} {name : String}
    {members : Members}
    (other : name ≠ source ∧ name ≠ rename source ∧ rename name ≠ rename container) {step : Step}
    (planned : step ∈ (replace context declared placement name members).plan) :
    step.Unconcerned context rename source container := by
  have renamed : WritesRenamed context rename declared placement name members
      (replace context declared placement name members).plan :=
    writesRenamed_replace group.renames
  obtain ⟨grouping, walks, same, regrouped, descends⟩ := renamed
  rw [same] at planned
  rcases List.mem_cons.mp planned with rfl | walked
  · exact concerns_writeIn group regrouped other
  · exact (descends step walked).unconcerned

private theorem concerns_binding {declared : Bool} {binding : Annotation}
    (named : binding.name = Name.interceptorBinding) :
    (Recording.write (.occurrence declared Name.interceptorBindings binding)).concerns
      context.model source (rename source) (rename container) = false := by
  have groups : Name.interceptorBindings = source → context.model.isGroup source = true := by
    rintro rfl
    simp [Model.isGroup]
  simp only [Recording.concerns, Store.Write.concerns, Store.Write.grouping?, named]
  simpa [group.unbound] using groups

private theorem level_unconcerned {descent : Descent} {step : Step}
    (planned : step ∈ level context descent) :
    step.Unconcerned context rename source container := by
  rcases List.mem_append.mp planned with before | bound
  · rcases List.mem_append.mp before with read | walked
    · obtain ⟨reading, listed, inside⟩ := List.mem_flatMap.mp read
      obtain ⟨occurrence, carried, _, rfl⟩ := mem_readMetas_iff.mp listed
      simp only [readMeta] at inside
      split at inside
      · exact populate_unconcerned group inside
      · rcases List.mem_append.mp inside with populated | replaced
        · exact populate_unconcerned group populated
        · exact replace_unconcerned group (group.metas _ _ carried) replaced
    · obtain ⟨reading, _, rfl⟩ := List.mem_map.mp walked
      trivial
  · obtain ⟨recording, recorded, rfl⟩ := List.mem_map.mp bound
    obtain ⟨binding, found, rfl⟩ := List.mem_map.mp recorded
    exact concerns_binding group (binding?_name (Option.mem_toList.mp found))

/-! ## Elements -/

def renamedWrite (context : Context) (rename : String → String) (container : String)
    (occurrence : Annotation) : Recording :=
  .write (.occurrence true (rename container)
    { context.model.reading true occurrence with name := rename occurrence.name })

/-- Nothing before its replacement concerns the group, wherever the occurrence stands. -/
private theorem exists_includeOne_eq (element : Element) (occurrence : Annotation) :
    ∃ before, (includeOne context element true true occurrence).plan =
        before ++ (replace context true .direct occurrence.name
          (context.model.reading true occurrence).members).plan ∧
      ∀ step ∈ before, step.Unconcerned context rename source container := by
  have unmapped : (populate context element true true [] occurrence).mapped = false := by
    simp only [populate, group.renames.mappers_eq_nil]
  refine ⟨Plan.ofTrace (deprecation context.config element occurrence.name) ++
    (populate context element true true [] occurrence).plan, ?_, fun step planned => ?_⟩
  · simp only [includeOne, unmapped, Bool.false_eq_true, if_false, populate_members]
  · rcases List.mem_append.mp planned with warned | read
    · obtain ⟨recording, recorded, rfl⟩ := List.mem_map.mp warned
      simp only [deprecation] at recorded
      split at recorded
      · cases List.mem_singleton.mp recorded
        exact (rfl : Recording.concerns _ _ _ _ (.warning _ _) = false)
      · cases recorded
    · exact populate_unconcerned group read

private theorem exists_replace_eq {occurrence : Annotation} (named : occurrence.name = source) :
    ∃ walks, (replace context true .direct occurrence.name
        (context.model.reading true occurrence).members).plan =
          .record (renamedWrite context rename container occurrence) :: walks ∧
      ∀ step ∈ walks, step.Descends := by
  have renamed : WritesRenamed context rename true .direct occurrence.name
      (context.model.reading true occurrence).members (replace context true .direct occurrence.name
        (context.model.reading true occurrence).members).plan :=
    writesRenamed_replace group.renames
  obtain ⟨grouping, walks, same, regrouped, descends⟩ := renamed
  refine ⟨walks, same.trans ?_, descends⟩
  have found := named ▸ group.grouped
  cases regrouped with
  | alone ungrouped => cases ungrouped.symm.trans found
  | joined ungrouped => cases ungrouped.symm.trans found
  | kept _ unmoved => exact absurd (named ▸ unmoved) (group.fresh _)
  | moved other =>
    cases other.symm.trans found
    rfl

def concerning (context : Context) (rename : String → String) (source container : String)
    (recording : Recording) : List Recording :=
  if recording.concerns context.model source (rename source) (rename container) then [recording]
  else []

theorem shown_concerning_eq_nil {plan : Plan}
    (unconcerned : ∀ step ∈ plan, step.Unconcerned context rename source container) :
    shown context (concerning context rename source container) plan = [] := by
  refine List.flatMap_eq_nil_iff.mpr fun recording recorded => ?_
  have apart : recording.concerns context.model source (rename source) (rename container) =
      false :=
    holds_of_mem_carryOut_of_level (P := fun recording =>
        recording.concerns context.model source (rename source) (rename container) = false)
      (Q := fun _ => True) rfl (fun _ _ _ planned => level_unconcerned group planned) unconcerned
      recorded
  rw [concerning, apart]
  rfl

private theorem shown_concerning_includeOne (element : Element) {occurrence : Annotation}
    (written : occurrence.name ≠ rename source ∧ rename occurrence.name ≠ rename container) :
    shown context (concerning context rename source container)
        (includeOne context element true true occurrence).plan =
      if occurrence.name == source then [renamedWrite context rename container occurrence]
      else [] := by
  obtain ⟨before, same, unconcerned⟩ := exists_includeOne_eq group element occurrence
  rw [same, shown_append, shown_concerning_eq_nil group unconcerned, List.nil_append]
  by_cases named : occurrence.name = source
  · obtain ⟨walks, plan, descends⟩ := exists_replace_eq group named
    have concerns : (renamedWrite context rename container occurrence).concerns context.model
        source (rename source) (rename container) = true := by
      simp [renamedWrite, Recording.concerns, Store.Write.concerns, Store.Write.grouping?, named]
    have own : shown context (concerning context rename source container)
        [.record (renamedWrite context rename container occurrence)] =
          [renamedWrite context rename container occurrence] := by
      simp [shown, carryOut, Plan.carryOut, Step.carryOut, concerning, concerns]
    rw [plan, ← List.singleton_append, shown_append, own, shown_concerning_eq_nil group
      fun step walked => (descends step walked).unconcerned, if_pos (by simpa using named)]
    rfl
  · rw [shown_concerning_eq_nil group fun step planned =>
      replace_unconcerned group ⟨named, written⟩ planned, if_neg (by simpa using named)]

/-- Of all that the walk of an element records, the occurrences of the repeatable annotation
on it concern the group, each once and in order. -/
theorem filter_concerns_elementTrace {element : Element}
    (recorded : context.config.isInternal source = false)
    (written : ∀ occurrence ∈ context.model.occurrencesOn element,
      occurrence.name ≠ rename source ∧ rename occurrence.name ≠ rename container) :
    (elementTrace context element true element).filter
        (Recording.concerns context.model source (rename source) (rename container)) =
      ((context.model.occurrencesOn element).filter fun occurrence =>
        occurrence.name == source).map (renamedWrite context rename container) := by
  have seen : (elementTrace context element true element).filter
        (Recording.concerns context.model source (rename source) (rename container)) =
      shown context (concerning context rename source container)
        (occurrences context element true true (context.model.occurrencesOn element)) := by
    rw [elementTrace, beq_self_eq_true, shown]
    exact ((flatMap_if_eq_map_filter _ _ id).trans (List.map_id _)).symm
  have walked : ∀ step ∈ (((recordedOn context element).map
      (includeOne context element true true)).filter fun item =>
        item.kept && isRoot context.config item.name).map fun item =>
          Step.descend { ancestors := [], owner := item.name, declared := true },
      step.Unconcerned context rename source container := by
    intro step planned
    obtain ⟨item, _, rfl⟩ := List.mem_map.mp planned
    trivial
  -- What is walked after the occurrences are written does not concern the group.
  rw [seen, occurrences, shown_append, ← recordedOn, shown_concerning_eq_nil group walked,
    List.append_nil, shown_flatMap, List.flatMap_map]
  have each : ∀ occurrence ∈ recordedOn context element, _ := fun occurrence listed =>
    shown_concerning_includeOne group element
      (written occurrence (List.mem_filter.mp listed).1)
  rw [List.flatMap_congr each, flatMap_if_eq_map_filter, recordedOn, List.filter_filter]
  congr 1
  refine List.filter_congr fun occurrence _ => ?_
  by_cases named : occurrence.name = source
  · simp [named, recorded]
  · simp [named]

end Walk

end AnnotationMetadata
