import AnnotationMetadata.Proofs.Session.RecordedDefaults
import AnnotationMetadata.Proofs.Walk.HardReplacement

set_option autoImplicit false

/-!
# Replaced annotations in built metadata

What mappers and transformers are registered for does not appear in built metadata. What
they return for the annotations of a hierarchy does, each by itself or in a group.
-/

namespace AnnotationMetadata

variable {context : Context}

/-- Some occurrence on the hierarchy that is recorded has the name. -/
def StandsOn (context : Context) (hierarchy : List Element) (name : String) : Prop :=
  ∃ current ∈ hierarchy, ∃ occurrence ∈ Walk.recordedOn context current, occurrence.name = name

/-- The trace writes the container as an annotation, with a value that replaces its group. -/
def Trace.SetsGroup (trace : Trace) (container : String) : Prop :=
  ∃ declared members retention value,
    Recording.write (.direct declared container members retention) ∈ trace ∧
      (Name.valueMember, value) ∈ members

/-! ## Absence -/

private theorem Store.absent_of_not_records {store : Store} {name : String}
    (absent : ¬ store.Records name) :
    store.hasStereotype name = false ∧ store.occurrences name = [] := by
  have ungrouped : store.containerOf? name = none := by
    by_contra grouped
    exact absent (.inr (Option.isSome_iff_ne_none.mpr grouped))
  have unwritten : store.values? name = none := by
    by_contra written
    obtain ⟨members, found⟩ := Option.ne_none_iff_exists'.mp written
    exact absent (records_of_values? found)
  refine ⟨Bool.eq_false_iff.mpr fun present => absent (.inl present), ?_⟩
  rw [values?] at unwritten
  simp only [occurrences, occurrencesIn, ungrouped, unwritten]

private theorem Metadata.absent_ofStore {store : Store} {name : String}
    (absent : ¬ store.Records name) :
    (ofStore store).hasStereotype name = false ∧ (ofStore store).occurrences name = [] := by
  obtain ⟨missing, none⟩ := Store.absent_of_not_records absent
  unfold ofStore
  split
  · exact ⟨rfl, rfl⟩
  · simp [hasStereotype, occurrences, layers, missing, none]

namespace Walk

variable (hard : context.ReplacesHard) {target : Element} {hierarchy : List Element}

include hard

theorem spares_of_mem_hierarchy {recording : Recording}
    (recorded : recording ∈ hierarchy.flatMap (elementTrace context target true)) :
    recording.Spares context (StandsOn context hierarchy) := by
  obtain ⟨current, inside, recorded⟩ := List.mem_flatMap.mp recorded
  exact spares_of_mem_elementTrace hard
    (fun occurrence listed => ⟨current, inside, occurrence, listed, rfl⟩) recorded

private theorem not_records_of_extended {name : String}
    (extended : Extended context.registry name) :
    ¬ (Store.empty.recordAll
      (hierarchy.flatMap (elementTrace context target true))).Records name := by
  rw [Store.records_recordAll promoteScope_not_mem_flatMap]
  rintro (before | ⟨write, recorded, records⟩)
  · rcases before with none | none
    · cases none
    · cases none
  · exact (spares_of_mem_hierarchy hard recorded).1 name records extended

/-! ## Outputs -/

/-- A container is written as an annotation only where an occurrence on the hierarchy is one. -/
private theorem standsOn_of_setsGroup {container : String}
    (grouped : context.model.isContainer container = true) {trace : Trace}
    (part : trace ⊆ hierarchy.flatMap (elementTrace context target true))
    (sets : Trace.SetsGroup trace container) : StandsOn context hierarchy container := by
  obtain ⟨_, _, _, _, recorded, _⟩ := sets
  exact (spares_of_mem_hierarchy hard (part recorded)).2 container rfl grouped

end Walk

section Outputs

variable (hard : context.ReplacesHard) {target current : Element} {hierarchy : List Element}
  {occurrence output : Annotation} (inside : current ∈ hierarchy)
  (listed : occurrence ∈ Walk.recordedOn context current)
  (returned : output ∈ Walk.outputs context occurrence)

include hard inside listed returned

theorem Walk.output_mem_hierarchy (target : Element) :
    Placement.direct.writeIn (current == target) (outputGroup? context occurrence output) output ∈
      hierarchy.flatMap (elementTrace context target true) :=
  List.mem_flatMap.mpr
    ⟨current, inside, mem_elementTrace_of_planned listed (output_mem_includeOne hard returned)⟩

private theorem hasAnnotation_of_output (target : Element)
    (alone : Walk.outputGroup? context occurrence output = none) :
    Metadata.hasAnnotation (.ofStore (hierarchyStore context target hierarchy)) output.name =
      true := by
  have written := Walk.output_mem_hierarchy hard inside listed returned target
  rw [alone] at written
  have named : output.name ∈ (hierarchyStore context target hierarchy).annotationNames := by
    refine Store.mem_annotationNames_promoteDefaultScope_iff.mpr (.inl ?_)
    exact (Store.mem_annotationNames_recordAll Walk.promoteScope_not_mem_flatMap).mpr
      ⟨_, written, _, _, rfl⟩
  have present : Store.hasAnnotation (hierarchyStore context target hierarchy) output.name = true :=
    Dict.contains_iff.mpr named
  have among : hierarchyStore context target hierarchy ∈
      (Metadata.ofStore (hierarchyStore context target hierarchy)).layers := by
    rw [Metadata.ofStore_eq_store (hierarchyStore_isEmpty written rfl)]
    exact List.mem_singleton_self _
  exact List.any_eq_true.mpr ⟨_, among, present⟩

/-- An output that is added to a group is there in the end, unless its container is written
later. -/
private theorem grouped_of_output (target : Element) {group : String}
    (grouped : Walk.outputGroup? context occurrence output = some group) :
    ∃ layer ∈ (Metadata.ofStore (hierarchyStore context target hierarchy)).layers,
      (layer.containerOf? output.name).isSome = true ∧
      Recording.write (.occurrence (current == target) group output) ∈
        hierarchy.flatMap (Walk.elementTrace context target true) ∧
      ∀ before after, hierarchy.flatMap (Walk.elementTrace context target true) =
          before ++ .write (.occurrence (current == target) group output) :: after →
        (∃ present ∈ Store.groupedIn layer.annotations group output.name,
          present.Matches output) ∨
        StandsOn context hierarchy group ∧ Trace.SetsGroup after group := by
  have written := Walk.output_mem_hierarchy hard inside listed returned target
  rw [grouped] at written
  rw [Metadata.ofStore_eq_store (hierarchyStore_isEmpty written rfl)]
  refine ⟨_, List.mem_singleton_self _, ?_, written, fun before after parted => ?_⟩
  · exact Store.containerOf?_isSome_promoteDefaultScope
      ((Store.containerOf?_isSome_recordAll Walk.promoteScope_not_mem_flatMap).mpr
        (.inr ⟨_, written, group, rfl⟩))
  · by_cases sets : Trace.SetsGroup after group
    · have part : after ⊆ hierarchy.flatMap (Walk.elementTrace context target true) := by
        rw [parted]
        exact List.subset_append_of_subset_right _ (List.subset_cons_self _ _)
      exact .inr ⟨Walk.standsOn_of_setsGroup hard (Walk.isContainer_of_outputGroup? grouped) part
        sets, sets⟩
    · have unpromoted : Recording.promoteScope ∉
          before ++ .write (.occurrence (current == target) group output) :: after :=
        parted ▸ Walk.promoteScope_not_mem_flatMap
      obtain ⟨present, member, same⟩ := Store.exists_mem_groupedIn
        (fun store write => (store.write_annotations write).1) unpromoted
        (fun recording recorded entry changes =>
          (Store.unset_or_direct_of_mem_memberChanges (.inl rfl) changes).resolve_right
            fun ⟨declared, members, retention, value, direct, given⟩ =>
              sets ⟨declared, members, retention, value, direct ▸ recorded, given⟩) rfl
      refine .inl ⟨present, ?_, same⟩
      rw [Store.groupedIn_eq] at member ⊢
      rwa [hierarchyStore, Store.memberOf?_promoteDefaultScope, parted]

end Outputs

/-! ## Builds -/

/-- Where mappers and transformers replace hard, a build without a defect holds nothing that
one of them is registered for. What they return for an annotation on the hierarchy is present
or is added to a group. There it is found in the end, itself or an agreeing occurrence, unless
an occurrence on the hierarchy that has the name of the container is written later, with a value
of its own. -/
theorem hard_replacement_of_build {session : Session} {element : Element} {metadata : Metadata}
    (hard : session.context.ReplacesHard)
    (unpromoted : ∀ scope, promotedScope? session.context element = some scope →
      ¬ Extended session.context.registry scope)
    (unregistered : session.mutation? (session.model.declaringType element) element = none)
    (built : (session.serve (.build element)).1 = some (.ok metadata))
    (readable : ¬ (ElementBuild.all.walk session.context element).HasDefect) :
    (∀ name, Extended session.context.registry name →
      metadata.hasStereotype name = false ∧ metadata.occurrences name = []) ∧
    ∃ hierarchy, session.model.hierarchy element true false = .ok hierarchy ∧
      ∀ current ∈ hierarchy, ∀ occurrence ∈ Walk.recordedOn session.context current,
        ∀ output ∈ Walk.outputs session.context occurrence,
          (Walk.outputGroup? session.context occurrence output = none →
            metadata.hasAnnotation output.name = true) ∧
          ∀ group, Walk.outputGroup? session.context occurrence output = some group →
            ∃ layer ∈ metadata.layers, (layer.containerOf? output.name).isSome = true ∧
              Recording.write (.occurrence (current == element) group output) ∈
                hierarchy.reverse.flatMap (Walk.elementTrace session.context element true) ∧
              ∀ before after,
                hierarchy.reverse.flatMap (Walk.elementTrace session.context element true) =
                  before ++ .write (.occurrence (current == element) group output) :: after →
                (∃ present ∈ Store.groupedIn layer.annotations group output.name,
                  present.Matches output) ∨
                StandsOn session.context hierarchy group ∧ Trace.SetsGroup after group := by
  obtain ⟨hierarchy, found, rfl⟩ := exists_hierarchyStore_of_build unregistered built readable
  refine ⟨fun name extended => ?_, hierarchy, found, ?_⟩
  · refine Metadata.absent_ofStore fun recorded => ?_
    rcases Store.records_promoteDefaultScope.mp recorded with written | promoted
    · exact Walk.not_records_of_extended hard extended written
    · exact unpromoted name ((promotedScope?_of_hierarchy found).trans promoted) extended
  · -- The store is built from the most general element down, the hierarchy is listed upwards.
    intro current inside occurrence listed output returned
    have reached := List.mem_reverse.mpr inside
    refine ⟨hasAnnotation_of_output hard reached listed returned element, fun group grouped => ?_⟩
    obtain ⟨layer, member, contained, written, kept⟩ :=
      grouped_of_output hard reached listed returned element grouped
    refine ⟨layer, member, contained, written, fun before after parted => ?_⟩
    refine (kept before after parted).imp_right ?_
    rintro ⟨⟨other, above, stands⟩, sets⟩
    exact ⟨⟨other, List.mem_reverse.mp above, stands⟩, sets⟩

/-- An annotation that is renamed to a repeatable one, and a container in a group of another
annotation that holds nothing itself. -/
def emptiedContext : Context where
  registry := .ofExtensions [.rename "old.Tag" "new.Tag"]
  model :=
    { document :=
        { annotations :=
            [("new.Tag", { container := some "new.Tags" }),
              ("bean.Row", { container := some "bean.Rows" })]
          elements :=
            [("bean.tagged", { kind := .field, annotations := [{ name := "old.Tag" }] }),
              ("bean.emptied",
                { kind := .field
                  annotations :=
                    [{ name := "old.Tag" },
                      ({ name := "bean.Rows" } : Annotation).withAnnotations
                        [({ name := "new.Tags" } : Annotation).withAnnotations []]] })] } }

theorem emptiedContext_transformers (name : String) :
    emptiedContext.registry.transformers name =
      if "old.Tag" = name then [fun _ given => [{ given with name := "new.Tag" }]] else [] := by
  have table : emptiedContext.registry.transformerTable =
      [("old.Tag", [fun _ given => [{ given with name := "new.Tag" }]])] := rfl
  simp only [Registry.transformers, table, Dict.get?]
  split <;> rfl

theorem emptiedContext_extended {name : String} (extended : Extended emptiedContext.registry name) :
    name = "old.Tag" := by
  rcases extended with mappers | remappers | transformers
  · exact absurd rfl mappers
  · exact absurd rfl remappers
  · by_contra other
    rw [emptiedContext_transformers, if_neg (Ne.symm other)] at transformers
    exact transformers rfl

theorem emptiedContext_replacesHard : emptiedContext.ReplacesHard where
  remappers := fun _ => rfl
  unaliased := by
    refine Model.unaliased_of_memberless fun entry declared => ?_
    simp only [emptiedContext, List.mem_cons, List.not_mem_nil, or_false] at declared
    rcases declared with rfl | rfl <;> rfl
  single := by
    intro name extended
    cases emptiedContext_extended extended
    rfl
  unbound := by
    intro name extended
    cases emptiedContext_extended extended
    decide
  clean := by
    intro given bare expand registered returned listed
    have transforms : expand ∈ emptiedContext.registry.transformers given.name := registered
    rw [emptiedContext_transformers] at transforms
    split at transforms
    · cases List.mem_singleton.mp transforms
      cases List.mem_singleton.mp listed
      refine .mk (fun extended => ?_) rfl fun stereotype carried => ?_
      · have same : "new.Tag" = "old.Tag" := emptiedContext_extended extended
        exact absurd same (by decide)
      · rw [bare] at carried
        cases carried
    · cases transforms

theorem emptiedContext_tagged :
    emptiedContext.ReplacesHard ∧
      ∃ metadata : Metadata,
        ((Session.fresh emptiedContext).serve (.build (.declaration "bean.tagged"))).1 =
          some (.ok metadata) ∧
        metadata.hasStereotype "old.Tag" = false ∧
        ∃ layer ∈ metadata.layers, (layer.containerOf? "new.Tag").isSome = true ∧
          ∃ present ∈ Store.groupedIn layer.annotations "new.Tags" "new.Tag",
            present.Matches { name := "new.Tag" } := by
  have hard : (Session.fresh emptiedContext).context.ReplacesHard := emptiedContext_replacesHard
  have built : ((Session.fresh emptiedContext).serve (.build (.declaration "bean.tagged"))).1 =
      some (.ok _) := rfl
  obtain ⟨absent, hierarchy, found, outputs⟩ := hard_replacement_of_build hard
    (by nofun) (by rfl) built (by rintro ⟨_, defect⟩; cases defect)
  cases found
  refine ⟨hard, _, built, (absent "old.Tag" (.inr (.inr (List.cons_ne_nil _ _)))).1, ?_⟩
  obtain ⟨layer, member, contained, written, kept⟩ := (outputs (.declaration "bean.tagged")
    List.mem_cons_self { name := "old.Tag" } List.mem_cons_self { name := "new.Tag" }
    List.mem_cons_self).2 "new.Tags" rfl
  obtain ⟨before, after, parted⟩ := List.append_of_mem written
  refine ⟨layer, member, contained, (kept before after parted).resolve_right ?_⟩
  rintro ⟨⟨current, inside, occurrence, listed, named⟩, _⟩
  cases List.mem_singleton.mp inside
  cases List.mem_singleton.mp listed
  revert named
  decide

/-- The empty container writes over the group that the output was added to. -/
theorem emptiedContext_emptied :
    emptiedContext.ReplacesHard ∧
      promotedScope? emptiedContext (.declaration "bean.emptied") = none ∧
      Walk.outputs emptiedContext { name := "old.Tag" } = [{ name := "new.Tag" }] ∧
      ∃ layer : Store,
        ((Session.fresh emptiedContext).serve (.build (.declaration "bean.emptied"))).1 =
          some (.ok (.store layer)) ∧
        layer.hasAnnotation "new.Tag" = false ∧ layer.occurrences "new.Tag" = [] ∧
        ∀ container, Store.groupedIn layer.annotations container "new.Tag" = [] ∧
          Store.groupedIn layer.stereotypes container "new.Tag" = [] := by
  refine ⟨emptiedContext_replacesHard, rfl, rfl, _, rfl, rfl, rfl, fun container => ⟨?_, rfl⟩⟩
  change Store.groupedIn [("new.Tags", [(Name.valueMember, .array [])])] container "new.Tag" = []
  by_cases named : "new.Tags" = container
  · simp [Store.groupedIn, Dict.get?, named, Value.annotations]
  · simp [Store.groupedIn, Dict.get?, named]

end AnnotationMetadata
