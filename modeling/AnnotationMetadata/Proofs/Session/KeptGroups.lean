import AnnotationMetadata.Proofs.Metadata.Groups
import AnnotationMetadata.Proofs.Session.Annotating
import AnnotationMetadata.Proofs.Store.GroupedOccurrences
import AnnotationMetadata.Proofs.Walk.Recordings

set_option autoImplicit false

/-!
# Groups of annotated metadata

An annotation that is added to metadata leaves the groups that are there as they are, or adds
to them. Only an annotation that is written like a container, with items of its own, replaces
the group of that container.
-/

namespace AnnotationMetadata

/-! ## Changes of groups -/

namespace Store

variable {container name : String} {trace : Trace}

private theorem containerOf?_recordAll_of_some (unpromoted : Recording.promoteScope ∉ trace)
    {store : Store} (grouped : store.containerOf? name = some container) :
    (store.recordAll trace).containerOf? name = some container := by
  have recorded : (store.recordAll trace).containers =
      Dict.underlay store.containers
        (trace.flatMap (Recording.made fun write => write.grouping?.toList)) :=
    recordAll_change (fun _ => rfl) (fun _ _ _ => List.foldl_append) containers_write_eq
      unpromoted store
  rw [containerOf?] at grouped
  rw [containerOf?, recorded, Dict.get?_underlay, grouped, Option.some_or]

/-- A trace keeps all occurrences in a group, unless it writes the container as an
annotation. -/
private theorem occurrences_subset_recordAll (unpromoted : Recording.promoteScope ∉ trace)
    (undirect : ∀ declared members retention value,
      .write (.direct declared container members retention) ∈ trace →
        (Name.valueMember, value) ∉ members)
    {store : Store} (grouped : store.containerOf? name = some container) :
    store.occurrences name ⊆ (store.recordAll trace).occurrences name ∧
      store.declaredOccurrences name ⊆ (store.recordAll trace).declaredOccurrences name := by
  have unset : ∀ {declaredOnly changed},
      changed = Write.annotation? ∨ changed = Write.stereotype? →
        ∀ recording ∈ trace, ∀ entry ∈
          memberChanges container Name.valueMember (recording.changes declaredOnly changed),
          entry.isSet = false := by
    intro declaredOnly changed tables recording recorded entry listed
    refine (unset_or_direct_of_mem_memberChanges tables listed).resolve_right ?_
    rintro ⟨declared, members, retention, value, rfl, given⟩
    exact undirect declared members retention value recorded given
  have still := containerOf?_recordAll_of_some unpromoted grouped
  simp only [occurrences, declaredOccurrences, occurrencesIn, grouped, still]
  refine ⟨List.append_subset.mpr ⟨List.subset_append_of_subset_left _ ?_,
      List.subset_append_of_subset_right _ ?_⟩,
    List.append_subset.mpr ⟨List.subset_append_of_subset_left _ ?_,
      List.subset_append_of_subset_right _ ?_⟩⟩
  · exact groupedIn_subset_recordAll (fun store write => (write_annotations store write).1)
      unpromoted (unset (.inl rfl)) store name
  · exact groupedIn_subset_recordAll (fun store write => (write_stereotypes store write).1)
      unpromoted (unset (.inr rfl)) store name
  · exact groupedIn_subset_recordAll (fun store write => (write_annotations store write).2)
      unpromoted (unset (.inl rfl)) store name
  · exact groupedIn_subset_recordAll (fun store write => (write_stereotypes store write).2)
      unpromoted (unset (.inr rfl)) store name

end Store

/-! ## Produced metadata -/

namespace Metadata

/-- Metadata without layers. -/
inductive Flat : Metadata → Prop where
  | empty : Flat .empty
  | store (data : Store) : Flat (.store data)

theorem Flat.ofStore (data : Store) : Flat (ofStore data) := by
  unfold Metadata.ofStore
  split
  · exact .empty
  · exact .store data

theorem Flat.declaring {metadata : Metadata} (flat : metadata.Flat) (trace : Trace) :
    (metadata.declaring trace).Flat := by
  cases flat with
  | empty => exact .ofStore _
  | store data => exact .ofStore _

/-- Metadata that sessions make of nothing: their answers, where all that is registered and
all that is annotated is such metadata. -/
inductive Produced : Metadata → Prop where
  | empty : Produced .empty
  | answer {session : Session} {request : Request} {metadata : Metadata}
      (registered : ∀ declaringType element given,
        session.mutation? declaringType element = some given → Produced given)
      (annotated : ∀ given occurrence, request = .annotate given occurrence → Produced given)
      (answered : (session.serve request).1 = some (.ok metadata)) : Produced metadata

end Metadata

namespace Session

variable {session : Session} {element : Element} {metadata : Metadata}

theorem flat_of_conclude {seed : Store} {walk : ElementWalk}
    (concluded : (session.conclude element seed walk).1 = .ok metadata) : metadata.Flat := by
  unfold conclude at concluded
  dsimp only at concluded
  split at concluded
  · cases concluded
  · split at concluded
    · cases concluded
      exact .ofStore _
    · cases concluded
      exact .empty
    · cases concluded

theorem flat_of_buildUnlessMutated {declaringType : String} {options : BuildOptions}
    (registered : ∀ given, session.mutation? declaringType element = some given → given.Flat)
    (built : (session.buildUnlessMutated declaringType element options).1 = .ok metadata) :
    metadata.Flat := by
  unfold buildUnlessMutated at built
  split at built
  · next found =>
    cases built
    exact registered _ found
  · exact flat_of_conclude built

private theorem flat_of_serve {request : Request}
    (registered : ∀ declaringType element given,
      session.mutation? declaringType element = some given → given.Flat)
    (annotated : ∀ given occurrence, request = .annotate given occurrence → given.Flat)
    (answered : (session.serve request).1 = some (.ok metadata)) : metadata.Flat := by
  cases request with
  | build element =>
    exact flat_of_buildUnlessMutated (registered _ _) (Option.some.inj answered)
  | buildWithDeclaringType declaringType element =>
    exact flat_of_buildUnlessMutated (registered _ _) (Option.some.inj answered)
  | buildDeclared element => exact flat_of_conclude (Option.some.inj answered)
  | buildOverridden element =>
    exact flat_of_buildUnlessMutated (registered _ _) (Option.some.inj answered)
  | buildForMethod element =>
    exact flat_of_buildUnlessMutated (registered _ _) (Option.some.inj answered)
  | buildGiven element annotations includeElement =>
    have built : (session.buildGiven element annotations includeElement).1 = .ok metadata :=
      Option.some.inj answered
    unfold buildGiven at built
    split at built
    · cases built
      exact .empty
    · exact flat_of_conclude built
  | buildForParent parent element => exact flat_of_conclude (Option.some.inj answered)
  | buildForParentWithDeclaringType declaringType parent element =>
    exact flat_of_conclude (Option.some.inj answered)
  | buildForParentInheriting parent element inheritTypes =>
    exact flat_of_conclude (Option.some.inj answered)
  | annotate given occurrence =>
    have built : (session.annotate given occurrence).1 = .ok metadata := Option.some.inj answered
    unfold annotate at built
    dsimp only at built
    split at built
    · cases built
    · cases built
      exact (annotated given occurrence rfl).declaring _
  | addMutation declaringType element given => cases answered
  | clearMutations => cases answered

end Session

/-- Builds and additions make no layers. -/
theorem Metadata.Produced.flat {metadata : Metadata} (produced : metadata.Produced) :
    metadata.Flat := by
  induction produced with
  | empty => exact .empty
  | answer _ _ answered registered annotated =>
    exact Session.flat_of_serve registered annotated answered

/-! ## Added annotations -/

namespace Walk

variable {context : Context}

/-- An annotation is added as it is given, apart from its retention; everything else that is
recorded for it belongs to its defaults and meta-annotations. -/
private theorem ofMeta_or_given_of_mem_added (empty : context.registry = .empty)
    {given : Annotation} {recording : Recording} (recorded : recording ∈ added context given) :
    recording.OfMeta context.model ∨ ∃ retention,
      recording = Placement.direct.writeIn true (context.model.containerOf? given.name)
        { given with retention } := by
  obtain ⟨step, planned, recorded⟩ := List.mem_flatMap.mp recorded
  simp only [addition] at planned
  split at planned
  · next unknown =>
    have ungrouped : context.model.containerOf? given.name = none := by
      rw [Model.containerOf?, Option.isNone_iff_eq_none.mp unknown, Option.bind_none]
    cases List.mem_singleton.mp planned
    exact .inr ⟨given.retention, ungrouped ▸ List.mem_singleton.mp recorded⟩
  · simp only [List.mem_cons, List.not_mem_nil, or_false] at planned
    rcases planned with rfl | rfl | rfl
    · exact .inr ⟨_, List.mem_singleton.mp recorded⟩
    · exact .inl (List.mem_singleton.mp recorded ▸ .defaults)
    · exact .inl (ofMeta_of_mem_stereotypes empty recorded)

end Walk

private theorem Metadata.declaring_store {trace : Trace} {write : Store.Write}
    (unpromoted : Recording.promoteScope ∉ trace) (written : .write write ∈ trace) {name : String}
    (records : write.Records name) (data : Store) :
    (Metadata.store data).declaring trace = .store (data.recordAll trace) := by
  obtain ⟨key, named⟩ := records.exists_key?
  have present : (data.recordAll trace).hasStereotype key = true :=
    (Store.hasStereotype_recordAll unpromoted).mpr (.inr ⟨write, written, named⟩)
  exact ofStore_eq_store (Store.isEmpty_eq_false present)

/-- Without extensions, metadata that builds and additions have made keeps all grouped
occurrences when an annotation is added, unless the annotation is the container of the group,
not repeatable itself, and has a value of its own. -/
theorem annotate_keeps_groups {session : Session} (empty : session.context.registry = .empty)
    {metadata : Metadata} (produced : metadata.Produced) {layer : Store}
    (among : layer ∈ metadata.layers) {name container : String}
    (grouped : layer.containerOf? name = some container) {occurrence : Annotation}
    (unreplaced : occurrence.name = container →
      (session.model.containerOf? container).isSome = true ∨
        Dict.get? occurrence.members Name.valueMember = none) :
    ∃ annotated, (session.serve (.annotate metadata occurrence)).1 = some (.ok annotated) ∧
      (∀ kept ∈ metadata.occurrences name, ∃ present ∈ annotated.occurrences name,
        present.Matches kept) ∧
      metadata.declaredOccurrences name ⊆ annotated.declaredOccurrences name := by
  have unpromoted := Walk.promoteScope_not_mem_added session.context occurrence
  have answered := session.serve_annotate (.of_empty empty) metadata occurrence
  cases produced.flat with
  | empty => cases among
  | store data =>
    cases List.mem_singleton.mp among
    obtain ⟨write, written, records⟩ := Walk.exists_write_mem_added session.context occurrence
    rw [Metadata.declaring_store unpromoted written records] at answered
    have undirect : ∀ declared members retention value,
        .write (.direct declared container members retention) ∈
          Walk.added session.context occurrence → (Name.valueMember, value) ∉ members := by
      intro declared members retention value recorded given
      rcases Walk.ofMeta_or_given_of_mem_added empty recorded with ofMeta | ⟨_, same⟩
      · cases ofMeta
      · cases found : session.context.model.containerOf? occurrence.name with
        | some outer =>
          rw [found] at same
          cases same
        | none =>
          rw [found] at same
          cases same
          rcases unreplaced rfl with repeatable | unvalued
          · rw [Session.model, found] at repeatable
            cases repeatable
          · exact Dict.get?_eq_none_iff.mp unvalued (List.mem_map_of_mem given)
    obtain ⟨kept, keptDeclared⟩ :=
      Store.occurrences_subset_recordAll unpromoted undirect grouped
    refine ⟨_, answered, fun present listed => ?_, keptDeclared⟩
    obtain ⟨layer, among, there⟩ := Metadata.exists_layer_of_mem_occurrences listed
    cases List.mem_singleton.mp among
    exact Metadata.exists_matches_of_mem_layer (List.mem_singleton_self _) (kept there)

/-- A repeatable annotation on a field, and on another annotation. -/
def boxedContext : Context where
  model :=
    { document :=
        { annotations :=
            [("bean.Tag", { members := [("value", {})], container := some "bean.Tags" }),
              ("bean.Mark",
                { annotations := [{ name := "bean.Tag", members := [("value", .string "y")] }] })]
          elements :=
            [("bean.field",
                { kind := .field
                  annotations :=
                    [{ name := "bean.Tag", members := [("value", .string "x")] }] })] } }

theorem boxedContext_marked :
    ∃ metadata annotated : Metadata,
      ((Session.fresh boxedContext).serve (.build (.declaration "bean.field"))).1 =
        some (.ok metadata) ∧
      ((Session.fresh boxedContext).serve (.annotate metadata { name := "bean.Mark" })).1 =
        some (.ok annotated) ∧
      metadata.occurrences "bean.Tag" =
        [{ name := "bean.Tag", members := [("value", .string "x")] }] ∧
      (∀ kept ∈ metadata.occurrences "bean.Tag", ∃ present ∈ annotated.occurrences "bean.Tag",
        present.Matches kept) ∧
      metadata.declaredOccurrences "bean.Tag" ⊆ annotated.declaredOccurrences "bean.Tag" := by
  have empty : (Session.fresh boxedContext).context.registry = .empty := rfl
  obtain ⟨metadata, built, ⟨layer, among, grouped⟩, listed⟩ : ∃ metadata : Metadata,
      ((Session.fresh boxedContext).serve (.build (.declaration "bean.field"))).1 =
        some (.ok metadata) ∧
      (∃ layer ∈ metadata.layers, layer.containerOf? "bean.Tag" = some "bean.Tags") ∧
      metadata.occurrences "bean.Tag" =
        [{ name := "bean.Tag", members := [("value", .string "x")] }] :=
    ⟨_, rfl, ⟨_, List.mem_singleton_self _, rfl⟩, rfl⟩
  have unreplaced : ({ name := "bean.Mark" } : Annotation).name = "bean.Tags" →
      ((Session.fresh boxedContext).model.containerOf? "bean.Tags").isSome = true ∨
        Dict.get? ({ name := "bean.Mark" } : Annotation).members Name.valueMember = none :=
    fun same => absurd same (by decide)
  have produced := Metadata.Produced.answer (by nofun) (by nofun) built
  obtain ⟨annotated, answered, kept, keptDeclared⟩ :=
    annotate_keeps_groups empty produced among grouped unreplaced
  exact ⟨metadata, annotated, built, answered, listed, kept, keptDeclared⟩

/-- An annotation that is written like the container empties the group. -/
theorem boxedContext_emptied :
    ∃ metadata annotated : Metadata,
      ((Session.fresh boxedContext).serve (.build (.declaration "bean.field"))).1 =
        some (.ok metadata) ∧
      ((Session.fresh boxedContext).serve (.annotate metadata
        { name := "bean.Tags", members := [("value", .array [])] })).1 = some (.ok annotated) ∧
      (∃ layer ∈ metadata.layers, layer.containerOf? "bean.Tag" = some "bean.Tags") ∧
      metadata.occurrences "bean.Tag" =
        [{ name := "bean.Tag", members := [("value", .string "x")] }] ∧
      metadata.declaredOccurrences "bean.Tag" =
        [{ name := "bean.Tag", members := [("value", .string "x")] }] ∧
      annotated.occurrences "bean.Tag" = [] ∧ annotated.declaredOccurrences "bean.Tag" = [] :=
  ⟨_, _, rfl, rfl, ⟨_, List.mem_singleton_self _, rfl⟩, rfl, rfl, rfl, rfl⟩

end AnnotationMetadata
