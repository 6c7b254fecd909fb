import AnnotationMetadata.Proofs.Metadata.Snapshot

set_option autoImplicit false

/-!
# Groups in layers

Metadata lists the occurrences that stand in the groups of all layers, each once. Its
snapshot has the whole group of the first layer that has one.
-/

namespace AnnotationMetadata

namespace Store

/-- An annotation is grouped under a container, or the store has neither of them. -/
inductive GroupsUnder (store : Store) (container name : String) : Prop where
  | grouped (found : store.containerOf? name = some container)
  | without (ungrouped : store.containerOf? name = none)
      (unrecorded : store.hasStereotype name = false)
      (empty : store.hasStereotype container = false)

theorem not_listed_of_not_hasStereotype {store : Store} {name : String}
    (unrecorded : store.hasStereotype name = false) :
    Dict.get? store.annotations name = none ∧ Dict.get? store.stereotypes name = none := by
  have unlisted := fun listed => Bool.eq_false_iff.mp unrecorded (hasStereotype_iff.mpr listed)
  exact ⟨Dict.get?_eq_none_iff.mpr fun listed => unlisted (.inl listed),
    Dict.get?_eq_none_iff.mpr fun listed => unlisted (.inr listed)⟩

theorem GroupsUnder.occurrences {store : Store} {container name : String}
    (groups : store.GroupsUnder container name) :
    store.occurrences name =
      groupedIn store.annotations container name ++ groupedIn store.stereotypes container name := by
  cases groups with
  | grouped found => simp only [Store.occurrences, occurrencesIn, found]
  | without ungrouped unrecorded empty =>
    obtain ⟨unannotated, unreached⟩ := not_listed_of_not_hasStereotype unrecorded
    obtain ⟨inAnnotations, inStereotypes⟩ := not_listed_of_not_hasStereotype empty
    simp [Store.occurrences, occurrencesIn, ungrouped, unannotated, unreached, groupedIn,
      inAnnotations, inStereotypes]

/-- Whether a table has a group of the container. -/
def hasGroup (table : Dict Members) (container : String) : Bool :=
  (memberOf? table container Name.valueMember).isSome

private theorem hasGroup_of_mem_groupedIn {table : Dict Members} {container name : String}
    {occurrence : Annotation} (listed : occurrence ∈ groupedIn table container name) :
    hasGroup table container = true := by
  rw [groupedIn_eq] at listed
  unfold hasGroup
  cases found : memberOf? table container Name.valueMember with
  | none => simp [found] at listed
  | some value => rfl

private theorem groupedIn_congr {table other : Dict Members} {container : String}
    (same : memberOf? table container Name.valueMember =
      memberOf? other container Name.valueMember) (name : String) :
    groupedIn table container name = groupedIn other container name := by
  rw [groupedIn_eq, groupedIn_eq, same]

/-- An occurrence stands in a group of the lower store, and the upper one has a group of the
same container in the same place. -/
inductive Hides (upper lower : Store) (container : String) (occurrence : Annotation) : Prop where
  | inAnnotations (held : hasGroup upper.annotations container = true)
      (listed : occurrence ∈ groupedIn lower.annotations container occurrence.name)
  | inStereotypes (held : hasGroup upper.stereotypes container = true)
      (listed : occurrence ∈ groupedIn lower.stereotypes container occurrence.name)

theorem name_of_mem_groupedIn {table : Dict Members} {container name : String}
    {occurrence : Annotation} (listed : occurrence ∈ groupedIn table container name) :
    occurrence.name = name := by
  rw [groupedIn_eq] at listed
  exact beq_iff_eq.mp (List.mem_filter.mp listed).2

end Store

namespace Metadata

variable {metadata : Metadata} {container name : String}

/-! ## Occurrences of all layers -/

section Inserting

private theorem subset_foldl_insertOccurrence (items found : List Annotation) :
    found ⊆ items.foldl insertOccurrence found := by
  induction items generalizing found with
  | nil => exact List.Subset.refl _
  | cons item rest ih =>
    refine List.Subset.trans ?_ (ih _)
    unfold insertOccurrence
    split
    · exact List.Subset.refl _
    · exact List.subset_append_left _ _

private theorem mem_or_mem_of_foldl_insertOccurrence {items found : List Annotation}
    {occurrence : Annotation} (listed : occurrence ∈ items.foldl insertOccurrence found) :
    occurrence ∈ found ∨ occurrence ∈ items := by
  induction items generalizing found with
  | nil => exact .inl listed
  | cons item rest ih =>
    rcases ih listed with before | later
    · unfold insertOccurrence at before
      split at before
      · exact .inl before
      · exact (List.mem_append.mp before).imp_right fun last =>
          List.mem_cons.mpr (.inl (List.mem_singleton.mp last))
    · exact .inr (List.mem_cons_of_mem _ later)

private theorem exists_matches_insertOccurrence (found : List Annotation)
    (occurrence : Annotation) :
    ∃ present ∈ insertOccurrence found occurrence, present.Matches occurrence := by
  unfold insertOccurrence
  split
  · next agreeing =>
    obtain ⟨present, listed, agrees⟩ := List.any_eq_true.mp agreeing
    exact ⟨present, listed, .inr agrees⟩
  · exact ⟨occurrence, List.mem_append_right _ List.mem_cons_self, .inl rfl⟩

private theorem exists_matches_of_mem {items : List Annotation} {occurrence : Annotation}
    (listed : occurrence ∈ items) (found : List Annotation) :
    ∃ present ∈ items.foldl insertOccurrence found, present.Matches occurrence := by
  induction items generalizing found with
  | nil => cases listed
  | cons item rest ih =>
    rcases List.mem_cons.mp listed with rfl | later
    · obtain ⟨present, before, same⟩ := exists_matches_insertOccurrence found occurrence
      exact ⟨present, subset_foldl_insertOccurrence rest _ before, same⟩
    · exact ih later _

end Inserting

theorem occurrences_eq (metadata : Metadata) (name : String) :
    metadata.occurrences name =
      (metadata.layers.flatMap fun layer => layer.occurrences name).foldl insertOccurrence [] := by
  rw [List.foldl_flatMap]
  rfl

theorem exists_layer_of_mem_occurrences {occurrence : Annotation}
    (listed : occurrence ∈ metadata.occurrences name) :
    ∃ layer ∈ metadata.layers, occurrence ∈ layer.occurrences name := by
  rw [occurrences_eq] at listed
  exact List.mem_flatMap.mp
    ((mem_or_mem_of_foldl_insertOccurrence listed).resolve_left List.not_mem_nil)

theorem exists_matches_of_mem_layer {layer : Store} {occurrence : Annotation}
    (among : layer ∈ metadata.layers) (listed : occurrence ∈ layer.occurrences name) :
    ∃ present ∈ metadata.occurrences name, present.Matches occurrence := by
  rw [occurrences_eq]
  exact exists_matches_of_mem (List.mem_flatMap.mpr ⟨layer, among, listed⟩) []

/-! ## The group in a snapshot -/

/-- The occurrences in the group of the first layer that has one. -/
def firstGroup (metadata : Metadata) (table : Store → Dict Members) (container name : String) :
    List Annotation :=
  match metadata.layers.find? fun layer => Store.hasGroup (table layer) container with
  | some layer => Store.groupedIn (table layer) container name
  | none => []

section Tables

variable {table : Store → Dict Members}

theorem groupedIn_snapshot (merged : Merged table)
    (distinct : ∀ layer ∈ metadata.layers, (Dict.keys (table layer)).Nodup) :
    Store.groupedIn (table metadata.snapshot) container name =
      metadata.firstGroup table container name := by
  have held := memberOf?_snapshot merged distinct container Name.valueMember
  unfold firstGroup
  cases first : metadata.layers.find? fun layer => Store.hasGroup (table layer) container with
  | none =>
    have missing : ∀ layer ∈ metadata.layers,
        Store.memberOf? (table layer) container Name.valueMember = none := by
      simpa [Store.hasGroup] using first
    rw [List.findSome?_eq_none_iff.mpr missing] at held
    rw [Store.groupedIn_eq, held]
    rfl
  | some layer =>
    obtain ⟨grouped, before, after, layers, earlier⟩ := List.find?_eq_some_iff_append.mp first
    have missing : ∀ other ∈ before,
        Store.memberOf? (table other) container Name.valueMember = none := by
      simpa [Store.hasGroup] using earlier
    obtain ⟨value, found⟩ := Option.isSome_iff_exists.mp grouped
    rw [layers, List.findSome?_append, List.findSome?_eq_none_iff.mpr missing, Option.none_or,
      List.findSome?_cons, found] at held
    exact Store.groupedIn_congr (held.trans found.symm) name

theorem exists_layer_of_mem_firstGroup {occurrence : Annotation}
    (listed : occurrence ∈ metadata.firstGroup table container name) :
    ∃ layer ∈ metadata.layers, occurrence ∈ Store.groupedIn (table layer) container name := by
  unfold firstGroup at listed
  split at listed
  · next layer first => exact ⟨layer, List.mem_of_find?_eq_some first, listed⟩
  · cases listed

/-- What a layer has in a group is in the first group, or another layer with a group is above. -/
theorem mem_firstGroup_or_hidden {layer : Store} (among : layer ∈ metadata.layers)
    {occurrence : Annotation}
    (listed : occurrence ∈ Store.groupedIn (table layer) container name) :
    occurrence ∈ metadata.firstGroup table container name ∨
      ∃ upper, [upper, layer].Sublist metadata.layers ∧
        Store.hasGroup (table upper) container = true := by
  have grouped := Store.hasGroup_of_mem_groupedIn listed
  have exists_first : (metadata.layers.find? fun layer =>
      Store.hasGroup (table layer) container).isSome :=
    List.find?_isSome.mpr ⟨layer, among, grouped⟩
  obtain ⟨first, found⟩ := Option.isSome_iff_exists.mp exists_first
  obtain ⟨held, before, after, layers, earlier⟩ := List.find?_eq_some_iff_append.mp found
  rw [layers, List.mem_append, List.mem_cons] at among
  rcases among with above | rfl | below
  · have without := earlier layer above
    rw [grouped] at without
    cases without
  · left
    simp only [firstGroup, found]
    exact listed
  · refine .inr ⟨first, ?_, held⟩
    rw [layers]
    exact ((List.singleton_sublist.mpr below).cons_cons first).trans
      (List.sublist_append_right before _)

end Tables

/-! ## Occurrences of a snapshot -/

private theorem containerOf?_snapshot (metadata : Metadata) (name : String) :
    metadata.snapshot.containerOf? name =
      metadata.layers.findSome? fun layer => layer.containerOf? name := by
  induction metadata with
  | empty => rfl
  | store data => exact (List.findSome?_singleton).symm
  | hierarchy parent declared parentIH declaredIH =>
    rw [layers, List.findSome?_append, ← parentIH, ← declaredIH]
    exact Dict.get?_underlay _ _ _
  | reference className target targetIH => exact targetIH

private theorem hasStereotype_snapshot (keyed : ∀ layer ∈ metadata.layers, layer.Keyed)
    (name : String) :
    metadata.snapshot.hasStereotype name = metadata.hasStereotype name := by
  rw [Bool.eq_iff_iff, Store.hasStereotype_iff, hasStereotype_iff,
    keys_snapshot merged_annotations fun layer listed => (keyed layer listed).annotations,
    keys_snapshot merged_stereotypes fun layer listed => (keyed layer listed).stereotypes]
  rfl

/-- Layers that group an annotation under one container make a snapshot that does. -/
theorem groupsUnder_snapshot (keyed : ∀ layer ∈ metadata.layers, layer.Keyed)
    (groups : ∀ layer ∈ metadata.layers, layer.GroupsUnder container name) :
    metadata.snapshot.GroupsUnder container name := by
  have found := containerOf?_snapshot metadata name
  cases first : metadata.layers.findSome? fun layer => layer.containerOf? name with
  | some other =>
    obtain ⟨layer, listed, grouped⟩ := List.exists_of_findSome?_eq_some first
    refine .grouped (found.trans (first.trans ?_))
    cases groups layer listed with
    | grouped same => exact grouped.symm.trans same
    | without ungrouped => cases ungrouped.symm.trans grouped
  | none =>
    have without : ∀ layer ∈ metadata.layers, layer.hasStereotype name = false ∧
        layer.hasStereotype container = false := by
      intro layer listed
      cases groups layer listed with
      | grouped same => cases (List.findSome?_eq_none_iff.mp first layer listed).symm.trans same
      | without _ unrecorded empty => exact ⟨unrecorded, empty⟩
    have unrecorded : ∀ other, (∀ layer ∈ metadata.layers, layer.hasStereotype other = false) →
        metadata.snapshot.hasStereotype other = false := by
      intro other missing
      rw [hasStereotype_snapshot keyed, hasStereotype, List.any_eq_false]
      exact fun layer listed => Bool.eq_false_iff.mp (missing layer listed)
    exact .without (found.trans first) (unrecorded name fun layer listed => (without layer listed).1)
      (unrecorded container fun layer listed => (without layer listed).2)

end Metadata

end AnnotationMetadata
