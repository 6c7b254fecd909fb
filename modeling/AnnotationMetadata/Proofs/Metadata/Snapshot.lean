import AnnotationMetadata.Proofs.Store.Layering

set_option autoImplicit false

/-!
# Snapshots

A snapshot merges the stores of all layers table by table. Each of its tables lists the
names of that table in all layers, the most specific layer first, and holds the members
of the first layer that has them. What is declared comes from the declared layer alone.
-/

namespace AnnotationMetadata

namespace Metadata

/-! ## Tables of a snapshot -/

/-- The table of a store is merged when another store is layered under it. -/
structure Merged (table : Store → Dict Members) : Prop where
  empty : table .empty = []
  absorb : ∀ store other : Store,
    table (store.absorb other false) = Store.addTable (table store) (table other)

theorem merged_annotations : Merged Store.annotations := ⟨rfl, fun _ _ => rfl⟩

theorem merged_stereotypes : Merged Store.stereotypes := ⟨rfl, fun _ _ => rfl⟩

theorem merged_defaults : Merged Store.defaults := ⟨rfl, fun _ _ => rfl⟩

theorem collectNames_eq (metadata : Metadata) (names : Store → List String) :
    metadata.collectNames names = unionInOrder [] (metadata.layers.flatMap names) := by
  have folded : ∀ (layers : List Store) (found : List String),
      layers.foldl (fun found layer => unionInOrder found (names layer)) found =
        unionInOrder found (layers.flatMap names) := by
    intro layers
    induction layers with
    | nil => exact fun _ => rfl
    | cons layer rest ih =>
      intro found
      rw [List.foldl_cons, ih, List.flatMap_cons, unionInOrder_append]
  exact folded metadata.layers []

private theorem collectNames_hierarchy (parent declared : Metadata) (names : Store → List String) :
    (hierarchy parent declared).collectNames names =
      unionInOrder (declared.collectNames names) (parent.collectNames names) := by
  rw [collectNames_eq, collectNames_eq, collectNames_eq, layers, List.flatMap_append,
    unionInOrder_append, unionInOrder_assoc]
  rfl

theorem mem_collectNames {metadata : Metadata} {names : Store → List String} {name : String} :
    name ∈ metadata.collectNames names ↔ ∃ layer ∈ metadata.layers, name ∈ names layer := by
  rw [collectNames_eq, mem_unionInOrder, List.mem_flatMap]
  exact or_iff_right List.not_mem_nil

section Tables

variable {table : Store → Dict Members} (merged : Merged table) {metadata : Metadata}
  (distinct : ∀ layer ∈ metadata.layers, (Dict.keys (table layer)).Nodup)

include merged distinct

/-- The table of a snapshot lists the names of all layers. -/
theorem keys_snapshot :
    Dict.keys (table metadata.snapshot) =
      metadata.collectNames fun layer => Dict.keys (table layer) := by
  induction metadata with
  | empty =>
    rw [snapshot, merged.empty]
    rfl
  | store data =>
    have own := distinct data List.mem_cons_self
    rw [collectNames_eq, layers, List.flatMap_singleton,
      unionInOrder_of_disjoint (by rwa [List.nil_append]), List.nil_append, snapshot]
  | hierarchy parent declared parentIH declaredIH =>
    rw [snapshot, merged.absorb, Store.keys_addTable, collectNames_hierarchy,
      declaredIH fun layer listed => distinct layer (List.mem_append_left _ listed),
      parentIH fun layer listed => distinct layer (List.mem_append_right _ listed)]
  | reference className target targetIH => exact targetIH distinct

/-- The table of a snapshot holds what the first layer that holds a member has. -/
theorem memberOf?_snapshot (name member : String) :
    Store.memberOf? (table metadata.snapshot) name member =
      metadata.layers.findSome? fun layer => Store.memberOf? (table layer) name member := by
  induction metadata with
  | empty =>
    rw [snapshot, merged.empty]
    rfl
  | store data =>
    rw [layers, List.findSome?_singleton, snapshot]
  | hierarchy parent declared parentIH declaredIH =>
    have above := fun layer listed => distinct layer (List.mem_append_left _ listed)
    have below := fun layer listed => distinct layer (List.mem_append_right _ listed)
    have parentKeys : (Dict.keys (table parent.snapshot)).Nodup := by
      rw [keys_snapshot merged below, collectNames_eq]
      exact nodup_unionInOrder List.nodup_nil _
    rw [snapshot, merged.absorb, Store.memberOf?_addTable parentKeys, declaredIH above,
      parentIH below, layers, List.findSome?_append]
  | reference className target targetIH => exact targetIH distinct

end Tables

private theorem declaredAnnotations_snapshot (metadata : Metadata) :
    metadata.snapshot.declaredAnnotations = metadata.declaredAnnotations := by
  induction metadata with
  | empty => rfl
  | store data => rfl
  | hierarchy parent declared _ declaredIH => exact declaredIH
  | reference className target targetIH => exact targetIH

private theorem declaredStereotypes_snapshot (metadata : Metadata) :
    metadata.snapshot.declaredStereotypes = metadata.declaredStereotypes := by
  induction metadata with
  | empty => rfl
  | store data => rfl
  | hierarchy parent declared _ declaredIH => exact declaredIH
  | reference className target targetIH => exact targetIH

/-! ## Names -/

private theorem any_contains_iff {metadata : Metadata} {table : Store → Dict Members}
    {name : String} :
    (metadata.layers.any fun layer => Dict.contains (table layer) name) = true ↔
      name ∈ metadata.collectNames fun layer => Dict.keys (table layer) := by
  rw [List.any_eq_true, mem_collectNames]
  simp only [Dict.contains_iff]

theorem hasStereotype_iff {metadata : Metadata} {name : String} :
    metadata.hasStereotype name = true ↔
      name ∈ metadata.annotationNames ∨ name ∈ metadata.stereotypeNames := by
  rw [annotationNames, stereotypeNames, mem_collectNames, mem_collectNames, hasStereotype,
    List.any_eq_true, ← exists_or]
  refine exists_congr fun layer => ?_
  rw [Store.hasStereotype_iff, and_or_left]
  rfl

theorem isEmpty_iff {metadata : Metadata} :
    metadata.isEmpty = true ↔ metadata.annotationNames = [] ∧ metadata.stereotypeNames = [] := by
  have none : ∀ names : Store → List String,
      metadata.collectNames names = [] ↔ ∀ layer ∈ metadata.layers, names layer = [] := by
    intro names
    simp only [List.eq_nil_iff_forall_not_mem, mem_collectNames, not_exists, not_and]
    exact ⟨fun out layer listed name => out name layer listed,
      fun out name layer listed => out layer listed name⟩
  rw [annotationNames, stereotypeNames, none, none, isEmpty, List.all_eq_true,
    ← forall₂_and]
  simp only [Store.annotationNames, Store.stereotypeNames, Dict.keys, List.map_eq_nil_iff,
    Store.isEmpty, Bool.and_eq_true, List.isEmpty_iff]

theorem hasAnnotation_snapshot {metadata : Metadata}
    (keyed : ∀ layer ∈ metadata.layers, layer.Keyed) (name : String) :
    metadata.snapshot.hasAnnotation name = metadata.hasAnnotation name := by
  rw [Bool.eq_iff_iff, Store.hasAnnotation, Dict.contains_iff,
    keys_snapshot merged_annotations fun layer listed => (keyed layer listed).annotations]
  exact any_contains_iff.symm

/-- Metadata and its snapshot name the same annotations and stereotypes in the same order,
declared or not, and answer alike whether one is there and whether there are any. -/
theorem names_of_snapshot {metadata : Metadata}
    (keyed : ∀ layer ∈ metadata.layers, layer.Keyed) :
    metadata.annotationNames = metadata.snapshot.annotationNames ∧
    metadata.stereotypeNames = metadata.snapshot.stereotypeNames ∧
    metadata.declaredAnnotationNames = metadata.snapshot.declaredAnnotationNames ∧
    metadata.declaredStereotypeNames = metadata.snapshot.declaredStereotypeNames ∧
    (∀ name, metadata.hasAnnotation name = metadata.snapshot.hasAnnotation name ∧
      metadata.hasStereotype name = metadata.snapshot.hasStereotype name ∧
      metadata.hasDeclaredAnnotation name = metadata.snapshot.hasDeclaredAnnotation name ∧
      metadata.hasDeclaredStereotype name = metadata.snapshot.hasDeclaredStereotype name) ∧
    metadata.isEmpty = metadata.snapshot.isEmpty := by
  have annotations : metadata.annotationNames = metadata.snapshot.annotationNames :=
    (keys_snapshot merged_annotations fun layer listed => (keyed layer listed).annotations).symm
  have stereotypes : metadata.stereotypeNames = metadata.snapshot.stereotypeNames :=
    (keys_snapshot merged_stereotypes fun layer listed => (keyed layer listed).stereotypes).symm
  have declaredAnnotations := declaredAnnotations_snapshot metadata
  have declaredStereotypes := declaredStereotypes_snapshot metadata
  refine ⟨annotations, stereotypes, ?_, ?_, fun name => ⟨?_, ?_, ?_, ?_⟩, ?_⟩
  · rw [Store.declaredAnnotationNames, declaredAnnotations, declaredAnnotationNames,
      Metadata.declaredAnnotations]
    cases metadata.declaredPart? <;> rfl
  · rw [Store.declaredStereotypeNames, declaredStereotypes, declaredStereotypeNames,
      Metadata.declaredStereotypes]
    cases metadata.declaredPart? <;> rfl
  · exact (hasAnnotation_snapshot keyed name).symm
  · rw [Bool.eq_iff_iff, hasStereotype_iff, Store.hasStereotype_iff, annotations, stereotypes]
    rfl
  · rw [Store.hasDeclaredAnnotation, declaredAnnotations, hasDeclaredAnnotation,
      Metadata.declaredAnnotations]
    cases metadata.declaredPart? <;> rfl
  · rw [Store.hasDeclaredStereotype, declaredAnnotations, declaredStereotypes,
      hasDeclaredStereotype, Metadata.declaredAnnotations, Metadata.declaredStereotypes]
    cases metadata.declaredPart? <;> rfl
  · rw [Bool.eq_iff_iff, isEmpty_iff, annotations, stereotypes, Store.isEmpty, Bool.and_eq_true,
      List.isEmpty_iff, List.isEmpty_iff, Store.annotationNames, Store.stereotypeNames,
      Dict.keys, Dict.keys, List.map_eq_nil_iff, List.map_eq_nil_iff]

/-- What a class declares over what it inherits, under the metadata of another class. -/
def nestedMetadata : Metadata :=
  .hierarchy
    (.reference "bean.Base"
      (.store (Store.empty.write (.direct true "bean.Marked" [] .runtime))))
    (.hierarchy
      (.store (Store.empty.write (.stereotype true ["bean.Named"] "bean.Marked" [] .runtime)))
      (.store
        (((Store.empty.write (.occurrence true "bean.Tags" { name := "bean.Tag" })).write
          (.direct false "bean.Named" [] .source)).absorb
            (Store.empty.write (.direct true "bean.Plain" [] .runtime)) true)))

theorem nestedMetadata_names :
    (∀ layer ∈ nestedMetadata.layers, layer.Keyed) ∧
    nestedMetadata.annotationNames = ["bean.Tags", "bean.Named", "bean.Plain", "bean.Marked"] ∧
    nestedMetadata.snapshot.annotationNames = nestedMetadata.annotationNames ∧
    nestedMetadata.snapshot.declaredAnnotationNames = ["bean.Tags", "bean.Plain"] := by
  have keyed : ∀ layer ∈ nestedMetadata.layers, layer.Keyed := by
    intro layer listed
    refine Store.Reachable.keyed ?_
    simp only [nestedMetadata, layers, List.mem_append, List.mem_singleton] at listed
    rcases listed with (rfl | rfl) | rfl
    · exact .absorb (.write (.write .empty _) _) (.write .empty _) true
    · exact .write .empty _
    · exact .write .empty _
  obtain ⟨annotations, _, declared, _⟩ := names_of_snapshot keyed
  exact ⟨keyed, by decide, annotations.symm, declared.symm.trans (by decide)⟩

end Metadata

end AnnotationMetadata
