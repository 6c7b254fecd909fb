import AnnotationMetadata.Proofs.Metadata.Groups
import AnnotationMetadata.Proofs.Session.SnapshotValues

set_option autoImplicit false

/-!
# Occurrences in snapshots

The occurrences of a repeatable annotation are the items of one array, the value of an
ordinary member. A snapshot merges layers member by member, and so the occurrences that
a layer has in a group get lost below another layer with a group of the same container,
although the metadata lists them.
-/

namespace AnnotationMetadata

/-- A snapshot lists the occurrences of a repeatable annotation that stand in the first group
among annotations and in the first one among stereotypes. All of them are occurrences of the
metadata. An occurrence of the metadata that is not among them comes from a layer below another
one that has a group of the same container in the same place. -/
theorem occurrences_of_snapshot {metadata : Metadata} {container name : String}
    (keyed : ∀ layer ∈ metadata.layers, layer.Keyed)
    (groups : ∀ layer ∈ metadata.layers, layer.GroupsUnder container name) :
    metadata.snapshot.occurrences name =
      metadata.firstGroup Store.annotations container name ++
        metadata.firstGroup Store.stereotypes container name ∧
    (∀ occurrence ∈ metadata.snapshot.occurrences name,
      ∃ present ∈ metadata.occurrences name, present.Matches occurrence) ∧
    ∀ occurrence ∈ metadata.occurrences name,
      occurrence ∈ metadata.snapshot.occurrences name ∨
        ∃ upper lower, [upper, lower].Sublist metadata.layers ∧
          upper.Hides lower container occurrence := by
  have snapshot : metadata.snapshot.occurrences name =
      metadata.firstGroup Store.annotations container name ++
        metadata.firstGroup Store.stereotypes container name := by
    rw [(Metadata.groupsUnder_snapshot keyed groups).occurrences,
      Metadata.groupedIn_snapshot Metadata.merged_annotations
        fun layer listed => (keyed layer listed).annotations,
      Metadata.groupedIn_snapshot Metadata.merged_stereotypes
        fun layer listed => (keyed layer listed).stereotypes]
  refine ⟨snapshot, fun occurrence listed => ?_, fun occurrence listed => ?_⟩
  · have held : ∃ layer ∈ metadata.layers, occurrence ∈ layer.occurrences name := by
      rw [snapshot, List.mem_append] at listed
      rcases listed with annotation | stereotype
      · obtain ⟨layer, among, grouped⟩ := Metadata.exists_layer_of_mem_firstGroup annotation
        exact ⟨layer, among, (groups layer among).occurrences ▸ List.mem_append_left _ grouped⟩
      · obtain ⟨layer, among, grouped⟩ := Metadata.exists_layer_of_mem_firstGroup stereotype
        exact ⟨layer, among, (groups layer among).occurrences ▸ List.mem_append_right _ grouped⟩
    obtain ⟨layer, among, own⟩ := held
    exact Metadata.exists_matches_of_mem_layer among own
  · obtain ⟨layer, among, own⟩ := Metadata.exists_layer_of_mem_occurrences listed
    rw [snapshot, List.mem_append]
    rw [(groups layer among).occurrences, List.mem_append] at own
    rcases own with annotation | stereotype
    · have named := Store.name_of_mem_groupedIn annotation
      rcases Metadata.mem_firstGroup_or_hidden among annotation with kept | ⟨upper, above, held⟩
      · exact .inl (.inl kept)
      · exact .inr ⟨upper, layer, above, .inAnnotations held (named ▸ annotation)⟩
    · have named := Store.name_of_mem_groupedIn stereotype
      rcases Metadata.mem_firstGroup_or_hidden among stereotype with kept | ⟨upper, above, held⟩
      · exact .inl (.inr kept)
      · exact .inr ⟨upper, layer, above, .inStereotypes held (named ▸ stereotype)⟩

/-- A repeatable annotation on two fields, and a field without it. -/
def tagsContext : Context where
  model :=
    { document :=
        { annotations :=
            [("bean.Tag", { members := [("value", {})], container := some "bean.Tags" })]
          elements :=
            [("bean.Base.field",
                { kind := .field
                  annotations :=
                    [{ name := "bean.Tag", members := [("value", .string "x")] }] }),
              ("bean.field",
                { kind := .field
                  annotations :=
                    [{ name := "bean.Tag", members := [("value", .string "y")] }] }),
              ("bean.plain", { kind := .field, annotations := [{ name := "bean.Plain" }] })] } }

/-- What is inherited is kept where the field has no group. -/
theorem tagsContext_kept :
    ∃ inherited declared : Metadata,
      ((Session.fresh tagsContext).serve (.build (.declaration "bean.Base.field"))).1 =
        some (.ok inherited) ∧
      ((Session.fresh tagsContext).serve (.build (.declaration "bean.plain"))).1 =
        some (.ok declared) ∧
      (∀ layer ∈ (Metadata.hierarchy inherited declared).layers, layer.Keyed) ∧
      (∀ layer ∈ (Metadata.hierarchy inherited declared).layers,
        layer.GroupsUnder "bean.Tags" "bean.Tag") ∧
      (Metadata.hierarchy inherited declared).snapshot.occurrences "bean.Tag" =
        [{ name := "bean.Tag", members := [("value", .string "x")] }] := by
  obtain ⟨inherited, declared, base, own, groups, annotations, stereotypes⟩ :
      ∃ inherited declared : Metadata,
        ((Session.fresh tagsContext).serve (.build (.declaration "bean.Base.field"))).1 =
          some (.ok inherited) ∧
        ((Session.fresh tagsContext).serve (.build (.declaration "bean.plain"))).1 =
          some (.ok declared) ∧
        (∀ layer ∈ (Metadata.hierarchy inherited declared).layers,
          layer.GroupsUnder "bean.Tags" "bean.Tag") ∧
        (Metadata.hierarchy inherited declared).firstGroup Store.annotations "bean.Tags" "bean.Tag" =
          [{ name := "bean.Tag", members := [("value", .string "x")] }] ∧
        (Metadata.hierarchy inherited declared).firstGroup Store.stereotypes "bean.Tags" "bean.Tag" =
          [] := by
    refine ⟨_, _, rfl, rfl, ?_, rfl, rfl⟩
    exact List.forall_mem_cons.mpr
      ⟨.without rfl rfl rfl, List.forall_mem_singleton.mpr (.grouped rfl)⟩
  have keyed := Session.keyed_hierarchy (fun _ _ => rfl) (by simp) base own
  have snapshot := (occurrences_of_snapshot keyed groups).1
  rw [annotations, stereotypes] at snapshot
  exact ⟨inherited, declared, base, own, keyed, groups, snapshot⟩

/-- What is inherited is lost where the field has a group, too. -/
theorem tagsContext_lost :
    ∃ inherited declared : Metadata,
      ((Session.fresh tagsContext).serve (.build (.declaration "bean.Base.field"))).1 =
        some (.ok inherited) ∧
      ((Session.fresh tagsContext).serve (.build (.declaration "bean.field"))).1 =
        some (.ok declared) ∧
      (∀ layer ∈ (Metadata.hierarchy inherited declared).layers,
        layer.containerOf? "bean.Tag" = some "bean.Tags") ∧
      (Metadata.hierarchy inherited declared).occurrences "bean.Tag" =
        [{ name := "bean.Tag", members := [("value", .string "y")] },
          { name := "bean.Tag", members := [("value", .string "x")] }] ∧
      (Metadata.hierarchy inherited declared).snapshot.occurrences "bean.Tag" =
        [{ name := "bean.Tag", members := [("value", .string "y")] }] := by
  refine ⟨_, _, rfl, rfl, ?_, ?_, rfl⟩
  · exact List.forall_mem_cons.mpr ⟨rfl, List.forall_mem_singleton.mpr rfl⟩
  · have inserted : Metadata.insertOccurrence
        [{ name := "bean.Tag", members := [("value", .string "y")] }]
        { name := "bean.Tag", members := [("value", .string "x")] } =
          [{ name := "bean.Tag", members := [("value", .string "y")] },
            { name := "bean.Tag", members := [("value", .string "x")] }] := by
      simp [Value.membersWithin, Value.agrees, Dict.get?, Annotation.agrees,
        Metadata.insertOccurrence]
    exact inserted

end AnnotationMetadata
