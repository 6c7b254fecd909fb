import AnnotationMetadata.Proofs.Metadata.Snapshot
import AnnotationMetadata.Proofs.Session.RegisteredDefaults

set_option autoImplicit false

/-!
# Values in snapshots

Metadata looks for a value layer by layer, and in each layer falls back from the annotation
to the stereotype and then to the default. A snapshot merges annotations, stereotypes and
defaults each for themselves and falls back afterwards. It answers as the metadata does
where the first layer that has a value has it from what is asked first; else the annotation
of a more general layer hides that value.
-/

namespace AnnotationMetadata

namespace Store

/-- The value that is recorded for a member, without defaults. -/
def recordedValue? (store : Store) (name member : String) : Option Value :=
  (store.values? name).bind (Dict.get? · member)

theorem value?_eq (store : Store) (name member : String) :
    store.value? name member =
      (store.recordedValue? name member).or (memberOf? store.defaults name member) :=
  rfl

theorem recordedValue?_eq (store : Store) (name member : String) :
    store.recordedValue? name member =
      if store.hasAnnotation name then memberOf? store.annotations name member
      else memberOf? store.stereotypes name member := by
  unfold recordedValue? values? hasAnnotation memberOf? Dict.contains
  cases Dict.get? store.annotations name <;> rfl

theorem memberOf?_eq_none_of_not_hasAnnotation {store : Store} {name : String}
    (unannotated : store.hasAnnotation name = false) (member : String) :
    memberOf? store.annotations name member = none := by
  have missing : Dict.get? store.annotations name = none := by
    simpa [Dict.contains, hasAnnotation] using unannotated
  rw [memberOf?, missing]
  rfl

/-- What is recorded under an annotation is the recorded value. -/
theorem recordedValue?_of_annotation {store : Store} {name member : String} {value : Value}
    (held : memberOf? store.annotations name member = some value) :
    store.recordedValue? name member = some value := by
  rw [recordedValue?_eq]
  cases annotated : store.hasAnnotation name with
  | true => exact held
  | false =>
    have absent := memberOf?_eq_none_of_not_hasAnnotation annotated member
    cases absent.symm.trans held

end Store

namespace Metadata

variable {metadata : Metadata} {name member : String}

/-- The first layer that has a value for a member, be it a default. -/
def answering? (metadata : Metadata) (name member : String) : Option Store :=
  metadata.layers.find? fun layer => (layer.value? name member).isSome

private theorem value?_of_answering? {layer : Store}
    (answers : metadata.answering? name member = some layer) :
    metadata.value? name member = layer.value? name member := by
  obtain ⟨found, before, after, layers, silent⟩ := List.find?_eq_some_iff_append.mp answers
  obtain ⟨value, held⟩ := Option.isSome_iff_exists.mp found
  have none : before.findSome? (fun earlier => earlier.value? name member) = none :=
    List.findSome?_eq_none_iff.mpr fun earlier listed => by simpa using silent earlier listed
  rw [value?, layers, List.findSome?_append, none, Option.none_or, List.findSome?_cons, held]

/-- A part of the value of a layer that no earlier layer has is what all layers have first. -/
theorem findSome?_of_answering? {layer : Store} {part : Store → Option Value} {value : Value}
    (answers : metadata.answering? name member = some layer)
    (silent : ∀ other ∈ metadata.layers, other.value? name member = none → part other = none)
    (held : part layer = some value) : metadata.layers.findSome? part = some value := by
  obtain ⟨_, before, after, layers, earlier⟩ := List.find?_eq_some_iff_append.mp answers
  have none : before.findSome? part = none := by
    refine List.findSome?_eq_none_iff.mpr fun other listed => silent other ?_ ?_
    · rw [layers]
      exact List.mem_append_left _ listed
    · simpa using earlier other listed
  rw [layers, List.findSome?_append, none, Option.none_or, List.findSome?_cons, held]

/-- What all layers have recorded for a member: under the annotation if one of them has it,
else under the stereotype. -/
def mergedValue? (metadata : Metadata) (name member : String) : Option Value :=
  if metadata.hasAnnotation name then
    metadata.layers.findSome? fun layer => Store.memberOf? layer.annotations name member
  else metadata.layers.findSome? fun layer => Store.memberOf? layer.stereotypes name member

theorem hasAnnotation_layer {layer : Store} (listed : layer ∈ metadata.layers)
    (unannotated : metadata.hasAnnotation name = false) : layer.hasAnnotation name = false :=
  Bool.eq_false_iff.mpr (List.any_eq_false.mp unannotated layer listed)

/-- Only what some layer has recorded is merged. -/
theorem mergedValue?_eq_none
    (unrecorded : ∀ layer ∈ metadata.layers, layer.recordedValue? name member = none) :
    metadata.mergedValue? name member = none := by
  unfold mergedValue?
  split
  · refine List.findSome?_eq_none_iff.mpr fun layer listed => ?_
    refine Option.eq_none_iff_forall_not_mem.mpr fun value held => ?_
    cases (unrecorded layer listed).symm.trans (Store.recordedValue?_of_annotation held)
  · next unannotated =>
    refine List.findSome?_eq_none_iff.mpr fun layer listed => ?_
    have without := hasAnnotation_layer listed (Bool.eq_false_iff.mpr unannotated)
    have recorded := unrecorded layer listed
    rw [Store.recordedValue?_eq, without] at recorded
    exact recorded

/-- The metadata holds its value where a snapshot asks first: under the annotation, or under
the stereotype when no layer has the annotation, or as a default when nothing is recorded. -/
inductive AsksAlike (metadata : Metadata) (name member : String) (layer : Store) : Prop where
  | annotation (held : (Store.memberOf? layer.annotations name member).isSome)
  | stereotype (unannotated : metadata.hasAnnotation name = false)
      (held : (Store.memberOf? layer.stereotypes name member).isSome)
  | default (unrecorded : ∀ other ∈ metadata.layers, other.recordedValue? name member = none)

/-- What the first layer with a value answers is merged first. -/
private theorem value?_of_asksAlike {layer : Store}
    (answers : metadata.answering? name member = some layer)
    (alike : metadata.AsksAlike name member layer) :
    metadata.value? name member =
      (metadata.mergedValue? name member).or
        (metadata.layers.findSome? fun layer => Store.memberOf? layer.defaults name member) := by
  have listed : layer ∈ metadata.layers := List.mem_of_find?_eq_some answers
  have silent : ∀ other : Store, other.value? name member = none →
      other.recordedValue? name member = none ∧
        Store.memberOf? other.defaults name member = none :=
    fun other none => Option.or_eq_none_iff.mp none
  rw [value?_of_answering? answers, Store.value?_eq]
  cases alike with
  | annotation held =>
    obtain ⟨value, held⟩ := Option.isSome_iff_exists.mp held
    have annotated : metadata.hasAnnotation name = true := by
      refine List.any_eq_true.mpr ⟨layer, listed, Bool.of_not_eq_false fun without => ?_⟩
      have absent := Store.memberOf?_eq_none_of_not_hasAnnotation without member
      cases absent.symm.trans held
    have merged : metadata.mergedValue? name member = some value := by
      rw [mergedValue?, if_pos annotated]
      refine findSome?_of_answering? answers (fun other _ none => ?_) held
      refine Option.eq_none_iff_forall_not_mem.mpr fun earlier found => ?_
      cases (silent other none).1.symm.trans (Store.recordedValue?_of_annotation found)
    rw [merged, Store.recordedValue?_of_annotation held, Option.some_or, Option.some_or]
  | stereotype unannotated held =>
    obtain ⟨value, held⟩ := Option.isSome_iff_exists.mp held
    have recorded : ∀ other ∈ metadata.layers, other.recordedValue? name member =
        Store.memberOf? other.stereotypes name member := by
      intro other member
      rw [Store.recordedValue?_eq, hasAnnotation_layer member unannotated]
      rfl
    have merged : metadata.mergedValue? name member = some value := by
      rw [mergedValue?, unannotated]
      refine findSome?_of_answering? answers (fun other among none => ?_) held
      rw [← recorded other among]
      exact (silent other none).1
    rw [merged, recorded layer listed, held, Option.some_or, Option.some_or]
  | default unrecorded =>
    rw [mergedValue?_eq_none unrecorded, unrecorded layer listed, Option.none_or, Option.none_or]
    obtain ⟨found, _⟩ := List.find?_eq_some_iff_append.mp answers
    rw [Store.value?_eq, unrecorded layer listed, Option.none_or] at found
    obtain ⟨value, held⟩ := Option.isSome_iff_exists.mp found
    rw [held]
    exact (findSome?_of_answering? answers (fun other _ none => (silent other none).2) held).symm

end Metadata

/-! ## Built metadata -/

theorem Session.keyed_of_serve {session : Session} {request : Request} {metadata : Metadata}
    (unregistered : ∀ declaringType element, session.mutation? declaringType element = none)
    (builds : ∀ given occurrence, request ≠ .annotate given occurrence)
    (returned : (session.serve request).1 = some (.ok metadata)) :
    ∀ layer ∈ metadata.layers, layer.Keyed := by
  rcases eq_ofStore_of_serve unregistered builds returned with rfl | rfl
  · exact fun _ none => nomatch none
  · intro layer listed
    unfold Metadata.ofStore at listed
    split at listed
    · cases listed
    · cases List.mem_singleton.mp listed
      exact (Store.Reachable.empty.recordAll _).keyed

theorem Session.keyed_hierarchy {session : Session} {above own : Request}
    {inherited declared : Metadata}
    (unregistered : ∀ declaringType element, session.mutation? declaringType element = none)
    (builds : ∀ request ∈ [above, own], ∀ given occurrence, request ≠ .annotate given occurrence)
    (returnedAbove : (session.serve above).1 = some (.ok inherited))
    (returned : (session.serve own).1 = some (.ok declared)) :
    ∀ layer ∈ (Metadata.hierarchy inherited declared).layers, layer.Keyed := by
  intro layer listed
  rcases List.mem_append.mp listed with first | below
  · exact keyed_of_serve unregistered (builds own (by simp)) returned layer first
  · exact keyed_of_serve unregistered (builds above (by simp)) returnedAbove layer below

/-- A snapshot of layers answers with what is merged of their annotations, or else of their
stereotypes when none of them has the annotation, or else of their defaults. It has no value
that the metadata does not have, and it has the same one where the first layer that has a
value holds it where the snapshot asks first. -/
theorem value_of_snapshot {metadata : Metadata}
    (keyed : ∀ layer ∈ metadata.layers, layer.Keyed) (name member : String) :
    metadata.snapshot.value? name member =
      (metadata.mergedValue? name member).or
        (metadata.layers.findSome? fun layer => Store.memberOf? layer.defaults name member) ∧
    (metadata.value? name member = none → metadata.snapshot.value? name member = none) ∧
    ∀ layer, metadata.answering? name member = some layer →
      metadata.AsksAlike name member layer →
      metadata.value? name member = metadata.snapshot.value? name member := by
  have snapshot : metadata.snapshot.value? name member =
      (metadata.mergedValue? name member).or
        (metadata.layers.findSome? fun layer => Store.memberOf? layer.defaults name member) := by
    rw [Store.value?_eq, Store.recordedValue?_eq, Metadata.hasAnnotation_snapshot keyed,
      Metadata.memberOf?_snapshot Metadata.merged_annotations
        fun layer listed => (keyed layer listed).annotations,
      Metadata.memberOf?_snapshot Metadata.merged_stereotypes
        fun layer listed => (keyed layer listed).stereotypes,
      Metadata.memberOf?_snapshot Metadata.merged_defaults
        fun layer listed => (keyed layer listed).defaults]
    rfl
  refine ⟨snapshot, fun unanswered => ?_, fun layer answers alike => ?_⟩
  · have silent := List.findSome?_eq_none_iff.mp unanswered
    have defaults : ∀ layer ∈ metadata.layers, Store.memberOf? layer.defaults name member = none :=
      fun layer listed => (Option.or_eq_none_iff.mp (silent layer listed)).2
    rw [snapshot, Metadata.mergedValue?_eq_none fun layer listed =>
        (Option.or_eq_none_iff.mp (silent layer listed)).1, Option.none_or]
    exact List.findSome?_eq_none_iff.mpr defaults
  · rw [snapshot, Metadata.value?_of_asksAlike answers alike]

/-- Two fields. The first one has two annotations, which the second one has as a stereotype
and with a default. -/
def levelContext : Context where
  model :=
    { document :=
        { annotations :=
            [("bean.Level", { members := [("value", {})] }),
              ("bean.Limit", { members := [("value", { default := some (.string "low") })] }),
              ("bean.Special",
                { members := [("name", {})]
                  annotations :=
                    [{ name := "bean.Level", members := [("value", .string "high")] }] })]
          elements :=
            [("bean.Base.field",
                { kind := .field
                  annotations :=
                    [{ name := "bean.Level" },
                      { name := "bean.Limit", members := [("value", .string "high")] }] }),
              ("bean.field",
                { kind := .field
                  annotations :=
                    [{ name := "bean.Limit" },
                      { name := "bean.Special", members := [("name", .string "x")] }] })] } }

/-- What an annotation of the first layer holds is in the snapshot. -/
theorem levelContext_kept :
    ∃ inherited declared : Metadata,
      ((Session.fresh levelContext).serve (.build (.declaration "bean.Base.field"))).1 =
        some (.ok inherited) ∧
      ((Session.fresh levelContext).serve (.build (.declaration "bean.field"))).1 =
        some (.ok declared) ∧
      (∀ layer ∈ (Metadata.hierarchy inherited declared).layers, layer.Keyed) ∧
      (Metadata.hierarchy inherited declared).value? "bean.Special" "name" = some (.string "x") ∧
      (Metadata.hierarchy inherited declared).value? "bean.Special" "name" =
        (Metadata.hierarchy inherited declared).snapshot.value? "bean.Special" "name" := by
  have above : ((Session.fresh levelContext).serve
      (.build (.declaration "bean.Base.field"))).1 = some (.ok _) := rfl
  have own : ((Session.fresh levelContext).serve (.build (.declaration "bean.field"))).1 =
      some (.ok _) := rfl
  have keyed := Session.keyed_hierarchy (fun _ _ => rfl) (by simp) above own
  obtain ⟨_, _, kept⟩ := value_of_snapshot keyed "bean.Special" "name"
  exact ⟨_, _, above, own, keyed, rfl, kept _ rfl <| Metadata.AsksAlike.annotation rfl⟩

/-- The value of a stereotype of the first layer gets lost, and its default is replaced. -/
theorem levelContext_hidden :
    ∃ inherited declared : Metadata,
      ((Session.fresh levelContext).serve (.build (.declaration "bean.Base.field"))).1 =
        some (.ok inherited) ∧
      ((Session.fresh levelContext).serve (.build (.declaration "bean.field"))).1 =
        some (.ok declared) ∧
      (Metadata.hierarchy inherited declared).value? "bean.Level" "value" =
        some (.string "high") ∧
      (Metadata.hierarchy inherited declared).snapshot.value? "bean.Level" "value" = none ∧
      (Metadata.hierarchy inherited declared).value? "bean.Limit" "value" = some (.string "low") ∧
      (Metadata.hierarchy inherited declared).snapshot.value? "bean.Limit" "value" =
        some (.string "high") :=
  ⟨_, _, rfl, rfl, rfl, rfl, rfl, rfl⟩

end AnnotationMetadata
