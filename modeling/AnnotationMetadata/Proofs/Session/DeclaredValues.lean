import AnnotationMetadata.Proofs.Session.DeclaredBuilds
import AnnotationMetadata.Proofs.Session.DefaultScope
import AnnotationMetadata.Proofs.Session.KeptGroups

set_option autoImplicit false

/-!
# Declared values among all values

The element is walked last, and everything that is written there is written twice: as
declared and among all annotations. A value that replaces another is therefore the same on
both sides. A group holds the declared items among all items, those that are inherited
included.
-/

namespace AnnotationMetadata

/-- The value is the other one, or both are arrays and its items are among those of the
other, each itself or an agreeing one. -/
inductive Value.HeldBy : Value → Value → Prop where
  | same (value : Value) : HeldBy value value
  | items {items all : List Value}
      (among : ∀ item ∈ items, ∃ present ∈ all, present.Matches item) :
      HeldBy (.array items) (.array all)

namespace Store

/-! ## One member on both sides -/

/-- What is declared for a member is held by what there is for it. -/
def Holding (declared full : Option Value) : Prop :=
  ∀ value, declared = some value → ∃ all, full = some all ∧ value.HeldBy all

theorem Holding.none (full : Option Value) : Holding none full := by
  intro value absent
  cases absent

theorem Holding.groupItems {declared full : Option Value} (holding : Holding declared full) :
    ∀ item ∈ groupItems declared, ∃ present ∈ groupItems full, present.Matches item := by
  intro item listed
  cases declared with
  | none => cases listed
  | some value =>
    obtain ⟨all, rfl, held⟩ := holding value rfl
    cases held with
    | same => exact ⟨item, listed, .inl rfl⟩
    | items among => exact among item listed

/-- A change that keeps nothing leaves what is declared held by what there is. -/
theorem Holding.apply {declared full : Option Value} (holding : Holding declared full)
    {entry : MemberChange} (replaces : ∀ value, entry ≠ .keep value) :
    (entry.apply declared).HeldBy (entry.apply full) := by
  cases entry with
  | set value => exact .same value
  | keep value => exact absurd rfl (replaces value)
  | add added =>
    constructor
    intro item listed
    -- The added item may be left out on either side, where an agreeing one is there already.
    have present : item ∈ Store.groupItems declared ∨ item = added := by
      unfold Value.insertUnlisted at listed
      split at listed
      · exact .inl listed
      · simpa using listed
    rcases present with before | rfl
    · obtain ⟨kept, there, same⟩ := holding.groupItems item before
      exact ⟨kept, Value.subset_insertUnlisted _ added there, same⟩
    · exact Value.exists_matches_insertUnlisted _ item

theorem Holding.changedMember {changes : List MemberChange}
    (replaces : ∀ entry ∈ changes, ∀ value, entry ≠ .keep value) {declared full : Option Value}
    (holding : Holding declared full) :
    Holding (changedMember changes declared) (changedMember changes full) := by
  induction changes generalizing declared full with
  | nil => exact holding
  | cons entry rest ih =>
    have first : Holding (some (entry.apply declared)) (some (entry.apply full)) := by
      intro value same
      cases same
      exact ⟨_, rfl, holding.apply (replaces entry List.mem_cons_self)⟩
    exact ih (fun later listed => replaces later (List.mem_cons_of_mem _ listed)) first

/-! ## Annotations -/

/-- Annotations are set or added to groups. Only stereotypes keep what is there. -/
theorem ne_keep_of_mem_annotationChanges {declaredOnly : Bool} {recording : Recording}
    {name member : String} {entry : MemberChange}
    (listed : entry ∈
      memberChanges name member (recording.changes declaredOnly Write.annotation?))
    (value : Value) : entry ≠ .keep value := by
  obtain ⟨write, declared, members, rfl, made, present⟩ :=
    exists_change_of_mem_memberChanges listed
  intro kept
  cases write with
  | direct =>
    cases made
    obtain ⟨_, _, same⟩ := List.mem_map.mp present
    cases kept.symm.trans (congrArg Prod.snd same).symm
  | occurrence =>
    cases made
    cases kept.symm.trans (congrArg Prod.snd (List.mem_singleton.mp present))
  | _ => cases made

private theorem memberOf?_declaredAnnotations_promoteDefaultScope (store : Store)
    (name member : String) :
    memberOf? store.promoteDefaultScope.declaredAnnotations name member =
      memberOf? store.declaredAnnotations name member := by
  obtain ⟨added, declared⟩ := store.promoteDefaultScope_declaredAnnotations
  rw [declared, memberOf?_append_promotion]

end Store

/-! ## Hierarchies -/

variable {context : Context} {element : Element}

/-- The element is the last of its hierarchy that is walked. -/
private theorem holding_hierarchyStore {above : List Element}
    (distinct : (above ++ [element]).Nodup) (name member : String) :
    Store.Holding
      (Store.memberOf? (hierarchyStore context element (above ++ [element])).declaredAnnotations
        name member)
      (Store.memberOf? (hierarchyStore context element (above ++ [element])).annotations
        name member) := by
  have listed : element ∈ above ++ [element] := by simp
  obtain ⟨-, declared⟩ := Walk.declared_of_distinct context true listed distinct
  have same : ∀ recording : Recording, recording.DeclaredAs true →
      recording.changes true Store.Write.annotation? =
        recording.changes false Store.Write.annotation? :=
    fun _ declared => by cases declared <;> rfl
  rw [memberOf?_annotations_hierarchyStore, hierarchyStore,
    Store.memberOf?_declaredAnnotations_promoteDefaultScope, declared,
    Walk.memberOf?_declaredTable same, List.flatMap_append, List.flatMap_singleton,
    Store.changedMember_append]
  refine Store.Holding.changedMember ?_ (.none _)
  intro entry changes
  obtain ⟨recording, _, changes⟩ := List.mem_flatMap.mp changes
  exact Store.ne_keep_of_mem_annotationChanges changes

theorem Metadata.annotations_snapshot_ofStore (store : Store) :
    (ofStore store).snapshot.annotations = store.annotations := by
  unfold ofStore
  split
  · next empty =>
    rw [Store.isEmpty, Bool.and_eq_true, List.isEmpty_iff, List.isEmpty_iff] at empty
    rw [empty.1]
    rfl
  · rfl

/-- In all metadata that a build of an element alone comes to, what is declared for a member
of an annotation is there among all annotations: the same value, or in a group that may hold
more. -/
theorem declared_values_of_build {session : Session} {element : Element} {metadata : Metadata}
    {kind : ElementBuild} (alone : kind.parent? = none)
    (unregistered : session.mutation? (session.model.declaringType element) element = none)
    (built : (session.serve (kind.request element)).1 = some (.ok metadata))
    {name member : String} {value : Value}
    (declared : Store.memberOf? metadata.declaredAnnotations name member = some value) :
    ∃ full, Store.memberOf? metadata.snapshot.annotations name member = some full ∧
      value.HeldBy full := by
  rcases ElementBuild.eq_empty_or_hierarchyStore unregistered built with rfl | ⟨listed, found, rfl⟩
  · cases declared
  · rw [ElementBuild.hierarchy_of_parentless alone] at found
    obtain ⟨above, rfl⟩ := Model.hierarchy_eq_cons found
    rw [List.reverse_cons] at declared ⊢
    have distinct : (above.reverse ++ [element]).Nodup := by
      rw [← List.reverse_cons]
      exact List.nodup_reverse.mpr (Model.nodup_of_hierarchy found)
    have lists : (hierarchyStore session.context element
        (above.reverse ++ [element])).ListsDeclared :=
      (listsDeclared_recordAll _).record .promoteScope
    rw [(Metadata.declared_ofStore lists).1] at declared
    rw [Metadata.annotations_snapshot_ofStore]
    exact holding_hierarchyStore distinct name member value declared

/-- A class with a tag and a level. Its supertype has a tag and a level, too. -/
def gradedContext : Context where
  model :=
    { document :=
        { annotations :=
            [("bean.Tag", { container := some "bean.Tags", members := [(Name.valueMember, {})] }),
              ("bean.Level", { members := [(Name.valueMember, {})] })]
          elements :=
            [("bean.Base",
                { kind := .classType, annotations := [level "low", tag "general"] }),
              ("bean.Bean",
                { kind := .classType, supertypes := ["bean.Base"]
                  annotations := [level "high", tag "special"] })] } }
where
  level (value : String) : Annotation :=
    { name := "bean.Level", members := [(Name.valueMember, .string value)] }
  tag (value : String) : Annotation :=
    { name := "bean.Tag", members := [(Name.valueMember, .string value)] }

private theorem gradedContext_hierarchy :
    gradedContext.model.hierarchy (.declaration "bean.Bean") true false =
      .ok (["bean.Bean", "bean.Base"].map .declaration) :=
  Model.hierarchy_of_explored rfl rfl
    (.fresh (by decide) rfl (.fresh (by decide) rfl .done)) true

/-- The declared tag is one of two, and the declared level is the only one. -/
theorem gradedContext_held :
    ∃ metadata : Metadata,
      ((Session.fresh gradedContext).serve (.build (.declaration "bean.Bean"))).1 =
        some (.ok metadata) ∧
      Store.memberOf? metadata.declaredAnnotations "bean.Tags" Name.valueMember =
        some (.array [.nested (gradedContext.tag "special")]) ∧
      Store.memberOf? metadata.snapshot.annotations "bean.Tags" Name.valueMember =
        some (.array [.nested (gradedContext.tag "general"),
          .nested (gradedContext.tag "special")]) ∧
      (∃ full, Store.memberOf? metadata.snapshot.annotations "bean.Tags" Name.valueMember =
          some full ∧
        Value.HeldBy (.array [.nested (gradedContext.tag "special")]) full) ∧
      ∃ full, Store.memberOf? metadata.snapshot.annotations "bean.Level" Name.valueMember =
          some full ∧
        Value.HeldBy (.string "high") full := by
  have built : ((Session.fresh gradedContext).serve (.build (.declaration "bean.Bean"))).1 =
      some (.ok _) := (ElementBuild.serve_all_fresh gradedContext_hierarchy).trans rfl
  have apart : Value.insertUnlisted [.nested (gradedContext.tag "general")]
      (.nested (gradedContext.tag "special")) =
        [.nested (gradedContext.tag "general"), .nested (gradedContext.tag "special")] :=
    if_neg (by decide +kernel)
  have alone : ElementBuild.all.parent? = none := rfl
  refine ⟨_, built, rfl, congrArg (fun items => some (Value.array items)) apart, ?_, ?_⟩
  · exact declared_values_of_build alone (by rfl) built rfl
  · exact declared_values_of_build alone (by rfl) built rfl

end AnnotationMetadata
