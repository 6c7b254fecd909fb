import AnnotationMetadata.Proofs.Store.Declared

set_option autoImplicit false

/-!
# Names in a store

Which annotations and stereotypes a store lists after a trace, and through which
annotations it has reached a stereotype, is read off the writes of the trace.
-/

namespace AnnotationMetadata

namespace Store

/-! ## Traces -/

/-- A property that each write either adds or leaves as it is holds after a trace if it
held before or some write of the trace adds it. -/
theorem recordAll_iff (P : Store → Prop) {Q : Write → Prop}
    (step : ∀ store write, P (store.write write) ↔ P store ∨ Q write) {store : Store}
    {trace : Trace} (unpromoted : Recording.promoteScope ∉ trace) :
    P (store.recordAll trace) ↔ P store ∨ ∃ write, .write write ∈ trace ∧ Q write := by
  induction trace generalizing store with
  | nil => simp [recordAll]
  | cons recording rest ih =>
    have later : Recording.promoteScope ∉ rest :=
      fun promoted => unpromoted (List.mem_cons_of_mem _ promoted)
    rw [recordAll_cons, ih later]
    cases recording with
    | write write =>
      have written : store.record (.write write) = store.write write := rfl
      rw [written, step, or_assoc]
      simp [or_and_right, exists_or]
    | warning => simp [record]
    | read => simp [record]
    | promoteScope => exact absurd List.mem_cons_self unpromoted
    | unfinished => simp [record]

/-! ## Annotations and stereotypes -/

theorem mem_keys_changeTable {table : Dict Members} {changes : List TableChange} {name : String} :
    name ∈ Dict.keys (changeTable table changes) ↔
      name ∈ Dict.keys table ∨ ∃ members, (name, members) ∈ changes := by
  rw [changeTable, Dict.keys_changeAll, mem_unionInOrder, List.map_map, List.mem_map]
  constructor
  · rintro (before | ⟨⟨_, members⟩, changed, rfl⟩)
    · exact .inl before
    · exact .inr ⟨members, changed⟩
  · rintro (before | ⟨members, changed⟩)
    · exact .inl before
    · exact .inr ⟨(name, members), changed, rfl⟩

theorem mem_changes_iff {changed : Write → Option (Bool × TableChange)} {trace : Trace}
    {entry : TableChange} :
    entry ∈ trace.flatMap (Recording.changes false changed) ↔
      ∃ write, .write write ∈ trace ∧ ∃ declared, changed write = some (declared, entry) := by
  rw [List.mem_flatMap]
  constructor
  · rintro ⟨recording, recorded, made⟩
    cases recording with
    | write write =>
      refine ⟨write, recorded, ?_⟩
      cases found : changed write with
      | none => simp [Recording.changes, changesOf, found] at made
      | some change =>
        have same : change.2 = entry := by simpa [Recording.changes, changesOf, found] using made
        exact ⟨change.1, by rw [← same]⟩
    | warning => cases made
    | read => cases made
    | promoteScope => cases made
    | unfinished => cases made
  · rintro ⟨write, recorded, declared, found⟩
    refine ⟨.write write, recorded, ?_⟩
    simp [Recording.changes, changesOf, found]

theorem mem_annotationNames_recordAll {trace : Trace}
    (unpromoted : Recording.promoteScope ∉ trace) {name : String} :
    name ∈ (Store.empty.recordAll trace).annotationNames ↔
      ∃ write, .write write ∈ trace ∧
        ∃ declared members, write.annotation? = some (declared, name, members) := by
  have table := recordAll_changeTable (fun store write => (store.write_annotations write).1)
    unpromoted .empty
  rw [annotationNames, table, mem_keys_changeTable]
  simp only [mem_changes_iff]
  constructor
  · rintro (before | ⟨members, write, recorded, declared, found⟩)
    · cases before
    · exact ⟨write, recorded, declared, members, found⟩
  · rintro ⟨write, recorded, declared, members, found⟩
    exact .inr ⟨members, write, recorded, declared, found⟩

/-! ## Parents -/

/-- The annotations through which a write reaches a stereotype. -/
def Write.index? : Write → Option (List String × String)
  | .stereotype _ parents name _ _ => some (parents, name)
  | .stereotypeOccurrence _ parents container _ => some (parents, container)
  | _ => none

/-- A write records a stereotype exactly when it is indexed. -/
theorem Write.exists_stereotype_iff_exists_index {write : Write} {name : String} :
    (∃ declared members, write.stereotype? = some (declared, name, members)) ↔
      ∃ parents, write.index? = some (parents, name) := by
  constructor
  · rintro ⟨declared, members, changed⟩
    cases write with
    | stereotype _ parents => cases changed; exact ⟨parents, rfl⟩
    | stereotypeOccurrence _ parents => cases changed; exact ⟨parents, rfl⟩
    | direct => cases changed
    | occurrence => cases changed
    | defaults => cases changed
  · rintro ⟨parents, indexed⟩
    cases write with
    | stereotype declared => cases indexed; exact ⟨declared, _, rfl⟩
    | stereotypeOccurrence declared => cases indexed; exact ⟨declared, _, rfl⟩
    | direct => cases indexed
    | occurrence => cases indexed
    | defaults => cases indexed

theorem mem_stereotypeNames_recordAll {trace : Trace}
    (unpromoted : Recording.promoteScope ∉ trace) {name : String} :
    name ∈ (Store.empty.recordAll trace).stereotypeNames ↔
      ∃ parents write, .write write ∈ trace ∧ write.index? = some (parents, name) := by
  have table := recordAll_changeTable (fun store write => (store.write_stereotypes write).1)
    unpromoted .empty
  rw [stereotypeNames, table, mem_keys_changeTable]
  simp only [mem_changes_iff]
  constructor
  · rintro (before | ⟨members, write, recorded, declared, found⟩)
    · cases before
    · obtain ⟨parents, indexed⟩ :=
        Write.exists_stereotype_iff_exists_index.mp ⟨declared, members, found⟩
      exact ⟨parents, write, recorded, indexed⟩
  · rintro ⟨parents, write, recorded, indexed⟩
    obtain ⟨declared, members, found⟩ :=
      Write.exists_stereotype_iff_exists_index.mpr ⟨parents, indexed⟩
    exact .inr ⟨members, write, recorded, declared, found⟩

/-- The annotations that are indexed for a stereotype. -/
def parentsOf (store : Store) (stereotype : String) : List String :=
  (Dict.get? store.parents stereotype).getD []

theorem mem_parentsOf_indexStereotype {store : Store} {parents : List String}
    {stereotype other parent : String} :
    parent ∈ (store.indexStereotype parents stereotype).parentsOf other ↔
      parent ∈ store.parentsOf other ∨ stereotype = other ∧ parent ∈ parents := by
  unfold indexStereotype parentsOf
  split
  · next empty => simp [List.isEmpty_iff.mp empty]
  · rw [Dict.alter, Dict.get?_insert]
    split
    · next same =>
      subst same
      simp [mem_unionInOrder]
    · next different => simp [different]

private theorem mem_parentsOf_write {store : Store} {write : Write} {stereotype parent : String} :
    parent ∈ (store.write write).parentsOf stereotype ↔
      parent ∈ store.parentsOf stereotype ∨
        ∃ parents, write.index? = some (parents, stereotype) ∧ parent ∈ parents := by
  have retained := trackRetention_keeps (parentsOf · stereotype) (fun _ _ => rfl)
  have contained :=
    trackContainer_keeps (parentsOf · stereotype) (fun _ _ => rfl) (fun _ _ => rfl)
  cases write with
  | direct declared name members retention =>
    have kept : (store.write (.direct declared name members retention)).parentsOf stereotype =
        store.parentsOf stereotype := retained _ _ _
    simp [kept, Write.index?]
  | stereotype declared parents name members retention =>
    have kept : parent ∈ (store.write (.stereotype declared parents name members
        retention)).parentsOf stereotype ↔
        parent ∈ store.parentsOf stereotype ∨ name = stereotype ∧ parent ∈ parents := by
      simp only [Store.write, addStereotype, retained]
      exact mem_parentsOf_indexStereotype
    rw [kept]
    simp [Write.index?, and_assoc]
  | occurrence declared container occurrence =>
    have kept : (store.write (.occurrence declared container occurrence)).parentsOf stereotype =
        store.parentsOf stereotype := contained store container occurrence
    simp [kept, Write.index?]
  | stereotypeOccurrence declared parents container occurrence =>
    have kept : parent ∈ (store.write (.stereotypeOccurrence declared parents container
        occurrence)).parentsOf stereotype ↔
        parent ∈ store.parentsOf stereotype ∨ container = stereotype ∧ parent ∈ parents := by
      rw [← contained store container occurrence]
      exact mem_parentsOf_indexStereotype
    rw [kept]
    simp [Write.index?, and_assoc]
  | defaults name members =>
    have kept : (store.write (.defaults name members)).parentsOf stereotype =
        store.parentsOf stereotype := rfl
    simp [kept, Write.index?]

theorem mem_parentsOf_recordAll {store : Store} {trace : Trace}
    (unpromoted : Recording.promoteScope ∉ trace) {stereotype parent : String} :
    parent ∈ (store.recordAll trace).parentsOf stereotype ↔
      parent ∈ store.parentsOf stereotype ∨
        ∃ parents, (∃ write, .write write ∈ trace ∧ write.index? = some (parents, stereotype)) ∧
          parent ∈ parents := by
  refine (recordAll_iff (parent ∈ ·.parentsOf stereotype) (fun _ _ => mem_parentsOf_write)
    unpromoted).trans (or_congr_right ?_)
  constructor
  · rintro ⟨write, recorded, parents, indexed, listed⟩
    exact ⟨parents, ⟨write, recorded, indexed⟩, listed⟩
  · rintro ⟨parents, ⟨write, recorded, indexed⟩, listed⟩
    exact ⟨write, recorded, parents, indexed, listed⟩

/-- A stereotype that was reached through annotations is named by exactly these. -/
theorem mem_namesByStereotype_of_parentsOf {store : Store} {stereotype : String}
    (reached : store.parentsOf stereotype ≠ []) {parent : String} :
    parent ∈ store.namesByStereotype stereotype ↔ parent ∈ store.parentsOf stereotype := by
  unfold parentsOf at reached
  unfold namesByStereotype parentsOf
  cases found : Dict.get? store.parents stereotype with
  | none => simp [found] at reached
  | some names => rfl

/-! ## Promoted scopes -/

/-- Promoting a default scope changes neither stereotypes nor parents. -/
theorem promoteDefaultScope_keeps (store : Store) :
    store.promoteDefaultScope.stereotypes = store.stereotypes ∧
      store.promoteDefaultScope.parents = store.parents := by
  rcases promoteDefaultScope_eq store with same | ⟨scope, same⟩
  · rw [same]
    exact ⟨rfl, rfl⟩
  · rw [same]
    exact ⟨(write_stereotypes store _).1, trackRetention_keeps parents (fun _ _ => rfl) _ _ _⟩

end Store

/-! ## Metadata of a store -/

namespace Metadata

theorem ofStore_eq_store {store : Store} (full : store.isEmpty = false) :
    ofStore store = .store store := by
  rw [ofStore, full]
  rfl

theorem mem_collectNames_store {data : Store} {names : Store → List String} {name : String} :
    name ∈ (Metadata.store data).collectNames names ↔ name ∈ names data := by
  have single : (Metadata.store data).collectNames names = unionInOrder [] (names data) := rfl
  rw [single, mem_unionInOrder]
  simp

theorem mem_annotationNames_ofStore {store : Store} {name : String} :
    name ∈ (ofStore store).annotationNames ↔ name ∈ store.annotationNames := by
  unfold ofStore
  split
  · next empty =>
    rw [Store.isEmpty, Bool.and_eq_true, List.isEmpty_iff] at empty
    simp [annotationNames, collectNames, layers, Store.annotationNames, empty.1, Dict.keys]
  · exact mem_collectNames_store

theorem mem_stereotypeNames_ofStore {store : Store} {name : String} :
    name ∈ (ofStore store).stereotypeNames ↔ name ∈ store.stereotypeNames := by
  unfold ofStore
  split
  · next empty =>
    rw [Store.isEmpty, Bool.and_eq_true, List.isEmpty_iff, List.isEmpty_iff] at empty
    simp [stereotypeNames, collectNames, layers, Store.stereotypeNames, empty.2, Dict.keys]
  · exact mem_collectNames_store

theorem mem_namesByStereotype_ofStore {store : Store} {stereotype name : String}
    (recorded : stereotype ∈ store.stereotypeNames) :
    name ∈ (ofStore store).namesByStereotype stereotype ↔
      name ∈ store.namesByStereotype stereotype := by
  unfold ofStore
  split
  · next empty =>
    rw [Store.isEmpty, Bool.and_eq_true, List.isEmpty_iff, List.isEmpty_iff] at empty
    rw [Store.stereotypeNames, empty.2] at recorded
    cases recorded
  · exact mem_collectNames_store

end Metadata

end AnnotationMetadata
