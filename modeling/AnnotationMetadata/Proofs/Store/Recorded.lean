import AnnotationMetadata.Proofs.Store.Names

set_option autoImplicit false

/-!
# Recorded names

A store records a name as an annotation, as a stereotype, or as an annotation that it
has added to a group. What a trace leaves recorded is what its writes record.
-/

namespace AnnotationMetadata

namespace Store

/-- The annotation is present, or occurrences of it were added to a group. -/
def Records (store : Store) (name : String) : Prop :=
  store.hasStereotype name = true ∨ (store.containerOf? name).isSome = true

/-! ## Writes -/

/-- The annotation or stereotype whose members a write changes. -/
def Write.key? : Write → Option String
  | .direct _ name _ _ => some name
  | .stereotype _ _ name _ _ => some name
  | .occurrence _ container _ => some container
  | .stereotypeOccurrence _ _ container _ => some container
  | .defaults _ _ => none

/-- The annotation that a write adds to a group, and the container of the group. -/
def Write.grouping? : Write → Option (String × String)
  | .occurrence _ container item => some (item.name, container)
  | .stereotypeOccurrence _ _ container item => some (item.name, container)
  | _ => none

def Write.Records (write : Write) (name : String) : Prop :=
  write.key? = some name ∨ ∃ container, write.grouping? = some (name, container)

theorem Write.key?_of_grouping? {write : Write} {name container : String}
    (grouped : write.grouping? = some (name, container)) : write.key? = some container := by
  cases write with
  | occurrence => cases grouped; rfl
  | stereotypeOccurrence => cases grouped; rfl
  | direct => cases grouped
  | stereotype => cases grouped
  | defaults => cases grouped

theorem hasStereotype_iff {store : Store} {name : String} :
    store.hasStereotype name = true ↔
      name ∈ Dict.keys store.annotations ∨ name ∈ Dict.keys store.stereotypes := by
  rw [hasStereotype, Bool.or_eq_true, Dict.contains_iff, Dict.contains_iff]

theorem mem_changesOf_iff {entry : Option (Bool × TableChange)} {change : TableChange} :
    change ∈ changesOf false entry ↔ ∃ declared, entry = some (declared, change) := by
  cases entry with
  | none => simp [changesOf]
  | some found =>
    obtain ⟨declared, made⟩ := found
    simp [changesOf, Option.filter, eq_comm]

theorem Write.key?_eq_some_iff {write : Write} {name : String} :
    write.key? = some name ↔
      (∃ members declared, write.annotation? = some (declared, name, members)) ∨
        ∃ members declared, write.stereotype? = some (declared, name, members) := by
  cases write with
  | direct => simp [key?, annotation?, stereotype?]
  | stereotype => simp [key?, annotation?, stereotype?]
  | occurrence => simp [key?, annotation?, stereotype?]
  | stereotypeOccurrence => simp [key?, annotation?, stereotype?]
  | defaults => simp [key?, annotation?, stereotype?]

theorem hasStereotype_write {store : Store} {write : Write} {name : String} :
    (store.write write).hasStereotype name = true ↔
      store.hasStereotype name = true ∨ write.key? = some name := by
  rw [hasStereotype_iff, hasStereotype_iff, (write_annotations store write).1,
    (write_stereotypes store write).1, mem_keys_changeTable, mem_keys_changeTable,
    Write.key?_eq_some_iff]
  simp only [mem_changesOf_iff]
  exact or_or_or_comm

theorem containers_write (store : Store) (write : Write) :
    (store.write write).containers =
      match write.grouping? with
      | some (name, container) => Dict.insertNew store.containers name container
      | none => store.containers := by
  cases write with
  | direct => exact trackRetention_keeps containers (fun _ _ => rfl) _ _ _
  | stereotype =>
    exact (trackRetention_keeps containers (fun _ _ => rfl) _ _ _).trans
      (indexStereotype_keeps containers (fun _ _ => rfl) _ _ _)
  | occurrence => exact trackRetention_keeps containers (fun _ _ => rfl) _ _ _
  | stereotypeOccurrence =>
    exact (indexStereotype_keeps containers (fun _ _ => rfl) _ _ _).trans
      (trackRetention_keeps containers (fun _ _ => rfl) _ _ _)
  | defaults => rfl

theorem containerOf?_isSome_write {store : Store} {write : Write} {name : String} :
    ((store.write write).containerOf? name).isSome = true ↔
      (store.containerOf? name).isSome = true ∨
        ∃ container, write.grouping? = some (name, container) := by
  rw [containerOf?, containers_write, containerOf?]
  cases write.grouping? with
  | none => simp
  | some grouping =>
    obtain ⟨item, container⟩ := grouping
    rw [Dict.get?_insertNew]
    cases Dict.get? store.containers name with
    | some present => simp
    | none => simp

theorem records_write {store : Store} {write : Write} {name : String} :
    (store.write write).Records name ↔ store.Records name ∨ write.Records name := by
  rw [Records, hasStereotype_write, containerOf?_isSome_write, Records, Write.Records]
  exact or_or_or_comm

/-! ## Traces -/

theorem records_recordAll {store : Store} {trace : Trace}
    (unpromoted : Recording.promoteScope ∉ trace) {name : String} :
    (store.recordAll trace).Records name ↔
      store.Records name ∨ ∃ write, .write write ∈ trace ∧ write.Records name :=
  recordAll_iff (·.Records name) (fun _ _ => records_write) unpromoted

theorem hasStereotype_recordAll {store : Store} {trace : Trace}
    (unpromoted : Recording.promoteScope ∉ trace) {name : String} :
    (store.recordAll trace).hasStereotype name = true ↔
      store.hasStereotype name = true ∨
        ∃ write, .write write ∈ trace ∧ write.key? = some name :=
  recordAll_iff (·.hasStereotype name = true) (fun _ _ => hasStereotype_write) unpromoted

theorem containerOf?_isSome_recordAll {store : Store} {trace : Trace}
    (unpromoted : Recording.promoteScope ∉ trace) {name : String} :
    ((store.recordAll trace).containerOf? name).isSome = true ↔
      (store.containerOf? name).isSome = true ∨
        ∃ write, .write write ∈ trace ∧ ∃ container, write.grouping? = some (name, container) :=
  recordAll_iff (fun store => (store.containerOf? name).isSome = true)
    (fun _ _ => containerOf?_isSome_write) unpromoted

theorem containerOf?_isSome_promoteDefaultScope {store : Store} {name : String}
    (grouped : (store.containerOf? name).isSome = true) :
    (store.promoteDefaultScope.containerOf? name).isSome = true := by
  rcases promoteDefaultScope_eq store with same | ⟨scope, same⟩
  · rwa [same]
  · rw [same]
    exact containerOf?_isSome_write.mpr (.inl grouped)

theorem hasStereotype_promoteDefaultScope {store : Store} {name : String}
    (present : store.hasStereotype name = true) :
    store.promoteDefaultScope.hasStereotype name = true := by
  rcases promoteDefaultScope_eq store with same | ⟨scope, same⟩
  · rwa [same]
  · rw [same]
    exact hasStereotype_write.mpr (.inl present)

/-- The scope that promoting a default scope makes an annotation. -/
def promotedScope? (store : Store) : Option String :=
  if store.hasDeclaredStereotype Name.scope || !store.hasDeclaredStereotype Name.defaultScope then
    none
  else store.nameOf? Name.defaultScope Name.valueMember

/-- Promoting a default scope records its scope and no other annotation. -/
theorem mem_annotationNames_promoteDefaultScope_iff {store : Store} {name : String} :
    name ∈ store.promoteDefaultScope.annotationNames ↔
      name ∈ store.annotationNames ∨ store.promotedScope? = some name := by
  unfold promoteDefaultScope promotedScope?
  split
  · simp
  · cases store.nameOf? Name.defaultScope Name.valueMember with
    | none => simp
    | some scope =>
      have added : changesOf false (Write.direct true scope [] .runtime).annotation? =
          [(scope, [])] := rfl
      have written : (store.addAnnotation true scope [] .runtime).annotations =
          changeTable store.annotations [(scope, [])] :=
        (write_annotations store (.direct true scope [] .runtime)).1.trans (by rw [added])
      simp only [annotationNames, written, mem_keys_changeTable]
      simp [eq_comm]

theorem records_promoteDefaultScope {store : Store} {name : String} :
    store.promoteDefaultScope.Records name ↔
      store.Records name ∨ store.promotedScope? = some name := by
  unfold promoteDefaultScope promotedScope?
  split
  · simp
  · cases store.nameOf? Name.defaultScope Name.valueMember with
    | none => simp
    | some scope =>
      have written : store.addAnnotation true scope [] .runtime =
          store.write (.direct true scope [] .runtime) := rfl
      simp only [written, records_write]
      simp [Write.Records, Write.key?, Write.grouping?]

theorem Records.promoteDefaultScope {store : Store} {name : String}
    (recorded : store.Records name) : store.promoteDefaultScope.Records name :=
  records_promoteDefaultScope.mpr (.inl recorded)

theorem isEmpty_eq_false {store : Store} {name : String}
    (present : store.hasStereotype name = true) : store.isEmpty = false := by
  refine Bool.eq_false_iff.mpr fun empty => ?_
  rw [isEmpty, Bool.and_eq_true, List.isEmpty_iff, List.isEmpty_iff] at empty
  simp [hasStereotype, empty, Dict.contains, Dict.get?] at present

theorem Write.Records.exists_key? {write : Write} {name : String} (records : write.Records name) :
    ∃ key, write.key? = some key := by
  rcases records with named | ⟨container, grouped⟩
  · exact ⟨name, named⟩
  · exact ⟨container, key?_of_grouping? grouped⟩

theorem records_of_values? {store : Store} {name : String} {members : Members}
    (listed : store.values? name = some members) : store.Records name := by
  left
  rw [hasStereotype_iff, Dict.mem_keys_iff, Dict.mem_keys_iff]
  rcases Option.or_eq_some_iff.mp listed with found | ⟨_, found⟩
  · exact .inl ⟨members, found⟩
  · exact .inr ⟨members, found⟩

end Store

end AnnotationMetadata
