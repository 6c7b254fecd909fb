import AnnotationMetadata.Metadata.Basic
import AnnotationMetadata.Proofs.Store.Replay
import AnnotationMetadata.Proofs.Walk.Declaration

set_option autoImplicit false

/-!
# Declared tables

What a store holds as declared depends only on the declared writes, in their
order. Promoting a default scope adds at most one annotation without members to
it. Declared writes are recorded among all writes, so a store that counts as
empty holds nothing as declared.
-/

namespace AnnotationMetadata

namespace Store

/-! ## Tables and their changes -/

theorem changeTable_single (table : Dict Members) (entry : TableChange) :
    changeTable table [entry] =
      Dict.alter table entry.1 [] fun members => changeMembers members entry.2 :=
  rfl

theorem setMembers_eq (table : Dict Members) (name : String) (members : Members) :
    setMembers table name members =
      changeTable table [(name, members.map fun entry => (entry.1, .set entry.2))] := by
  rw [changeTable_single, setMembers]
  congr 1
  funext present
  simp only [Dict.overlay, changeMembers, Dict.changeAll, List.map_map, List.foldl_map]
  rfl

theorem addMembers_eq (table : Dict Members) (name : String) (members : Members) :
    addMembers table name members =
      changeTable table [(name, members.map fun entry => (entry.1, .keep entry.2))] := by
  rw [changeTable_single, addMembers]
  congr 1
  funext present
  simp only [Dict.underlay, changeMembers, Dict.changeAll, List.map_map, List.foldl_map,
    Dict.insertNew_eq_insert]
  rfl

/-! ## Writes -/

/-- What a write changes among the annotations, and whether as a declared one. -/
def Write.annotation? : Write → Option (Bool × TableChange)
  | .direct declared name members _ =>
    some (declared, name, members.map fun entry => (entry.1, .set entry.2))
  | .occurrence declared container item =>
    some (declared, container, [(Name.valueMember, .add (.nested item))])
  | _ => none

/-- What a write changes among the stereotypes, and whether as a declared one. -/
def Write.stereotype? : Write → Option (Bool × TableChange)
  | .stereotype declared _ name members _ =>
    some (declared, name, members.map fun entry => (entry.1, .keep entry.2))
  | .stereotypeOccurrence declared _ container item =>
    some (declared, container, [(Name.valueMember, .add (.nested item))])
  | _ => none

/-- The occurrence that a write adds to a group. -/
def Write.grouped? : Write → Option Annotation
  | .occurrence _ _ item => some item
  | .stereotypeOccurrence _ _ _ item => some item
  | _ => none

/-- What the write adds to a group agrees with itself. -/
def Write.SelfAgreeing (write : Write) : Prop :=
  ∀ item, write.grouped? = some item → item.agrees item = true

theorem MemberChange.selfAgreeing_add_nested {item : Annotation}
    (own : item.agrees item = true) : SelfAgreeing (.add (.nested item)) := by
  simpa only [SelfAgreeing, Value.agrees] using own

theorem Write.selfAgreeing_annotation? (write : Write) (own : write.SelfAgreeing) (declared : Bool)
    (entry : TableChange) (changes : write.annotation? = some (declared, entry)) :
    ∀ change ∈ entry.2, change.2.SelfAgreeing := by
  intro change listed
  cases write with
  | direct =>
    cases changes
    obtain ⟨_, _, rfl⟩ := List.mem_map.mp listed
    trivial
  | occurrence =>
    cases changes
    cases List.mem_singleton.mp listed
    exact MemberChange.selfAgreeing_add_nested (own _ rfl)
  | _ => cases changes

theorem Write.selfAgreeing_stereotype? (write : Write) (own : write.SelfAgreeing) (declared : Bool)
    (entry : TableChange) (changes : write.stereotype? = some (declared, entry)) :
    ∀ change ∈ entry.2, change.2.SelfAgreeing := by
  intro change listed
  cases write with
  | stereotype =>
    cases changes
    obtain ⟨_, _, rfl⟩ := List.mem_map.mp listed
    trivial
  | stereotypeOccurrence =>
    cases changes
    cases List.mem_singleton.mp listed
    exact MemberChange.selfAgreeing_add_nested (own _ rfl)
  | _ => cases changes

/-- The changes of a table, or only the declared ones. -/
def changesOf (declaredOnly : Bool) (entry : Option (Bool × TableChange)) : List TableChange :=
  ((entry.filter fun found => found.1 || !declaredOnly).map Prod.snd).toList

/-- Remembering how long an annotation is kept changes no table. -/
theorem trackRetention_keeps {α : Type} (field : Store → α)
    (unaffected : ∀ store names, field { store with sourceOnly := names } = field store)
    (store : Store) (name : String) (retention : Retention) :
    field (store.trackRetention name retention) = field store := by
  unfold trackRetention
  split
  · exact unaffected store _
  · rfl

theorem trackContainer_keeps {α : Type} (field : Store → α)
    (unaffected : ∀ store names, field { store with sourceOnly := names } = field store)
    (uncontained : ∀ store containers, field { store with containers } = field store)
    (store : Store) (container : String) (occurrence : Annotation) :
    field (store.trackContainer container occurrence) = field store :=
  (trackRetention_keeps field unaffected _ _ _).trans (uncontained store _)

theorem indexStereotype_keeps {α : Type} (field : Store → α)
    (unindexed : ∀ store parents, field { store with parents } = field store)
    (store : Store) (parents : List String) (stereotype : String) :
    field (store.indexStereotype parents stereotype) = field store := by
  unfold indexStereotype
  split
  · rfl
  · exact unindexed store _

/-- A table of annotations changes by the direct writes alone, declared or not. -/
theorem write_annotations (store : Store) (write : Write) :
    (store.write write).annotations =
        changeTable store.annotations (changesOf false write.annotation?) ∧
      (store.write write).declaredAnnotations =
        changeTable store.declaredAnnotations (changesOf true write.annotation?) := by
  cases write with
  | direct declared name members retention =>
    have kept := trackRetention_keeps annotations (fun _ _ => rfl)
    have keptDeclared := trackRetention_keeps declaredAnnotations (fun _ _ => rfl)
    cases declared with
    | false => exact ⟨(kept _ _ _).trans (setMembers_eq _ _ _), keptDeclared _ _ _⟩
    | true =>
      exact ⟨(kept _ _ _).trans (setMembers_eq _ _ _),
        (keptDeclared _ _ _).trans (setMembers_eq _ _ _)⟩
  | stereotype declared parents name members retention =>
    exact ⟨(trackRetention_keeps annotations (fun _ _ => rfl) _ _ _).trans
        (indexStereotype_keeps annotations (fun _ _ => rfl) _ _ _),
      (trackRetention_keeps declaredAnnotations (fun _ _ => rfl) _ _ _).trans
        (indexStereotype_keeps declaredAnnotations (fun _ _ => rfl) _ _ _)⟩
  | occurrence declared container occurrence =>
    have kept := trackContainer_keeps annotations (fun _ _ => rfl) (fun _ _ => rfl) store
      container occurrence
    have keptDeclared := trackContainer_keeps declaredAnnotations (fun _ _ => rfl)
      (fun _ _ => rfl) store container occurrence
    simp only [Store.write, addOccurrence, kept, keptDeclared]
    cases declared with
    | false => exact ⟨rfl, rfl⟩
    | true => exact ⟨rfl, rfl⟩
  | stereotypeOccurrence declared parents container occurrence =>
    exact ⟨(indexStereotype_keeps annotations (fun _ _ => rfl) _ _ _).trans
        (trackContainer_keeps annotations (fun _ _ => rfl) (fun _ _ => rfl) _ _ _),
      (indexStereotype_keeps declaredAnnotations (fun _ _ => rfl) _ _ _).trans
        (trackContainer_keeps declaredAnnotations (fun _ _ => rfl) (fun _ _ => rfl) _ _ _)⟩
  | defaults name members => exact ⟨rfl, rfl⟩

/-- A table of stereotypes changes by the writes of stereotypes alone. -/
theorem write_stereotypes (store : Store) (write : Write) :
    (store.write write).stereotypes =
        changeTable store.stereotypes (changesOf false write.stereotype?) ∧
      (store.write write).declaredStereotypes =
        changeTable store.declaredStereotypes (changesOf true write.stereotype?) := by
  cases write with
  | direct declared name members retention =>
    exact ⟨trackRetention_keeps stereotypes (fun _ _ => rfl) _ _ _,
      trackRetention_keeps declaredStereotypes (fun _ _ => rfl) _ _ _⟩
  | stereotype declared parents name members retention =>
    have kept := fun store => (trackRetention_keeps stereotypes (fun _ _ => rfl)
      (indexStereotype store parents name) name retention).trans
      (indexStereotype_keeps stereotypes (fun _ _ => rfl) store parents name)
    have keptDeclared := fun store => (trackRetention_keeps declaredStereotypes (fun _ _ => rfl)
      (indexStereotype store parents name) name retention).trans
      (indexStereotype_keeps declaredStereotypes (fun _ _ => rfl) store parents name)
    cases declared with
    | false => exact ⟨(kept _).trans (addMembers_eq _ _ _), keptDeclared _⟩
    | true =>
      exact ⟨(kept _).trans (addMembers_eq _ _ _), (keptDeclared _).trans (addMembers_eq _ _ _)⟩
  | occurrence declared container occurrence =>
    exact ⟨trackContainer_keeps stereotypes (fun _ _ => rfl) (fun _ _ => rfl) _ _ _,
      trackContainer_keeps declaredStereotypes (fun _ _ => rfl) (fun _ _ => rfl) _ _ _⟩
  | stereotypeOccurrence declared parents container occurrence =>
    have kept := (indexStereotype_keeps stereotypes (fun _ _ => rfl)
      (store.trackContainer container occurrence) parents container).trans
      (trackContainer_keeps stereotypes (fun _ _ => rfl) (fun _ _ => rfl) store container
        occurrence)
    have keptDeclared := (indexStereotype_keeps declaredStereotypes (fun _ _ => rfl)
      (store.trackContainer container occurrence) parents container).trans
      (trackContainer_keeps declaredStereotypes (fun _ _ => rfl) (fun _ _ => rfl) store container
        occurrence)
    simp only [Store.write, addStereotypeOccurrence, kept, keptDeclared]
    cases declared with
    | false => exact ⟨rfl, rfl⟩
    | true => exact ⟨rfl, rfl⟩
  | defaults name members => exact ⟨rfl, rfl⟩

end Store

/-! ## Traces -/

/-- What a recording changes in a table. -/
def Recording.changes (declaredOnly : Bool)
    (changed : Store.Write → Option (Bool × Store.TableChange)) :
    Recording → List Store.TableChange
  | .write written => Store.changesOf declaredOnly (changed written)
  | _ => []

/-- What a recording changes in a field, given what writes do. -/
def Recording.made {α : Type} (made : Store.Write → List α) : Recording → List α
  | .write written => made written
  | _ => []

theorem Store.recordAll_cons (store : Store) (recording : Recording) (rest : Trace) :
    store.recordAll (recording :: rest) = (store.record recording).recordAll rest :=
  rfl

theorem Store.recordAll_append (store : Store) (first second : Trace) :
    store.recordAll (first ++ second) = (store.recordAll first).recordAll second :=
  List.foldl_append

/-- A field that writes change step by step is changed at once by all writes of a trace. -/
theorem recordAll_change {γ α : Type} {field : Store → γ} {made : Store.Write → List α}
    {change : γ → List α → γ} (unchanged : ∀ value, change value [] = value)
    (append : ∀ value first second,
      change value (first ++ second) = change (change value first) second)
    (step : ∀ store write, field (store.write write) = change (field store) (made write))
    {trace : Trace} (unpromoted : Recording.promoteScope ∉ trace) (store : Store) :
    field (store.recordAll trace) =
      change (field store) (trace.flatMap (Recording.made made)) := by
  induction trace generalizing store with
  | nil => exact (unchanged _).symm
  | cons recording rest ih =>
    have below := ih (fun later => unpromoted (List.mem_cons_of_mem _ later))
      (store.record recording)
    have first : field (store.record recording) =
        change (field store) (recording.made made) := by
      cases recording with
      | write write => exact step store write
      | warning => exact (unchanged _).symm
      | read => exact (unchanged _).symm
      | promoteScope => exact absurd List.mem_cons_self unpromoted
      | unfinished => exact (unchanged _).symm
    rw [List.flatMap_cons, append, ← first]
    exact below

theorem recordAll_changeTable {table : Store → Dict Members} {declaredOnly : Bool}
    {changed : Store.Write → Option (Bool × Store.TableChange)}
    (step : ∀ store write, table (store.write write) =
      Store.changeTable (table store) (Store.changesOf declaredOnly (changed write)))
    {trace : Trace} (unpromoted : Recording.promoteScope ∉ trace) (store : Store) :
    table (store.recordAll trace) =
      Store.changeTable (table store) (trace.flatMap (Recording.changes declaredOnly changed)) := by
  have made : Recording.changes declaredOnly changed =
      Recording.made fun write => Store.changesOf declaredOnly (changed write) := by
    funext recording
    cases recording <;> rfl
  rw [made]
  exact recordAll_change (fun _ => rfl) Store.changeTable_append step unpromoted store

namespace Trace

/-- The occurrences that a trace adds to groups. -/
def grouped (trace : Trace) : List Annotation :=
  trace.flatMap (Recording.made fun write => write.grouped?.toList)

/-- Whatever the trace adds to a group agrees with itself. -/
def SelfAgreeing (trace : Trace) : Prop :=
  ∀ item ∈ trace.grouped, item.agrees item = true

instance (trace : Trace) : Decidable (SelfAgreeing trace) :=
  inferInstanceAs (Decidable (∀ item ∈ grouped trace, item.agrees item = true))

theorem SelfAgreeing.write {trace : Trace} (own : SelfAgreeing trace) {write : Store.Write}
    (recorded : .write write ∈ trace) : write.SelfAgreeing :=
  fun item adds => own item (List.mem_flatMap.mpr ⟨_, recorded, Option.mem_toList.mpr adds⟩)

theorem SelfAgreeing.of_forall {trace : Trace}
    (own : ∀ write, .write write ∈ trace → write.SelfAgreeing) : SelfAgreeing trace := by
  intro item listed
  obtain ⟨recording, recorded, adds⟩ := List.mem_flatMap.mp listed
  cases recording with
  | write write => exact own write recorded item (Option.mem_toList.mp adds)
  | _ => cases adds

/-- Only what is no number can keep an occurrence from agreeing with itself. -/
theorem SelfAgreeing.of_numbers {trace : Trace}
    (numbers : ∀ item ∈ trace.grouped, ∀ x ∈ item.doubles, x.isNaN = false) :
    SelfAgreeing trace :=
  fun item listed => item.agrees_self (numbers item listed)

end Trace

theorem Trace.SelfAgreeing.changes {trace : Trace} (own : SelfAgreeing trace)
    {changed : Store.Write → Option (Bool × Store.TableChange)}
    (agreeing : ∀ write : Store.Write, write.SelfAgreeing → ∀ declared entry,
      changed write = some (declared, entry) → ∀ change ∈ entry.2, change.2.SelfAgreeing)
    (declaredOnly : Bool) :
    Store.SelfAgreeing (trace.flatMap (Recording.changes declaredOnly changed)) := by
  intro entry listed
  obtain ⟨recording, recorded, changes⟩ := List.mem_flatMap.mp listed
  cases recording with
  | write write =>
    obtain ⟨⟨declared, _⟩, kept, rfl⟩ := Option.map_eq_some_iff.mp (Option.mem_toList.mp changes)
    exact agreeing write (own.write recorded) declared _ (Option.filter_eq_some_iff.mp kept).1
  | _ => cases changes

/-- Inherited recordings change no declared table. -/
theorem Recording.DeclaredAs.changes_eq_nil {recording : Recording}
    (inherited : recording.DeclaredAs false) :
    recording.changes true Store.Write.annotation? = [] ∧
      recording.changes true Store.Write.stereotype? = [] := by
  cases inherited <;> exact ⟨rfl, rfl⟩

/-! ## Promoted scopes -/

namespace Store

/-- The entry of a promoted scope, if there is one. -/
def promotion (scope : Option String) : Dict Members :=
  scope.toList.map fun name => (name, [])

/-- Promoting a default scope is writing an annotation without members, if it is
anything. -/
theorem promoteDefaultScope_eq (store : Store) :
    store.promoteDefaultScope = store ∨
      ∃ scope, store.promoteDefaultScope = store.write (.direct true scope [] .runtime) := by
  unfold promoteDefaultScope
  split
  · exact .inl rfl
  · split
    · next scope _ => exact .inr ⟨scope, rfl⟩
    · exact .inl rfl

theorem promoteDefaultScope_declaredStereotypes (store : Store) :
    store.promoteDefaultScope.declaredStereotypes = store.declaredStereotypes := by
  rcases promoteDefaultScope_eq store with same | ⟨scope, same⟩
  · rw [same]
  · rw [same]
    exact (write_stereotypes store _).2

/-- At most one annotation is added, and it has no members. -/
theorem promoteDefaultScope_declaredAnnotations (store : Store) :
    ∃ added, store.promoteDefaultScope.declaredAnnotations =
      store.declaredAnnotations ++ promotion added := by
  rcases promoteDefaultScope_eq store with same | ⟨scope, same⟩
  · refine ⟨none, ?_⟩
    rw [same]
    exact (List.append_nil _).symm
  · have written : store.promoteDefaultScope.declaredAnnotations =
        Dict.insert store.declaredAnnotations scope
          ((Dict.get? store.declaredAnnotations scope).getD []) :=
      same ▸ (write_annotations store _).2
    rw [written]
    cases found : Dict.get? store.declaredAnnotations scope with
    | none => exact ⟨some scope, Dict.insert_of_get?_eq_none found []⟩
    | some present =>
      exact ⟨none, (Dict.insert_of_get?_eq_some found).trans (List.append_nil _).symm⟩

/-! ## Empty stores -/

/-- What is declared is recorded. -/
structure ListsDeclared (store : Store) : Prop where
  annotations : store.annotations = [] → store.declaredAnnotations = []
  stereotypes : store.stereotypes = [] → store.declaredStereotypes = []

theorem changeTable_ne_nil (table : Dict Members) {changes : List TableChange}
    (changed : changes ≠ []) : changeTable table changes ≠ [] := by
  intro none
  have keys : Dict.keys (changeTable table changes) = [] := by
    rw [none]
    rfl
  obtain ⟨entry, rest, rfl⟩ := List.exists_cons_of_ne_nil changed
  have listed : entry.1 ∈ Dict.keys (changeTable table (entry :: rest)) := by
    rw [changeTable, Dict.keys_changeAll]
    exact mem_unionInOrder.mpr (.inr (by simp))
  rw [keys] at listed
  cases listed

/-- A table that is still empty was not changed, so neither was its declared part. -/
theorem changeTable_declared {table declared : Dict Members}
    (lists : table = [] → declared = []) (entry : Option (Bool × TableChange))
    (empty : changeTable table (changesOf false entry) = []) :
    changeTable declared (changesOf true entry) = [] := by
  cases entry with
  | none => exact lists empty
  | some change =>
    have changed : changesOf false (some change) ≠ [] := by simp [changesOf]
    exact absurd empty (changeTable_ne_nil table changed)

theorem ListsDeclared.write {store : Store} (lists : store.ListsDeclared) (write : Write) :
    (store.write write).ListsDeclared := by
  obtain ⟨annotations, declaredAnnotations⟩ := write_annotations store write
  obtain ⟨stereotypes, declaredStereotypes⟩ := write_stereotypes store write
  refine ⟨?_, ?_⟩
  · rw [annotations, declaredAnnotations]
    exact changeTable_declared lists.annotations _
  · rw [stereotypes, declaredStereotypes]
    exact changeTable_declared lists.stereotypes _

theorem ListsDeclared.record {store : Store} (lists : store.ListsDeclared)
    (recording : Recording) : (store.record recording).ListsDeclared := by
  cases recording with
  | write write => exact lists.write write
  | promoteScope =>
    rcases promoteDefaultScope_eq store with same | ⟨scope, same⟩
    · have step : store.record .promoteScope = store := same
      rw [step]
      exact lists
    · have step : store.record .promoteScope = store.write (.direct true scope [] .runtime) := same
      rw [step]
      exact lists.write _
  | warning => exact lists
  | read => exact lists
  | unfinished => exact lists

theorem ListsDeclared.recordAll {store : Store} (lists : store.ListsDeclared) (trace : Trace) :
    (store.recordAll trace).ListsDeclared := by
  induction trace generalizing store with
  | nil => exact lists
  | cons recording rest ih => exact ih (lists.record recording)

/-! ## Stores of what is declared -/

/-- All that the store records is declared. -/
structure AllDeclared (store : Store) : Prop where
  annotations : store.declaredAnnotations = store.annotations
  stereotypes : store.declaredStereotypes = store.stereotypes

theorem AllDeclared.write {store : Store} (all : store.AllDeclared) {write : Write}
    (declared : (Recording.write write).DeclaredAs true) : (store.write write).AllDeclared := by
  obtain ⟨annotations, declaredAnnotations⟩ := write_annotations store write
  obtain ⟨stereotypes, declaredStereotypes⟩ := write_stereotypes store write
  constructor
  · rw [declaredAnnotations, annotations, all.annotations]
    cases declared <;> rfl
  · rw [declaredStereotypes, stereotypes, all.stereotypes]
    cases declared <;> rfl

theorem AllDeclared.promoteDefaultScope {store : Store} (all : store.AllDeclared) :
    store.promoteDefaultScope.AllDeclared := by
  rcases promoteDefaultScope_eq store with same | ⟨scope, same⟩
  · rwa [same]
  · rw [same]
    exact all.write .direct

theorem AllDeclared.recordAll {store : Store} (all : store.AllDeclared) {trace : Trace}
    (declared : ∀ recording ∈ trace, recording = .unfinished ∨ recording.DeclaredAs true) :
    (store.recordAll trace).AllDeclared := by
  induction trace generalizing store with
  | nil => exact all
  | cons recording rest ih =>
    rw [recordAll_cons]
    refine ih ?_ fun later member => declared later (List.mem_cons_of_mem _ member)
    rcases declared recording List.mem_cons_self with rfl | own
    · exact all
    · cases recording with
      | write write => exact all.write own
      | promoteScope => exact all.promoteDefaultScope
      | warning => exact all
      | read => exact all
      | unfinished => exact all

end Store

namespace Metadata

/-- The annotations that the element itself declares, with their members. -/
def declaredAnnotations (metadata : Metadata) : Dict Members :=
  (metadata.declaredPart?.map Store.declaredAnnotations).getD []

/-- The stereotypes of what the element itself declares, with their members. -/
def declaredStereotypes (metadata : Metadata) : Dict Members :=
  (metadata.declaredPart?.map Store.declaredStereotypes).getD []

/-- Taking a store that records nothing for empty metadata loses nothing that is
declared. -/
theorem declared_ofStore {store : Store} (lists : store.ListsDeclared) :
    (ofStore store).declaredAnnotations = store.declaredAnnotations ∧
      (ofStore store).declaredStereotypes = store.declaredStereotypes := by
  unfold ofStore
  split
  · next empty =>
    rw [Store.isEmpty, Bool.and_eq_true, List.isEmpty_iff, List.isEmpty_iff] at empty
    exact ⟨(lists.annotations empty.1).symm, (lists.stereotypes empty.2).symm⟩
  · exact ⟨rfl, rfl⟩

end Metadata

end AnnotationMetadata
