import AnnotationMetadata.Proofs.Store.Names

set_option autoImplicit false

/-!
# Members in a store

The value of one member after a trace depends only on what the trace does to that
member. If the trace sets it, the last value counts; if the trace keeps what is
there, the first one does; what is added to a group stays there.
-/

namespace AnnotationMetadata

namespace Store

/-- The value that a table holds for a member of an annotation. -/
def memberOf? (table : Dict Members) (name member : String) : Option Value :=
  (Dict.get? table name).bind (Dict.get? · member)

/-- What changes of a table do to a member of an annotation, in order. -/
def memberChanges (name member : String) (changes : List TableChange) : List MemberChange :=
  (((changes.filter fun entry => entry.1 = name).flatMap Prod.snd).filter fun entry =>
    entry.1 = member).map Prod.snd

private theorem memberChanges_append (name member : String) (first second : List TableChange) :
    memberChanges name member (first ++ second) =
      memberChanges name member first ++ memberChanges name member second := by
  simp [memberChanges]

theorem memberOf?_changeTable (table : Dict Members) (changes : List TableChange)
    (name member : String) :
    memberOf? (changeTable table changes) name member =
      changedMember (memberChanges name member changes) (memberOf? table name member) := by
  unfold memberOf?
  rw [changeTable, Dict.get?_changeAll, changedAt_eq]
  split
  · rw [Option.bind_some, get?_changeMembers]
    cases Dict.get? table name with
    | none => rfl
    | some members => rfl
  · next untouched =>
    have none : (changes.filter fun entry => entry.1 = name) = [] :=
      List.filter_eq_nil_iff.mpr fun entry listed named =>
        untouched (List.any_eq_true.mpr ⟨entry, listed, named⟩)
    rw [memberChanges, none]
    rfl

theorem changedMember_append (first second : List MemberChange) (found : Option Value) :
    changedMember (first ++ second) found = changedMember second (changedMember first found) :=
  List.foldl_append

theorem memberChanges_flatMap {α : Type} (name member : String) (items : List α)
    (changes : α → List TableChange) :
    memberChanges name member (items.flatMap changes) =
      items.flatMap fun item => memberChanges name member (changes item) := by
  induction items with
  | nil => rfl
  | cons item rest ih => rw [List.flatMap_cons, List.flatMap_cons, memberChanges_append, ih]

theorem memberChanges_single (name member : String) (entry : TableChange) :
    memberChanges name member [entry] =
      if entry.1 = name then (entry.2.filter fun change => change.1 = member).map Prod.snd
      else [] := by
  by_cases named : entry.1 = name
  · simp [memberChanges, named]
  · simp [memberChanges, named]

/-! ## All members of an annotation -/

theorem changedMember_keepMembers (members : Members) (member : String) (found : Option Value) :
    changedMember (((members.map fun entry => (entry.1, MemberChange.keep entry.2)).filter
      fun change => change.1 = member).map Prod.snd) found =
        found.or (Dict.get? members member) := by
  induction members generalizing found with
  | nil => cases found <;> rfl
  | cons entry rest ih =>
    by_cases named : entry.1 = member
    · have step := ih (some (found.getD entry.2))
      rw [Option.some_or] at step
      simp only [List.map_cons, List.filter_cons, named, decide_true, if_true, Dict.get?,
        changedMember, List.foldl_cons, MemberChange.apply] at step ⊢
      rw [step]
      cases found <;> rfl
    · simpa [Dict.get?, named] using ih found

theorem changedMember_setMembers {members : Members} (distinct : (Dict.keys members).Nodup)
    (member : String) (found : Option Value) :
    changedMember (((members.map fun entry => (entry.1, MemberChange.set entry.2)).filter
      fun change => change.1 = member).map Prod.snd) found =
        (Dict.get? members member).or found := by
  induction members generalizing found with
  | nil => rfl
  | cons entry rest ih =>
    obtain ⟨unlisted, below⟩ := List.nodup_cons.mp distinct
    by_cases named : entry.1 = member
    · have step := ih below (some entry.2)
      rw [Dict.get?_eq_none_iff.mpr (named ▸ unlisted), Option.none_or] at step
      simpa [changedMember, MemberChange.apply, Dict.get?, named] using step
    · simpa [Dict.get?, named] using ih below found

/-! ## Several changes -/

/-- Where each item keeps what is there, the first value offered counts. -/
theorem changedMember_flatMap_keep {α : Type} {changes : α → List MemberChange}
    {offer : α → Option Value} {items : List α}
    (keeps : ∀ item ∈ items, ∀ found, changedMember (changes item) found = found.or (offer item))
    (found : Option Value) :
    changedMember (items.flatMap changes) found = found.or (items.findSome? offer) := by
  induction items generalizing found with
  | nil => simp [changedMember]
  | cons item rest ih =>
    rw [List.flatMap_cons, changedMember_append, keeps item List.mem_cons_self,
      ih fun later member => keeps later (List.mem_cons_of_mem _ member), Option.or_assoc,
      List.findSome?_cons]
    cases offer item <;> rfl

/-- Where each item replaces what is there, the last value set counts. -/
theorem changedMember_flatMap_set {α : Type} {changes : α → List MemberChange}
    {setting : α → Option Value} {items : List α}
    (sets : ∀ item ∈ items, ∀ found, changedMember (changes item) found = (setting item).or found)
    (found : Option Value) :
    changedMember (items.flatMap changes) found = (items.reverse.findSome? setting).or found := by
  induction items generalizing found with
  | nil => simp [changedMember]
  | cons item rest ih =>
    rw [List.flatMap_cons, changedMember_append, sets item List.mem_cons_self,
      ih fun later member => sets later (List.mem_cons_of_mem _ member), ← Option.or_assoc,
      List.reverse_cons, List.findSome?_append]
    simp

/-! ## Traces -/

theorem memberOf?_recordAll {table : Store → Dict Members} {declaredOnly : Bool}
    {changed : Write → Option (Bool × TableChange)}
    (step : ∀ store write, table (store.write write) =
      changeTable (table store) (changesOf declaredOnly (changed write)))
    {trace : Trace} (unpromoted : Recording.promoteScope ∉ trace) (store : Store)
    (name member : String) :
    memberOf? (table (store.recordAll trace)) name member =
      changedMember
        (trace.flatMap fun recording =>
          memberChanges name member (recording.changes declaredOnly changed))
        (memberOf? (table store) name member) := by
  rw [recordAll_changeTable step unpromoted, memberOf?_changeTable, memberChanges_flatMap]

theorem memberChanges_changesOf {changed : Write → Option (Bool × TableChange)} {write : Write}
    {declared : Bool} {entry : TableChange} (changes : changed write = some (declared, entry))
    (declaredOnly : Bool) (key member : String) :
    memberChanges key member ((Recording.write write).changes declaredOnly changed) =
      if entry.1 = key ∧ (declared || !declaredOnly) = true then
        (entry.2.filter fun change => change.1 = member).map Prod.snd
      else [] := by
  rw [Recording.changes, changes, changesOf]
  by_cases counted : (declared || !declaredOnly) = true
  · have single : (Option.filter (fun found => found.1 || !declaredOnly)
        (some (declared, entry))).map Prod.snd = some entry := by
      simp [Option.filter, counted]
    simp only [single, Option.toList_some, memberChanges_single, counted, and_true]
  · have none : (Option.filter (fun found => found.1 || !declaredOnly)
        (some (declared, entry))).map Prod.snd = none := by
      simp [Option.filter, counted]
    rw [none, if_neg fun both => counted both.2]
    rfl

theorem memberChanges_write {changed : Write → Option (Bool × TableChange)} {write : Write}
    {declared : Bool} {entry : TableChange} (changes : changed write = some (declared, entry))
    (name member : String) :
    memberChanges name member ((Recording.write write).changes false changed) =
      if entry.1 = name then (entry.2.filter fun change => change.1 = member).map Prod.snd
      else [] := by
  rw [memberChanges_changesOf changes]
  simp

theorem memberOf?_promoteDefaultScope (store : Store) (name member : String) :
    memberOf? store.promoteDefaultScope.annotations name member =
      memberOf? store.annotations name member := by
  rcases promoteDefaultScope_eq store with same | ⟨scope, same⟩
  · rw [same]
  · have unset : memberChanges name member
        (changesOf false (Write.direct true scope [] .runtime).annotation?) = [] := by
      refine (memberChanges_write rfl name member).trans ?_
      split <;> rfl
    rw [same, (write_annotations store _).1, memberOf?_changeTable, unset]
    rfl

/-- A scope that is promoted has no members. -/
theorem memberOf?_append_promotion (table : Dict Members) (scope : Option String)
    (name member : String) :
    memberOf? (table ++ promotion scope) name member = memberOf? table name member := by
  rw [memberOf?, memberOf?, Dict.get?_append]
  cases Dict.get? table name with
  | some members => rfl
  | none =>
    cases scope with
    | none => rfl
    | some scope =>
      by_cases named : scope = name
      · simp [promotion, Dict.get?, named]
      · simp [promotion, Dict.get?, named]

/-! ## Groups -/

theorem annotations_eq_filterMap (found : Option Value) :
    (found.map Value.annotations).getD [] = (groupItems found).filterMap Value.annotation? := by
  cases found with
  | none => rfl
  | some value => cases value <;> rfl

theorem mem_annotations_iff {found : Option Value} {occurrence : Annotation} :
    occurrence ∈ (found.map Value.annotations).getD [] ↔ .nested occurrence ∈ groupItems found := by
  rw [annotations_eq_filterMap, List.mem_filterMap]
  constructor
  · rintro ⟨item, member, same⟩
    cases item with
    | nested inner =>
      cases same
      exact member
    | _ => cases same
  · exact fun member => ⟨_, member, rfl⟩

private theorem groupItems_subset_apply {entry : MemberChange} (unset : entry.isSet = false)
    (found : Option Value) : groupItems found ⊆ groupItems (some (entry.apply found)) := by
  cases entry with
  | set value => cases unset
  | keep value =>
    cases found with
    | none => exact List.nil_subset _
    | some present => exact List.Subset.refl _
  | add item => exact Value.subset_insertUnlisted _ item

private theorem groupItems_subset_changedMember {changes : List MemberChange}
    (unset : ∀ entry ∈ changes, entry.isSet = false) (found : Option Value) :
    groupItems found ⊆ groupItems (changedMember changes found) := by
  induction changes generalizing found with
  | nil => exact List.Subset.refl _
  | cons entry rest ih =>
    have kept := groupItems_subset_apply (unset entry List.mem_cons_self) found
    exact List.Subset.trans kept
      (ih (fun later member => unset later (List.mem_cons_of_mem _ member)) _)

theorem exists_change_of_mem_memberChanges {declaredOnly : Bool}
    {changed : Write → Option (Bool × TableChange)} {recording : Recording} {key member : String}
    {entry : MemberChange}
    (listed : entry ∈ memberChanges key member (recording.changes declaredOnly changed)) :
    ∃ write declared members, recording = .write write ∧
      changed write = some (declared, key, members) ∧ (member, entry) ∈ members := by
  cases recording with
  | write write =>
    cases made : changed write with
    | none =>
      rw [Recording.changes, made] at listed
      cases listed
    | some change =>
      obtain ⟨declared, name, members⟩ := change
      rw [memberChanges_changesOf made] at listed
      split at listed
      · next counted =>
        obtain ⟨⟨other, same⟩, kept, rfl⟩ := List.mem_map.mp listed
        obtain ⟨present, named⟩ := List.mem_filter.mp kept
        cases of_decide_eq_true named
        exact ⟨write, declared, members, rfl, counted.1 ▸ made, present⟩
      · cases listed
  | _ => cases listed

/-- A member is set only where its annotation is written with it. -/
theorem unset_or_direct_of_mem_memberChanges {declaredOnly : Bool}
    {changed : Write → Option (Bool × TableChange)}
    (tables : changed = Write.annotation? ∨ changed = Write.stereotype?) {recording : Recording}
    {key member : String} {entry : MemberChange}
    (listed : entry ∈ memberChanges key member (recording.changes declaredOnly changed)) :
    entry.isSet = false ∨ ∃ declared members retention value,
      recording = .write (.direct declared key members retention) ∧ (member, value) ∈ members := by
  obtain ⟨write, declared, members, rfl, made, present⟩ :=
    exists_change_of_mem_memberChanges listed
  rcases tables with rfl | rfl
  · cases write with
    | direct =>
      cases made
      obtain ⟨⟨_, value⟩, given, same⟩ := List.mem_map.mp present
      cases same
      exact .inr ⟨_, _, _, value, rfl, given⟩
    | occurrence =>
      cases made
      cases List.mem_singleton.mp present
      exact .inl rfl
    | _ => cases made
  · cases write with
    | stereotype =>
      cases made
      obtain ⟨⟨_, value⟩, _, same⟩ := List.mem_map.mp present
      cases same
      exact .inl rfl
    | stereotypeOccurrence =>
      cases made
      cases List.mem_singleton.mp present
      exact .inl rfl
    | _ => cases made

/-- A stereotype keeps what a member holds; only the group of a container is added to. -/
theorem keep_or_add_of_mem_stereotypeChanges {recording : Recording} {name member : String}
    {entry : MemberChange}
    (listed : entry ∈ memberChanges name member (recording.changes false Write.stereotype?)) :
    (∃ value, entry = .keep value) ∨
      ∃ declared parents item, entry = .add (.nested item) ∧ member = Name.valueMember ∧
        recording = .write (.stereotypeOccurrence declared parents name item) := by
  cases recording with
  | write write =>
    cases write with
    | stereotype =>
      rw [memberChanges_write rfl] at listed
      split at listed
      · obtain ⟨change, kept, rfl⟩ := List.mem_map.mp listed
        obtain ⟨given, _, rfl⟩ := List.mem_map.mp (List.mem_filter.mp kept).1
        exact .inl ⟨_, rfl⟩
      · cases listed
    | stereotypeOccurrence declared parents container item =>
      rw [memberChanges_write rfl] at listed
      split at listed
      · next named =>
        obtain ⟨change, kept, rfl⟩ := List.mem_map.mp listed
        obtain ⟨single, wanted⟩ := List.mem_filter.mp kept
        cases List.mem_singleton.mp single
        have same : Name.valueMember = member := of_decide_eq_true wanted
        exact .inr ⟨declared, parents, item, rfl, same.symm, by rw [← named]⟩
      · cases listed
    | direct => cases listed
    | occurrence => cases listed
    | defaults => cases listed
  | warning => cases listed
  | read => cases listed
  | promoteScope => cases listed
  | unfinished => cases listed

private theorem isSet_of_mem_stereotypeChanges {recording : Recording} {name member : String}
    {entry : MemberChange}
    (listed : entry ∈ memberChanges name member (recording.changes false Write.stereotype?)) :
    entry.isSet = false := by
  rcases keep_or_add_of_mem_stereotypeChanges listed with ⟨_, rfl⟩ | ⟨_, _, _, rfl, _, _⟩
  · rfl
  · rfl

theorem groupedIn_eq (table : Dict Members) (container name : String) :
    groupedIn table container name =
      (((memberOf? table container Name.valueMember).map Value.annotations).getD []).filter
        fun occurrence => occurrence.name == name := by
  unfold groupedIn memberOf?
  cases Dict.get? table container with
  | none => rfl
  | some members =>
    simp only [Option.bind_some]
    cases Dict.get? members Name.valueMember with
    | none => rfl
    | some value => rfl

/-- What is not set in a group keeps its occurrences. -/
theorem groupedIn_subset_recordAll {table : Store → Dict Members} {declaredOnly : Bool}
    {changed : Write → Option (Bool × TableChange)}
    (step : ∀ store write, table (store.write write) =
      changeTable (table store) (changesOf declaredOnly (changed write)))
    {trace : Trace} (unpromoted : Recording.promoteScope ∉ trace) {container : String}
    (unset : ∀ recording ∈ trace, ∀ entry ∈
      memberChanges container Name.valueMember (recording.changes declaredOnly changed),
      entry.isSet = false) (store : Store) (name : String) :
    groupedIn (table store) container name ⊆
      groupedIn (table (store.recordAll trace)) container name := by
  rw [groupedIn_eq, groupedIn_eq, memberOf?_recordAll step unpromoted, annotations_eq_filterMap,
    annotations_eq_filterMap]
  refine List.filter_subset _ (List.filterMap_subset _ (groupItems_subset_changedMember ?_ _))
  intro entry listed
  obtain ⟨recording, recorded, changes⟩ := List.mem_flatMap.mp listed
  exact unset recording recorded entry changes

/-- What is added to a group is there afterwards, or an occurrence that agrees with it. -/
private theorem exists_mem_groupedIn_changeTable (table : Dict Members) (container : String)
    (item : Annotation) :
    ∃ occurrence ∈ groupedIn
        (changeTable table [(container, [(Name.valueMember, .add (.nested item))])])
        container item.name,
      occurrence.Matches item := by
  have changes : memberChanges container Name.valueMember
      [(container, [(Name.valueMember, .add (.nested item))])] = [.add (.nested item)] := by
    rw [memberChanges_single, if_pos rfl]
    rfl
  obtain ⟨present, member, same⟩ := Value.exists_matches_insertUnlisted
    (groupItems (memberOf? table container Name.valueMember)) (.nested item)
  -- The group may hold an agreeing occurrence instead, which has the same name.
  obtain ⟨occurrence, rfl, agreeing⟩ := same.exists_nested
  refine ⟨occurrence, ?_, agreeing⟩
  rw [groupedIn_eq, memberOf?_changeTable, changes]
  exact List.mem_filter.mpr ⟨mem_annotations_iff.mpr member, beq_iff_eq.mpr agreeing.name_eq⟩

/-- What is added to a group stays there, unless a later write sets the group. -/
theorem exists_mem_groupedIn {table : Store → Dict Members}
    {changed : Write → Option (Bool × TableChange)}
    (step : ∀ store write, table (store.write write) =
      changeTable (table store) (changesOf false (changed write)))
    {before after : Trace} {write : Write}
    (unpromoted : Recording.promoteScope ∉ before ++ .write write :: after) {container : String}
    (unset : ∀ recording ∈ after, ∀ entry ∈
      memberChanges container Name.valueMember (recording.changes false changed),
      entry.isSet = false)
    {declared : Bool} {item : Annotation}
    (adds : changed write = some (declared, container, [(Name.valueMember, .add (.nested item))])) :
    ∃ occurrence ∈ groupedIn (table (Store.empty.recordAll (before ++ .write write :: after)))
        container item.name,
      occurrence.Matches item := by
  have single : changesOf false (changed write) =
      [(container, [(Name.valueMember, .add (.nested item))])] := by
    simp [changesOf, adds]
  obtain ⟨occurrence, member, same⟩ := exists_mem_groupedIn_changeTable
    (table (Store.empty.recordAll before)) container item
  rw [← single, ← step] at member
  have later : Recording.promoteScope ∉ after := fun promoted =>
    unpromoted (List.mem_append_right _ (List.mem_cons_of_mem _ promoted))
  refine ⟨occurrence, ?_, same⟩
  rw [recordAll, List.foldl_append]
  exact groupedIn_subset_recordAll step later unset _ _ member

/-- Where nothing is set in a group, everything that is added to it is there. -/
theorem exists_mem_groupedIn_of_unset {table : Store → Dict Members}
    {changed : Write → Option (Bool × TableChange)}
    (step : ∀ store write, table (store.write write) =
      changeTable (table store) (changesOf false (changed write)))
    {trace : Trace} (unpromoted : Recording.promoteScope ∉ trace) {container : String}
    (unset : ∀ recording ∈ trace, ∀ entry ∈
      memberChanges container Name.valueMember (recording.changes false changed),
      entry.isSet = false)
    {write : Write} (recorded : .write write ∈ trace) {declared : Bool} {item : Annotation}
    (adds : changed write = some (declared, container, [(Name.valueMember, .add (.nested item))])) :
    ∃ occurrence ∈ groupedIn (table (Store.empty.recordAll trace)) container item.name,
      occurrence.Matches item := by
  obtain ⟨before, after, rfl⟩ := List.append_of_mem recorded
  exact exists_mem_groupedIn step unpromoted (fun recording later =>
    unset recording (List.mem_append_right _ (List.mem_cons_of_mem _ later))) adds

theorem exists_mem_groupedIn_recordAll {trace : Trace}
    (unpromoted : Recording.promoteScope ∉ trace) {declared : Bool} {parents : List String}
    {container : String} {item : Annotation}
    (recorded : .write (.stereotypeOccurrence declared parents container item) ∈ trace) :
    ∃ occurrence,
      occurrence ∈ groupedIn (Store.empty.recordAll trace).stereotypes container item.name := by
  obtain ⟨occurrence, listed, _⟩ := exists_mem_groupedIn_of_unset
    (fun store write => (store.write_stereotypes write).1) unpromoted
    (fun _ _ _ changes => isSet_of_mem_stereotypeChanges changes) recorded rfl
  exact ⟨occurrence, listed⟩

/-! ## Values -/

theorem value?_of_values? {store : Store} {name member : String} {members : Members}
    {value : Value} (listed : store.values? name = some members)
    (found : Dict.get? members member = some value) :
    (Metadata.ofStore store).value? name member = some value := by
  have full : store.isEmpty = false := by
    refine Bool.eq_false_iff.mpr fun empty => ?_
    rw [isEmpty, Bool.and_eq_true, List.isEmpty_iff, List.isEmpty_iff] at empty
    simp [values?, empty, Dict.get?] at listed
  simp [Metadata.ofStore, full, Metadata.value?, Metadata.layers, value?, listed, found]

theorem value?_of_annotation {store : Store} {name member : String} {value : Value}
    (recorded : memberOf? store.annotations name member = some value) :
    (Metadata.ofStore store).value? name member = some value := by
  obtain ⟨members, listed, found⟩ := Option.bind_eq_some_iff.mp recorded
  exact value?_of_values? (by rw [values?, listed, Option.some_or]) found

theorem value?_of_stereotype {store : Store} {name member : String} {value : Value}
    (unannotated : Dict.get? store.annotations name = none)
    (recorded : memberOf? store.stereotypes name member = some value) :
    (Metadata.ofStore store).value? name member = some value := by
  obtain ⟨members, listed, found⟩ := Option.bind_eq_some_iff.mp recorded
  exact value?_of_values? (by rw [values?, unannotated, Option.none_or, listed]) found

end Store

theorem Metadata.stereotypes_snapshot_ofStore (store : Store) :
    (ofStore store).snapshot.stereotypes = store.stereotypes := by
  unfold ofStore
  split
  · next empty =>
    rw [Store.isEmpty, Bool.and_eq_true, List.isEmpty_iff, List.isEmpty_iff] at empty
    rw [empty.2]
    rfl
  · rfl

end AnnotationMetadata
