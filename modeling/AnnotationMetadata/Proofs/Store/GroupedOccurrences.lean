import AnnotationMetadata.Proofs.Store.GroupItems

set_option autoImplicit false

/-!
# Occurrences in groups

The group of a container that is only added to holds the occurrences that were added, each
where it was added first. Annotations of several types can share a container: what is added
for one of them is not touched by what is added for another.
-/

namespace AnnotationMetadata

/-- The occurrences without those that agree with an earlier one. -/
def distinctOccurrences (occurrences : List Annotation) : List Annotation :=
  occurrences.eraseDupsBy fun later earlier => earlier.agrees later

/-- Occurrences that are inserted one by one come after the ones that are there already. -/
private theorem Metadata.foldl_insertOccurrence (found items : List Annotation) :
    items.foldl insertOccurrence found =
      found ++ distinctOccurrences
        (items.filter fun item => !found.any fun present => present.agrees item) := by
  induction items generalizing found with
  | nil => exact (List.append_nil _).symm
  | cons item rest ih =>
    rw [List.foldl_cons, ih, insertOccurrence]
    by_cases listed : (found.any fun present => present.agrees item) = true
    · rw [if_pos listed, List.filter_cons_of_neg (by simpa using listed)]
    · rw [if_neg listed, List.filter_cons_of_pos (by simpa using listed), distinctOccurrences,
        distinctOccurrences, List.eraseDupsBy_cons, List.append_assoc, List.singleton_append,
        List.filter_filter]
      simp [Bool.and_comm]

namespace Store

variable {container name : String} {trace : Trace}

/-! ## Additions -/

/-- The occurrences of an annotation among the items of a group. -/
def itemsNamed (name : String) (items : List Value) : List Annotation :=
  (items.filterMap Value.annotation?).filter fun occurrence => occurrence.name == name

private theorem any_agrees_itemsNamed (items : List Value) (item : Annotation) :
    ((itemsNamed item.name items).any fun present => present.agrees item) =
      items.any fun present => present.agrees (.nested item) := by
  rw [Bool.eq_iff_iff, List.any_eq_true, List.any_eq_true]
  constructor
  · rintro ⟨present, listed, agrees⟩
    obtain ⟨value, member, held⟩ := List.mem_filterMap.mp (List.mem_filter.mp listed).1
    cases value with
    | nested occurrence =>
      cases held
      exact ⟨_, member, by simpa only [Value.agrees] using agrees⟩
    | _ => cases held
  · rintro ⟨value, member, agrees⟩
    obtain ⟨occurrence, rfl, agreeing⟩ := Value.exists_nested_of_agrees agrees
    have named := Annotation.name_eq_of_agrees agreeing
    exact ⟨occurrence, List.mem_filter.mpr ⟨List.mem_filterMap.mpr ⟨_, member, rfl⟩,
      beq_iff_eq.mpr named⟩, agreeing⟩

private theorem itemsNamed_insertUnlisted (name : String) (items : List Value) (item : Annotation) :
    itemsNamed name (Value.insertUnlisted items (.nested item)) =
      if item.name == name then Metadata.insertOccurrence (itemsNamed name items) item
      else itemsNamed name items := by
  rw [Value.insertUnlisted]
  by_cases named : item.name = name
  · subst named
    rw [beq_self_eq_true, if_pos rfl, Metadata.insertOccurrence, any_agrees_itemsNamed]
    split
    · rfl
    · simp [itemsNamed, Value.annotation?]
  · have other : (item.name == name) = false := beq_eq_false_iff_ne.mpr named
    rw [other, if_neg Bool.false_ne_true]
    split
    · rfl
    · simp [itemsNamed, Value.annotation?, named]

/-- By induction on the additions: of the items of a group, those with a name are added to
those with that name. -/
private theorem itemsNamed_changedMember (items : List Annotation) (found : Option Value) :
    itemsNamed name (groupItems (changedMember (items.map fun item => .add (.nested item)) found)) =
      (items.filter fun item => item.name == name).foldl Metadata.insertOccurrence
        (itemsNamed name (groupItems found)) := by
  induction items generalizing found with
  | nil => rfl
  | cons item rest ih =>
    have step : changedMember ((item :: rest).map fun item => .add (.nested item)) found =
        changedMember (rest.map fun item => .add (.nested item))
          (some (.array (Value.insertUnlisted (groupItems found) (.nested item)))) := rfl
    have inserted := itemsNamed_insertUnlisted name (groupItems found) item
    rw [step, ih, groupItems, inserted, List.filter_cons]
    split
    · rfl
    · rfl

/-- A group that is only added to holds what is added to it. -/
private theorem groupedIn_of_additions {table : Store → Dict Members} {declaredOnly : Bool}
    {changed : Write → Option (Bool × TableChange)}
    (step : ∀ store write, table (store.write write) =
      changeTable (table store) (changesOf declaredOnly (changed write)))
    (empty : table .empty = []) (unpromoted : Recording.promoteScope ∉ trace)
    {items : List Annotation}
    (additions : (trace.flatMap fun recording =>
      memberChanges container Name.valueMember (recording.changes declaredOnly changed)) =
        items.map fun item => .add (.nested item)) :
    groupedIn (table (Store.empty.recordAll trace)) container name =
      distinctOccurrences (items.filter fun item => item.name == name) := by
  rw [groupedIn_eq, annotations_eq_filterMap, memberOf?_recordAll step unpromoted, additions,
    empty]
  refine (itemsNamed_changedMember items none).trans ?_
  rw [Metadata.foldl_insertOccurrence]
  simp [itemsNamed, groupItems]

/-! ## Writes -/

/-- The occurrence that a write adds to a group as an annotation, if it is asked for. -/
def Write.occurrence? (declaredOnly : Bool) : Write → Option Annotation
  | .occurrence declared _ item => if declared || !declaredOnly then some item else none
  | _ => none

/-- The occurrence that a write adds to a group as a stereotype, if it is asked for. -/
def Write.stereotypeOccurrence? (declaredOnly : Bool) : Write → Option Annotation
  | .stereotypeOccurrence declared _ _ item =>
    if declared || !declaredOnly then some item else none
  | _ => none

private theorem memberChanges_of_grouped {changed : Write → Option (Bool × TableChange)}
    {added : Bool → Write → Option Annotation}
    (tables : changed = Write.annotation? ∧ added = Write.occurrence? ∨
      changed = Write.stereotype? ∧ added = Write.stereotypeOccurrence?)
    (declaredOnly : Bool) {write : Write}
    (grouped : write.key? = some container → write.grouping?.isSome) :
    memberChanges container Name.valueMember
        ((Recording.write write).changes declaredOnly changed) =
      ((added declaredOnly write).filter fun _ => write.key? = some container).toList.map
        fun item => .add (.nested item) := by
  have plain : ∀ {declared key members}, changed write = some (declared, key, members) →
      write.key? = some key → write.grouping? = none → memberChanges container Name.valueMember
        ((Recording.write write).changes declaredOnly changed) = [] := by
    intro declared key members made keyed ungrouped
    rw [memberChanges_changesOf made, if_neg]
    rintro ⟨named, _⟩
    have some := grouped (named ▸ keyed)
    rw [ungrouped] at some
    cases some
  have single : ∀ {declared key item},
      changed write = some (declared, key, [(Name.valueMember, .add (.nested item))]) →
        write.key? = some key →
        added declaredOnly write = (if declared || !declaredOnly then some item else none) →
        memberChanges container Name.valueMember
            ((Recording.write write).changes declaredOnly changed) =
          ((added declaredOnly write).filter fun _ => write.key? = some container).toList.map
            fun item => .add (.nested item) := by
    intro declared key item made keyed adds
    rw [memberChanges_changesOf made, keyed, adds]
    by_cases counted : (declared || !declaredOnly) = true
    · by_cases named : key = container
      · simp [Option.filter, named, counted]
      · simp [Option.filter, named, counted]
    · simp [counted]
  rcases tables with ⟨rfl, rfl⟩ | ⟨rfl, rfl⟩
  · cases write with
    | direct => exact plain rfl rfl rfl
    | occurrence => exact single rfl rfl rfl
    | _ => rfl
  · cases write with
    | stereotype => exact plain rfl rfl rfl
    | stereotypeOccurrence => exact single rfl rfl rfl
    | _ => rfl

theorem exists_grouping_of_added {added : Bool → Write → Option Annotation}
    (tables : added = Write.occurrence? ∨ added = Write.stereotypeOccurrence?)
    {declaredOnly : Bool} {write : Write} {item : Annotation}
    (adds : added declaredOnly write = some item) :
    ∃ other, write.grouping? = some (item.name, other) := by
  rcases tables with rfl | rfl
  · cases write with
    | occurrence declared other occurrence =>
      obtain ⟨_, same⟩ := Option.ite_none_right_eq_some.mp adds
      cases same
      exact ⟨_, rfl⟩
    | _ => cases adds
  · cases write with
    | stereotypeOccurrence declared parents other occurrence =>
      obtain ⟨_, same⟩ := Option.ite_none_right_eq_some.mp adds
      cases same
      exact ⟨_, rfl⟩
    | _ => cases adds

/-- Where an annotation is grouped under one container that is only added to, its occurrences
in the group are those that the trace adds. -/
theorem groupedIn_of_grouped {table : Store → Dict Members}
    {changed : Write → Option (Bool × TableChange)} {added : Bool → Write → Option Annotation}
    (tables : changed = Write.annotation? ∧ added = Write.occurrence? ∨
      changed = Write.stereotype? ∧ added = Write.stereotypeOccurrence?)
    {declaredOnly : Bool}
    (step : ∀ store write, table (store.write write) =
      changeTable (table store) (changesOf declaredOnly (changed write)))
    (empty : table .empty = []) (unpromoted : Recording.promoteScope ∉ trace)
    (grouped : ∀ write, .write write ∈ trace → write.key? = some container →
      write.grouping?.isSome)
    (single : ∀ write, .write write ∈ trace → ∀ other, write.grouping? = some (name, other) →
      other = container) :
    groupedIn (table (Store.empty.recordAll trace)) container name =
      distinctOccurrences ((trace.flatMap (Recording.made fun write =>
        (added declaredOnly write).toList)).filter fun item => item.name == name) := by
  have additions : (trace.flatMap fun recording =>
      memberChanges container Name.valueMember (recording.changes declaredOnly changed)) =
        (trace.flatMap (Recording.made fun write =>
          ((added declaredOnly write).filter fun _ => write.key? = some container).toList)).map
            fun item => .add (.nested item) := by
    rw [List.map_flatMap]
    refine List.flatMap_congr fun recording recorded => ?_
    cases recording with
    | write write => exact memberChanges_of_grouped tables declaredOnly (grouped write recorded)
    | _ => rfl
  rw [groupedIn_of_additions step empty unpromoted additions, List.filter_flatMap,
    List.filter_flatMap]
  congr 1
  refine List.flatMap_congr fun recording recorded => ?_
  cases recording with
  | write write =>
    -- What is added under the name is added to the one container.
    cases adds : added declaredOnly write with
    | none => simp [Recording.made, adds]
    | some item =>
      by_cases named : item.name = name
      · obtain ⟨other, groups⟩ :=
          exists_grouping_of_added (tables.imp And.right And.right) adds
        have keyed := Write.key?_of_grouping? groups
        rw [single write recorded other (named ▸ groups)] at keyed
        simp [Recording.made, adds, keyed, Option.filter]
      · cases kept : (some item).filter fun _ => decide (write.key? = some container) with
        | none => simp [Recording.made, adds, kept, named]
        | some other =>
          obtain ⟨same, _⟩ := Option.filter_eq_some_iff.mp kept
          cases same
          simp [Recording.made, adds, kept, named]
  | _ => rfl

/-! ## Stores -/

/-- An annotation is grouped under the first container that it is added to. -/
theorem containerOf?_of_single (unpromoted : Recording.promoteScope ∉ trace)
    (grouped : ∃ write, .write write ∈ trace ∧ ∃ other, write.grouping? = some (name, other))
    (single : ∀ write, .write write ∈ trace → ∀ other, write.grouping? = some (name, other) →
      other = container) :
    (Store.empty.recordAll trace).containerOf? name = some container := by
  have some : ((Store.empty.recordAll trace).containerOf? name).isSome = true :=
    (containerOf?_isSome_recordAll unpromoted).mpr (.inr grouped)
  obtain ⟨other, found⟩ := Option.isSome_iff_exists.mp some
  obtain ⟨write, recorded, groups⟩ := exists_grouping_of_containerOf? unpromoted found
  rw [found, single write recorded other groups]

/-- The occurrences of an annotation that a trace adds to groups, those that agree once: first
the ones added as annotations, then the ones added as stereotypes. -/
def addedOccurrences (declaredOnly : Bool) (trace : Trace) (name : String) : List Annotation :=
  distinctOccurrences ((trace.flatMap (Recording.made fun write =>
      (write.occurrence? declaredOnly).toList)).filter fun item => item.name == name) ++
    distinctOccurrences ((trace.flatMap (Recording.made fun write =>
      (write.stereotypeOccurrence? declaredOnly).toList)).filter fun item => item.name == name)

theorem occurrences_recordAll (unpromoted : Recording.promoteScope ∉ trace)
    (grouped : ∃ write, .write write ∈ trace ∧ ∃ other, write.grouping? = some (name, other))
    (single : ∀ write, .write write ∈ trace → ∀ other, write.grouping? = some (name, other) →
      other = container)
    (added : ∀ write, .write write ∈ trace → write.key? = some container →
      write.grouping?.isSome) :
    (Store.empty.recordAll trace).occurrences name = addedOccurrences false trace name ∧
      (Store.empty.recordAll trace).declaredOccurrences name =
        addedOccurrences true trace name := by
  have found := containerOf?_of_single unpromoted grouped single
  rw [occurrences, declaredOccurrences, occurrencesIn, occurrencesIn, found]
  dsimp only
  rw [groupedIn_of_grouped (.inl ⟨rfl, rfl⟩) (fun store write => (write_annotations store write).1)
      rfl unpromoted added single,
    groupedIn_of_grouped (.inr ⟨rfl, rfl⟩) (fun store write => (write_stereotypes store write).1)
      rfl unpromoted added single,
    groupedIn_of_grouped (.inl ⟨rfl, rfl⟩) (fun store write => (write_annotations store write).2)
      rfl unpromoted added single,
    groupedIn_of_grouped (.inr ⟨rfl, rfl⟩) (fun store write => (write_stereotypes store write).2)
      rfl unpromoted added single]
  exact ⟨rfl, rfl⟩

private theorem foldl_write (store : Store) (writes : List Write) :
    writes.foldl Store.write store = store.recordAll (writes.map .write) := by
  rw [recordAll, List.foldl_map]
  rfl

theorem addedOccurrences_map_write (declaredOnly : Bool) (writes : List Write) (name : String) :
    addedOccurrences declaredOnly (writes.map .write) name =
      distinctOccurrences ((writes.filterMap (Write.occurrence? declaredOnly)).filter
          fun item => item.name == name) ++
        distinctOccurrences ((writes.filterMap (Write.stereotypeOccurrence? declaredOnly)).filter
          fun item => item.name == name) := by
  rw [addedOccurrences, List.flatMap_map, List.flatMap_map, List.filterMap_eq_flatMap_toList,
    List.filterMap_eq_flatMap_toList]
  rfl

/-- An annotation that is grouped under one container has the distinct occurrences that were
added, in the order in which they were added first. Nothing else that is written counts, as
long as it does not write the container itself. Occurrences are distinct if they do not agree,
in whatever order their members come. -/
theorem grouped_occurrences_distinct {writes : List Write}
    (grouped : ∃ write ∈ writes, write.grouping? = some (name, container))
    (single : ∀ write ∈ writes, ∀ other, write.grouping? = some (name, other) →
      other = container)
    (added : ∀ write ∈ writes, write.key? = some container → write.grouping?.isSome) :
    (writes.foldl Store.write .empty).occurrences name =
        distinctOccurrences ((writes.filterMap (Write.occurrence? false)).filter
            fun item => item.name == name) ++
          distinctOccurrences ((writes.filterMap (Write.stereotypeOccurrence? false)).filter
            fun item => item.name == name) ∧
      (writes.foldl Store.write .empty).declaredOccurrences name =
        distinctOccurrences ((writes.filterMap (Write.occurrence? true)).filter
            fun item => item.name == name) ++
          distinctOccurrences ((writes.filterMap (Write.stereotypeOccurrence? true)).filter
            fun item => item.name == name) ∧
      ∀ first second : Annotation, (Dict.keys first.members).Nodup →
        (Dict.keys second.members).Nodup →
          (first.agrees second = true ↔
            first.name = second.name ∧ first.retention = second.retention ∧
              Annotation.allAgree first.stereotypes second.stereotypes = true ∧
              ∀ member, Option.Rel (fun value found => value.agrees found = true)
                (Dict.get? first.members member) (Dict.get? second.members member)) := by
  have written : ∀ {P : Write → Prop}, (∀ write ∈ writes, P write) →
      ∀ write, .write write ∈ writes.map Recording.write → P write := by
    intro P all write recorded
    obtain ⟨other, member, same⟩ := List.mem_map.mp recorded
    cases same
    exact all _ member
  have unpromoted : Recording.promoteScope ∉ writes.map Recording.write := by
    intro recorded
    obtain ⟨write, _, same⟩ := List.mem_map.mp recorded
    cases same
  obtain ⟨write, member, groups⟩ := grouped
  obtain ⟨all, declared⟩ := occurrences_recordAll unpromoted
    ⟨write, List.mem_map_of_mem member, container, groups⟩ (written single) (written added)
  rw [← addedOccurrences_map_write, ← addedOccurrences_map_write, foldl_write]
  exact ⟨all, declared, fun first second => Annotation.agrees_iff⟩

/-- Writes of two annotations that share a container, one of them in two orders of members. -/
def taggedWrites : List Write :=
  let first : Annotation := { name := "bean.Tag", members := [("value", .long 1), ("id", .long 2)] }
  let again : Annotation := { name := "bean.Tag", members := [("id", .long 2), ("value", .long 1)] }
  let other : Annotation := { name := "bean.Mark" }
  [.stereotypeOccurrence true ["bean.Meta"] "bean.Tags" again, .occurrence false "bean.Tags" first,
    .direct true "bean.Meta" [] .runtime, .occurrence true "bean.Tags" other,
    .occurrence true "bean.Tags" again]

theorem grouped_occurrences_distinct_tagged :
    (taggedWrites.foldl Store.write .empty).occurrences "bean.Tag" =
      [{ name := "bean.Tag", members := [("value", .long 1), ("id", .long 2)] },
        { name := "bean.Tag", members := [("id", .long 2), ("value", .long 1)] }] ∧
    (taggedWrites.foldl Store.write .empty).declaredOccurrences "bean.Tag" =
      [{ name := "bean.Tag", members := [("id", .long 2), ("value", .long 1)] },
        { name := "bean.Tag", members := [("id", .long 2), ("value", .long 1)] }] := by
  have grouped : ∃ write ∈ taggedWrites, write.grouping? = some ("bean.Tag", "bean.Tags") :=
    ⟨_, List.mem_cons_self, rfl⟩
  have single : ∀ write ∈ taggedWrites, ∀ other, write.grouping? = some ("bean.Tag", other) →
      other = "bean.Tags" := by
    intro write member other groups
    simp only [taggedWrites, List.mem_cons, List.not_mem_nil, or_false] at member
    rcases member with rfl | rfl | rfl | rfl | rfl <;> simp_all [Write.grouping?]
  obtain ⟨all, declared, -⟩ := grouped_occurrences_distinct grouped single (by decide)
  exact ⟨all.trans (by cbv), declared.trans (by cbv)⟩

end Store

end AnnotationMetadata
