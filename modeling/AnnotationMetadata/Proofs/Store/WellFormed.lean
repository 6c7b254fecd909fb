import AnnotationMetadata.Proofs.Store.Recorded

set_option autoImplicit false

/-!
# Well-formed stores

Every store that is made of the empty one by writes, and by layering such stores, is
well-formed: what it declares is recorded, and its indexes name nothing that is not.
A store without annotations and stereotypes therefore holds defaults at most.
-/

namespace AnnotationMetadata

namespace Store

inductive Reachable : Store → Prop where
  | empty : Reachable .empty
  | write {store : Store} (reachable : Reachable store) (write : Write) :
      Reachable (store.write write)
  | absorb {store other : Store} (reachable : Reachable store) (layered : Reachable other)
      (keepDeclared : Bool) : Reachable (store.absorb other keepDeclared)

/-! ## What tables hold -/

/-- The table has an entry for the annotation, and in it all of the members. -/
def Holds (table : Dict Members) (name : String) (members : List String) : Prop :=
  ∃ present, Dict.get? table name = some present ∧
    ∀ member ∈ members, member ∈ Dict.keys present

/-- Everything in the part is in the table, too, members included. -/
def Covers (table part : Dict Members) : Prop :=
  ∀ entry ∈ part, Holds table entry.1 (Dict.keys entry.2)

theorem Holds.append {table : Dict Members} {name : String} {first second : List String}
    (holds : Holds table name first) (others : Holds table name second) :
    Holds table name (first ++ second) := by
  obtain ⟨present, found, listed⟩ := holds
  obtain ⟨same, foundAgain, listedToo⟩ := others
  cases found.symm.trans foundAgain
  refine ⟨present, found, ?_⟩
  intro member either
  exact (List.mem_append.mp either).elim (listed member) (listedToo member)

theorem keys_changeMembers (members : Members) (changes : MembersChange) :
    Dict.keys (changeMembers members changes) =
      unionInOrder (Dict.keys members) (changes.map Prod.fst) := by
  rw [changeMembers, Dict.keys_changeAll, List.map_map]
  rfl

theorem get?_changeTable_single (table : Dict Members) (entry : TableChange) (name : String) :
    Dict.get? (changeTable table [entry]) name =
      if entry.1 = name then
        some (changeMembers ((Dict.get? table entry.1).getD []) entry.2)
      else Dict.get? table name := by
  rw [changeTable_single, Dict.alter, Dict.get?_insert]

private theorem holds_changeTable_single (table : Dict Members) (entry : TableChange) :
    Holds (changeTable table [entry]) entry.1 (entry.2.map Prod.fst) := by
  refine ⟨_, (get?_changeTable_single table entry entry.1).trans (if_pos rfl), ?_⟩
  intro member changed
  rw [keys_changeMembers]
  exact mem_unionInOrder.mpr (.inr changed)

/-- Changes of a table take no entry and no member away. -/
theorem Holds.changeTable {table : Dict Members} {name : String} {members : List String}
    (holds : Holds table name members) (changes : List TableChange) :
    Holds (changeTable table changes) name members := by
  induction changes generalizing table with
  | nil => exact holds
  | cons entry rest ih =>
    rw [← List.singleton_append, changeTable_append]
    refine ih ?_
    obtain ⟨present, found, listed⟩ := holds
    by_cases same : entry.1 = name
    · subst same
      refine ⟨_, (get?_changeTable_single table entry entry.1).trans (if_pos rfl), ?_⟩
      intro member asked
      rw [keys_changeMembers, found]
      exact mem_unionInOrder.mpr (.inl (listed member asked))
    · exact ⟨present, (get?_changeTable_single table entry name).trans
        ((if_neg same).trans found), listed⟩

theorem holds_of_mem_changes (table : Dict Members) {changes : List TableChange}
    {entry : TableChange} (changed : entry ∈ changes) :
    Holds (changeTable table changes) entry.1 (entry.2.map Prod.fst) := by
  obtain ⟨before, after, rfl⟩ := List.append_of_mem changed
  rw [← List.singleton_append, changeTable_append, changeTable_append]
  exact (holds_changeTable_single _ entry).changeTable after

/-- A part stays covered while it is changed only at what the table holds. -/
theorem Covers.changePart {table part : Dict Members} (covers : Covers table part)
    {changes : List TableChange}
    (held : ∀ entry ∈ changes, Holds table entry.1 (entry.2.map Prod.fst)) :
    Covers table (changeTable part changes) := by
  induction changes generalizing part with
  | nil => exact covers
  | cons entry rest ih =>
    rw [← List.singleton_append, changeTable_append]
    refine ih ?_ fun later member => held later (List.mem_cons_of_mem _ member)
    have new := held entry List.mem_cons_self
    intro other listed
    rw [changeTable_single] at listed
    rcases Dict.mem_of_mem_alter listed with old | ⟨members, known, rfl⟩
    · exact covers other old
    · -- What the part has under this name is nothing yet, or it is covered.
      have old : Holds table entry.1 (Dict.keys members) := by
        rcases known with rfl | known
        · obtain ⟨present, found, _⟩ := new
          exact ⟨present, found, fun _ none => nomatch none⟩
        · exact covers _ known
      obtain ⟨present, found, listed⟩ := old.append new
      refine ⟨present, found, fun member changed => listed member ?_⟩
      rw [keys_changeMembers] at changed
      exact List.mem_append.mpr (mem_unionInOrder.mp changed)

/-- Changes of a table, some of them made to a covered part as well, leave it covered. -/
theorem Covers.changeTable {table part : Dict Members} (covers : Covers table part)
    {changes some : List TableChange} (made : some ⊆ changes) :
    Covers (changeTable table changes) (changeTable part some) := by
  have grown : Covers (Store.changeTable table changes) part :=
    fun entry listed => (covers entry listed).changeTable changes
  exact grown.changePart fun entry changed => holds_of_mem_changes _ (made changed)

/-- What layering a table under another one changes. -/
def layerChanges (other : Dict Members) : List TableChange :=
  other.map fun entry => (entry.1, entry.2.map fun member => (member.1, .keep member.2))

theorem addTable_eq (table other : Dict Members) :
    addTable table other = changeTable table (layerChanges other) := by
  induction other generalizing table with
  | nil => rfl
  | cons entry rest ih =>
    have step : addTable table (entry :: rest) =
        addTable (addMembers table entry.1 entry.2) rest := rfl
    rw [step, ih, addMembers_eq, ← changeTable_append]
    rfl

/-- Each entry that is layered under a table is held, also where it repeats another one. -/
theorem holds_addTable_of_mem (table : Dict Members) {other : Dict Members}
    {entry : String × Members} (listed : entry ∈ other) :
    Holds (addTable table other) entry.1 (Dict.keys entry.2) := by
  have layered : (entry.1, entry.2.map fun member => (member.1, MemberChange.keep member.2)) ∈
      layerChanges other := List.mem_map.mpr ⟨entry, listed, rfl⟩
  rw [addTable_eq]
  obtain ⟨present, found, holds⟩ := holds_of_mem_changes table layered
  refine ⟨present, found, fun member asked => holds member ?_⟩
  rw [List.map_map]
  exact asked

theorem Holds.addTable {table other : Dict Members} {name : String} {members : List String}
    (holds : Holds other name members) : Holds (addTable table other) name members := by
  obtain ⟨present, found, listed⟩ := holds
  obtain ⟨merged, foundThere, kept⟩ :=
    holds_addTable_of_mem table (Dict.mem_of_get?_eq_some found)
  exact ⟨merged, foundThere, fun member asked => kept member (listed member asked)⟩

theorem Holds.over {table : Dict Members} {name : String} {members : List String}
    (holds : Holds table name members) (other : Dict Members) :
    Holds (Store.addTable table other) name members := by
  rw [addTable_eq]
  exact holds.changeTable _

theorem mem_keys_addTable {table other : Dict Members} {name : String} :
    name ∈ Dict.keys (addTable table other) ↔
      name ∈ Dict.keys table ∨ name ∈ Dict.keys other := by
  rw [addTable_eq, mem_keys_changeTable]
  refine or_congr_right ?_
  constructor
  · rintro ⟨_, changed⟩
    obtain ⟨entry, listed, same⟩ := List.mem_map.mp changed
    exact List.mem_map.mpr ⟨entry, listed, congrArg Prod.fst same⟩
  · intro listed
    obtain ⟨entry, member, rfl⟩ := List.mem_map.mp listed
    exact ⟨_, List.mem_map.mpr ⟨entry, member, rfl⟩⟩

theorem Covers.addTable {table part other otherPart : Dict Members} (covers : Covers table part)
    (layered : Covers other otherPart) :
    Covers (addTable table other) (Store.addTable part otherPart) := by
  have grown : Covers (Store.addTable table other) part :=
    fun entry listed => (covers entry listed).over other
  rw [addTable_eq part]
  refine grown.changePart ?_
  intro entry changed
  obtain ⟨source, listed, rfl⟩ := List.mem_map.mp changed
  have held : Holds (Store.addTable table other) source.1 (Dict.keys source.2) :=
    (layered source listed).addTable
  rw [List.map_map]
  exact held

/-! ## Indexes and lists -/

/-- The stereotypes are indexed under some annotations each, none of them twice. -/
def Indexed (stereotypes : List String) (parents : Dict (List String)) : Prop :=
  ∀ entry ∈ parents, entry.1 ∈ stereotypes ∧ entry.2 ≠ [] ∧ entry.2.Nodup

private theorem Indexed.union {stereotypes : List String} {parents : Dict (List String)}
    (indexed : Indexed stereotypes parents) {name : String} (listed : name ∈ stereotypes)
    {more : List String} (some : more ≠ []) :
    Indexed stereotypes (Dict.alter parents name [] fun present => unionInOrder present more) := by
  intro entry member
  rcases Dict.mem_of_mem_alter member with old | ⟨present, known, rfl⟩
  · exact indexed entry old
  · refine ⟨listed, ?_, nodup_unionInOrder ?_ more⟩
    · obtain ⟨parent, added⟩ := List.exists_mem_of_ne_nil more some
      exact List.ne_nil_of_mem (mem_unionInOrder.mpr (.inr added))
    · rcases known with rfl | known
      · exact List.nodup_nil
      · exact (indexed _ known).2.2

theorem Indexed.addParents {stereotypes : List String} {parents other : Dict (List String)}
    (indexed : Indexed stereotypes parents)
    (layered : ∀ entry ∈ other, entry.1 ∈ stereotypes ∧ entry.2 ≠ []) :
    Indexed stereotypes (addParents parents other) := by
  induction other generalizing parents with
  | nil => exact indexed
  | cons entry rest ih =>
    obtain ⟨listed, some⟩ := layered entry List.mem_cons_self
    exact ih (indexed.union listed some) fun later member =>
      layered later (List.mem_cons_of_mem _ member)

/-- The stereotype that a write indexes, under the annotations that it names. -/
def Write.indexed (write : Write) : List (String × List String) :=
  (write.index?.toList.filter fun index => !index.1.isEmpty).map Prod.swap

theorem indexStereotype_parents (store : Store) (parents : List String) (stereotype : String) :
    (store.indexStereotype parents stereotype).parents =
      addParents store.parents
        (([(parents, stereotype)].filter fun index => !index.1.isEmpty).map Prod.swap) := by
  unfold indexStereotype
  cases parents <;> rfl

theorem parents_write (store : Store) (write : Write) :
    (store.write write).parents = addParents store.parents write.indexed := by
  have retained := trackRetention_keeps Store.parents (fun _ _ => rfl)
  have contained := trackContainer_keeps Store.parents (fun _ _ => rfl) (fun _ _ => rfl)
  cases write with
  | direct => exact retained _ _ _
  | stereotype => exact (retained _ _ _).trans (indexStereotype_parents _ _ _)
  | occurrence => exact contained _ _ _
  | stereotypeOccurrence _ parents container occurrence =>
    rw [← contained store container occurrence]
    exact indexStereotype_parents _ parents container
  | defaults => rfl

theorem Write.index?_of_mem_indexed {write : Write} {name : String} {parents : List String}
    (listed : (name, parents) ∈ write.indexed) :
    write.index? = some (parents, name) ∧ parents ≠ [] := by
  obtain ⟨index, kept, swapped⟩ := List.mem_map.mp listed
  obtain ⟨made, some⟩ := List.mem_filter.mp kept
  cases swapped
  exact ⟨Option.mem_toList.mp made, by simpa using some⟩

/-- The annotation whose retention a write tracks. -/
def Write.tracked? : Write → Option (String × Retention)
  | .direct _ name _ retention => some (name, retention)
  | .stereotype _ _ name _ retention => some (name, retention)
  | .occurrence _ container item => some (container, item.retention)
  | .stereotypeOccurrence _ _ container item => some (container, item.retention)
  | .defaults _ _ => none

def Write.sourceOnly (write : Write) : List String :=
  (write.tracked?.toList.filter fun tracked => tracked.2 = .source).map Prod.fst

theorem trackRetention_sourceOnly (store : Store) (name : String) (retention : Retention) :
    (store.trackRetention name retention).sourceOnly =
      unionInOrder store.sourceOnly
        (([(name, retention)].filter fun tracked => tracked.2 = .source).map Prod.fst) := by
  unfold trackRetention
  cases retention <;> rfl

theorem sourceOnly_write (store : Store) (write : Write) :
    (store.write write).sourceOnly = unionInOrder store.sourceOnly write.sourceOnly := by
  have indexed := indexStereotype_keeps Store.sourceOnly (fun _ _ => rfl)
  cases write with
  | direct => exact trackRetention_sourceOnly _ _ _
  | stereotype _ parents name =>
    exact (trackRetention_sourceOnly _ _ _).trans
      (congrArg (unionInOrder · _) (indexed _ parents name))
  | occurrence => exact trackRetention_sourceOnly _ _ _
  | stereotypeOccurrence =>
    exact (indexed _ _ _).trans (trackRetention_sourceOnly _ _ _)
  | defaults => rfl

private theorem Write.key?_of_mem_sourceOnly {write : Write} {name : String}
    (listed : name ∈ write.sourceOnly) : write.key? = some name := by
  obtain ⟨tracked, kept, rfl⟩ := List.mem_map.mp listed
  have made := Option.mem_toList.mp (List.mem_filter.mp kept).1
  cases write with
  | direct => cases made; rfl
  | stereotype => cases made; rfl
  | occurrence => cases made; rfl
  | stereotypeOccurrence => cases made; rfl
  | defaults => cases made

/-! ## Invariant -/

/-- The annotation or stereotype is recorded and has a group. -/
def HoldsGroup (store : Store) (container : String) : Prop :=
  Holds store.annotations container [Name.valueMember] ∨
    Holds store.stereotypes container [Name.valueMember]

structure WellFormed (store : Store) : Prop where
  annotations : Covers store.annotations store.declaredAnnotations
  stereotypes : Covers store.stereotypes store.declaredStereotypes
  parents : Indexed (Dict.keys store.stereotypes) store.parents
  containers : ∀ entry ∈ store.containers, store.HoldsGroup entry.2
  sourceOnly : ∀ name ∈ store.sourceOnly, store.hasStereotype name = true

theorem changesOf_subset (entry : Option (Bool × TableChange)) :
    changesOf true entry ⊆ changesOf false entry := by
  intro change made
  obtain ⟨found, kept, same⟩ := Option.map_eq_some_iff.mp (Option.mem_toList.mp made)
  obtain ⟨rfl, _⟩ := Option.filter_eq_some_iff.mp kept
  exact mem_changesOf_iff.mpr ⟨found.1, by rw [← same]⟩

private theorem holdsGroup_write {store : Store} {write : Write} {name container : String}
    (grouped : write.grouping? = some (name, container)) :
    (store.write write).HoldsGroup container := by
  cases write with
  | occurrence declared _ item =>
    cases grouped
    refine .inl ?_
    rw [(write_annotations store _).1]
    exact holds_of_mem_changes _ (mem_changesOf_iff.mpr ⟨declared, rfl⟩)
  | stereotypeOccurrence declared _ _ item =>
    cases grouped
    refine .inr ?_
    rw [(write_stereotypes store _).1]
    exact holds_of_mem_changes _ (mem_changesOf_iff.mpr ⟨declared, rfl⟩)
  | direct => cases grouped
  | stereotype => cases grouped
  | defaults => cases grouped

theorem HoldsGroup.write {store : Store} {container : String}
    (held : store.HoldsGroup container) (write : Write) :
    (store.write write).HoldsGroup container := by
  unfold HoldsGroup
  rw [(write_annotations store write).1, (write_stereotypes store write).1]
  exact held.imp (·.changeTable _) (·.changeTable _)

theorem Indexed.grow {stereotypes more : List String} {parents : Dict (List String)}
    (indexed : Indexed stereotypes parents) (kept : stereotypes ⊆ more) : Indexed more parents :=
  fun entry member => (indexed entry member).imp_left (kept ·)

theorem WellFormed.empty : Store.empty.WellFormed where
  annotations := fun _ none => nomatch none
  stereotypes := fun _ none => nomatch none
  parents := fun _ none => nomatch none
  containers := fun _ none => nomatch none
  sourceOnly := fun _ none => nomatch none

theorem WellFormed.write {store : Store} (formed : store.WellFormed) (write : Write) :
    (store.write write).WellFormed := by
  obtain ⟨annotations, declaredAnnotations⟩ := write_annotations store write
  obtain ⟨stereotypes, declaredStereotypes⟩ := write_stereotypes store write
  refine ⟨?_, ?_, ?_, ?_, ?_⟩
  · rw [annotations, declaredAnnotations]
    exact formed.annotations.changeTable (changesOf_subset _)
  · rw [stereotypes, declaredStereotypes]
    exact formed.stereotypes.changeTable (changesOf_subset _)
  · have grown : Indexed (Dict.keys (store.write write).stereotypes) store.parents := by
      refine formed.parents.grow fun name listed => ?_
      rw [stereotypes]
      exact mem_keys_changeTable.mpr (.inl listed)
    rw [parents_write]
    refine grown.addParents fun entry listed => ?_
    -- A write that indexes a stereotype changes its members, too.
    obtain ⟨indexed, some⟩ := Write.index?_of_mem_indexed listed
    obtain ⟨declared, members, made⟩ := Write.exists_stereotype_iff_exists_index.mpr ⟨_, indexed⟩
    refine ⟨?_, some⟩
    rw [stereotypes]
    exact mem_keys_changeTable.mpr (.inr ⟨members, mem_changesOf_iff.mpr ⟨declared, made⟩⟩)
  · intro entry listed
    rw [containers_write] at listed
    cases grouped : write.grouping? with
    | none =>
      rw [grouped] at listed
      exact (formed.containers entry listed).write write
    | some grouping =>
      rw [grouped] at listed
      rcases Dict.mem_of_mem_insertNew listed with old | rfl
      · exact (formed.containers entry old).write write
      · exact holdsGroup_write grouped
  · intro name listed
    refine hasStereotype_write.mpr ?_
    rw [sourceOnly_write, mem_unionInOrder] at listed
    exact listed.imp (formed.sourceOnly name) Write.key?_of_mem_sourceOnly

theorem WellFormed.absorb {store other : Store} (formed : store.WellFormed)
    (layered : other.WellFormed) (keepDeclared : Bool) :
    (store.absorb other keepDeclared).WellFormed := by
  refine ⟨?_, ?_, ?_, ?_, ?_⟩
  · cases keepDeclared with
    | true => exact formed.annotations.addTable layered.annotations
    | false => exact fun entry listed => (formed.annotations entry listed).over _
  · cases keepDeclared with
    | true => exact formed.stereotypes.addTable layered.stereotypes
    | false => exact fun entry listed => (formed.stereotypes entry listed).over _
  · have here : Dict.keys store.stereotypes ⊆
        Dict.keys (addTable store.stereotypes other.stereotypes) :=
      fun _ listed => mem_keys_addTable.mpr (.inl listed)
    have there : Dict.keys other.stereotypes ⊆
        Dict.keys (addTable store.stereotypes other.stereotypes) :=
      fun _ listed => mem_keys_addTable.mpr (.inr listed)
    refine (formed.parents.grow here).addParents fun entry listed => ?_
    obtain ⟨recorded, some, _⟩ := layered.parents entry listed
    exact ⟨there recorded, some⟩
  · intro entry listed
    rcases Dict.mem_of_mem_underlay listed with here | there
    · exact (formed.containers entry here).imp (·.over _) (·.over _)
    · exact (layered.containers entry there).imp Holds.addTable Holds.addTable
  · intro name listed
    have recorded : store.hasStereotype name = true ∨ other.hasStereotype name = true :=
      (mem_unionInOrder.mp listed).imp (formed.sourceOnly name) (layered.sourceOnly name)
    rw [hasStereotype_iff, hasStereotype_iff, or_or_or_comm] at recorded
    exact hasStereotype_iff.mpr (recorded.imp mem_keys_addTable.mpr mem_keys_addTable.mpr)

theorem Reachable.wellFormed {store : Store} (reachable : store.Reachable) : store.WellFormed := by
  induction reachable with
  | empty => exact .empty
  | write _ write ih => exact ih.write write
  | absorb _ _ keepDeclared ih layered => exact ih.absorb layered keepDeclared

/-! ## Stores that count as empty -/

theorem WellFormed.eq_of_isEmpty {store : Store} (formed : store.WellFormed)
    (empty : store.isEmpty = true) : store = { defaults := store.defaults } := by
  rw [isEmpty, Bool.and_eq_true, List.isEmpty_iff, List.isEmpty_iff] at empty
  obtain ⟨noAnnotations, noStereotypes⟩ := empty
  have none : ∀ {name : String} {members : List String}, ¬ Holds [] name members := by
    rintro name members ⟨present, found, listed⟩
    cases found
  have declaredAnnotations : store.declaredAnnotations = [] :=
    List.eq_nil_iff_forall_not_mem.mpr fun entry listed =>
      none (noAnnotations ▸ formed.annotations entry listed)
  have declaredStereotypes : store.declaredStereotypes = [] :=
    List.eq_nil_iff_forall_not_mem.mpr fun entry listed =>
      none (noStereotypes ▸ formed.stereotypes entry listed)
  have parents : store.parents = [] :=
    List.eq_nil_iff_forall_not_mem.mpr fun entry listed => by
      have recorded := (formed.parents entry listed).1
      rw [noStereotypes] at recorded
      cases recorded
  have containers : store.containers = [] :=
    List.eq_nil_iff_forall_not_mem.mpr fun entry listed => by
      have recorded := formed.containers entry listed
      rw [HoldsGroup, noAnnotations, noStereotypes] at recorded
      exact recorded.elim none none
  have sourceOnly : store.sourceOnly = [] :=
    List.eq_nil_iff_forall_not_mem.mpr fun name listed => by
      have recorded := hasStereotype_iff.mp (formed.sourceOnly name listed)
      rw [noAnnotations, noStereotypes] at recorded
      exact recorded.elim List.not_mem_nil List.not_mem_nil
  have parts : store =
      ⟨store.declaredAnnotations, store.annotations, store.declaredStereotypes, store.stereotypes,
        store.parents, store.containers, store.defaults, store.sourceOnly⟩ := rfl
  rw [parts, noAnnotations, noStereotypes, declaredAnnotations, declaredStereotypes, parents,
    containers, sourceOnly]

/-- What a reachable store declares is recorded, with all members; stereotypes are indexed
under some annotations each; containers in use are recorded with their groups, and so is
what is not kept beyond source. When nothing is recorded, there is nothing but defaults, and
only these are lost when such a store is taken for empty metadata. -/
theorem wellFormed_of_reachable {store : Store} (reachable : store.Reachable) :
    store.WellFormed ∧
      (store.isEmpty = true → store = { defaults := store.defaults }) ∧
      { (Metadata.ofStore store).snapshot with defaults := store.defaults } = store := by
  have formed := reachable.wellFormed
  refine ⟨formed, formed.eq_of_isEmpty, ?_⟩
  unfold Metadata.ofStore
  split
  · next empty => exact (formed.eq_of_isEmpty empty).symm
  · rfl

/-- A stereotype of an annotation that is not kept beyond source, over a group. -/
def layeredStore : Store :=
  (Store.empty.write (.stereotype true ["bean.Named"] "bean.Qualifier" [] .source)).absorb
    (Store.empty.write (.occurrence true "bean.Tags" { name := "bean.Tag" })) true

theorem layeredStore_wellFormed :
    layeredStore.Reachable ∧ layeredStore.WellFormed ∧
      { (Metadata.ofStore layeredStore).snapshot with defaults := layeredStore.defaults } =
        layeredStore := by
  have reachable : layeredStore.Reachable := .absorb (.write .empty _) (.write .empty _) true
  obtain ⟨formed, _, kept⟩ := wellFormed_of_reachable reachable
  exact ⟨reachable, formed, kept⟩

end Store

end AnnotationMetadata
