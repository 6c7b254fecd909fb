import AnnotationMetadata.Proofs.Store.Recorded
import AnnotationMetadata.Proofs.Store.Repeated
import AnnotationMetadata.Proofs.Store.Members

set_option autoImplicit false

/-!
# Items of groups

A value that is taken for a group has annotations appended to its items. A group that is
only added to holds nothing but what was added, and the container that a store remembers
for an annotation is one that the annotation was added to.
-/

namespace AnnotationMetadata.Store

variable {container name : String} {trace : Trace}

/-! ## Values that grow -/

/-- What a value becomes when annotations are added to the group that it is taken for. -/
def Grown (value result : Value) : Prop :=
  ∃ added : List Annotation, result = .array (groupItems (some value) ++ added.map .nested)

/-- A change that keeps what is there, or adds an annotation to it. -/
inductive MemberChange.Grows : MemberChange → Prop where
  | keep (value : Value) : Grows (.keep value)
  | add (item : Annotation) : Grows (.add (.nested item))

theorem Grown.add {value result : Value} (grown : result = value ∨ Grown value result)
    (item : Annotation) :
    Grown value (MemberChange.apply (.add (.nested item)) (some result)) := by
  obtain ⟨added, items⟩ : ∃ added : List Annotation,
      groupItems (some result) = groupItems (some value) ++ added.map .nested := by
    rcases grown with rfl | ⟨added, rfl⟩
    · exact ⟨[], (List.append_nil _).symm⟩
    · exact ⟨added, rfl⟩
  rw [MemberChange.apply, Value.insertUnlisted]
  split
  · exact ⟨added, by rw [items]⟩
  · exact ⟨added ++ [item], by rw [items]; simp⟩

/-- A value stays or grows. It stays if nothing is added. -/
private theorem changedMember_of_grows {changes : List MemberChange}
    (grows : ∀ entry ∈ changes, entry.Grows) {value result : Value}
    (grown : result = value ∨ Grown value result) :
    ∃ last, changedMember changes (some result) = some last ∧
      (last = value ∨ Grown value last) ∧
      ((∀ item, .add item ∉ changes) → last = result) := by
  induction changes generalizing result with
  | nil => exact ⟨result, rfl, grown, fun _ => rfl⟩
  | cons entry rest ih =>
    have below := fun later member => grows later (List.mem_cons_of_mem entry member)
    cases grows entry List.mem_cons_self with
    | keep other =>
      obtain ⟨last, reached, still, same⟩ := ih below grown
      exact ⟨last, reached, still, fun none => same fun item listed =>
        none item (List.mem_cons_of_mem _ listed)⟩
    | add item =>
      obtain ⟨last, reached, still, _⟩ := ih below (.inr (Grown.add grown item))
      exact ⟨last, reached, still, fun none => absurd List.mem_cons_self (none _)⟩

/-- The first value that is kept stays, whatever is kept or added later. -/
theorem changedMember_of_first {before after : List MemberChange} {value : Value}
    (first : ∀ entry ∈ before, entry = .keep value) (grows : ∀ entry ∈ after, entry.Grows) :
    ∃ result, changedMember (before ++ .keep value :: after) none = some result ∧
      (result = value ∨ Grown value result) ∧
      ((∀ item, .add item ∉ after) → result = value) := by
  have kept : ∀ found, found = none ∨ found = some value →
      changedMember (before ++ .keep value :: after) found =
        changedMember after (some value) := by
    induction before with
    | nil => rintro _ (rfl | rfl) <;> rfl
    | cons entry rest ih =>
      have same := first entry List.mem_cons_self
      subst same
      rintro _ (rfl | rfl) <;>
        exact ih (fun later listed => first later (List.mem_cons_of_mem _ listed)) _ (.inr rfl)
  rw [kept none (.inl rfl)]
  exact changedMember_of_grows grows (.inl rfl)

/-! ## What groups hold -/

/-- Where a write can only add to a group, it adds one item. -/
theorem exists_item_of_mem_memberChanges {changed : Write → Option (Bool × TableChange)}
    (tables : changed = Write.annotation? ∨ changed = Write.stereotype?) {write : Write}
    (grouped : write.key? = some container → write.grouping?.isSome) {entry : MemberChange}
    (listed : entry ∈ memberChanges container Name.valueMember
      ((Recording.write write).changes false changed)) :
    ∃ item, entry = .add (.nested item) ∧
      ((∃ declared, write = .occurrence declared container item) ∨
        ∃ declared parents, write = .stereotypeOccurrence declared parents container item) := by
  have single : ∀ {declared key item},
      changed write = some (declared, key, [(Name.valueMember, .add (.nested item))]) →
        key = container ∧ entry = .add (.nested item) := by
    intro declared key item adds
    rw [memberChanges_write adds] at listed
    split at listed
    · next named => exact ⟨named, List.mem_singleton.mp listed⟩
    · cases listed
  have ungrouped : ∀ {declared key members}, changed write = some (declared, key, members) →
      write.key? = some key → write.grouping? = none → False := by
    intro declared key members made keyed none
    rw [memberChanges_write made] at listed
    split at listed
    · next named =>
      subst named
      have some := grouped keyed
      rw [none] at some
      cases some
    · cases listed
  rcases tables with rfl | rfl
  · cases write with
    | direct => exact (ungrouped rfl rfl rfl).elim
    | occurrence =>
      obtain ⟨rfl, same⟩ := single rfl
      exact ⟨_, same, .inl ⟨_, rfl⟩⟩
    | _ => cases listed
  · cases write with
    | stereotype => exact (ungrouped rfl rfl rfl).elim
    | stereotypeOccurrence =>
      obtain ⟨rfl, same⟩ := single rfl
      exact ⟨_, same, .inr ⟨_, _, rfl⟩⟩
    | _ => cases listed

/-- By induction on the changes: what a group holds was there or is added. -/
private theorem mem_groupItems_changedMember {changes : List MemberChange}
    (adds : ∀ entry ∈ changes, ∃ item, entry = .add item) {found : Option Value} {item : Value}
    (listed : item ∈ groupItems (changedMember changes found)) :
    item ∈ groupItems found ∨ .add item ∈ changes := by
  induction changes generalizing found with
  | nil => exact .inl listed
  | cons entry rest ih =>
    obtain ⟨added, rfl⟩ := adds entry List.mem_cons_self
    rcases ih (fun later member => adds later (List.mem_cons_of_mem _ member)) listed with
      present | later
    · have now : item ∈ Value.insertUnlisted (groupItems found) added := present
      rw [Value.insertUnlisted] at now
      split at now
      · exact .inl now
      · rcases List.mem_append.mp now with before | last
        · exact .inl before
        · exact .inr (List.mem_singleton.mp last ▸ List.mem_cons_self)
    · exact .inr (List.mem_cons_of_mem _ later)

/-- Where everything is added to a group, all that it holds was added. -/
theorem exists_added_of_mem_groupedIn {table : Store → Dict Members}
    {changed : Write → Option (Bool × TableChange)}
    (step : ∀ store write, table (store.write write) =
      changeTable (table store) (changesOf false (changed write)))
    (empty : table .empty = []) (unpromoted : Recording.promoteScope ∉ trace)
    (adds : ∀ recording ∈ trace, ∀ entry ∈
      memberChanges container Name.valueMember (recording.changes false changed),
      ∃ item, entry = .add item)
    {occurrence : Annotation}
    (listed : occurrence ∈ groupedIn (table (Store.empty.recordAll trace)) container name) :
    occurrence.name = name ∧ ∃ recording ∈ trace, .add (.nested occurrence) ∈
      memberChanges container Name.valueMember (recording.changes false changed) := by
  rw [groupedIn_eq, memberOf?_recordAll step unpromoted, empty] at listed
  obtain ⟨member, named⟩ := List.mem_filter.mp listed
  refine ⟨beq_iff_eq.mp named, ?_⟩
  have present := mem_annotations_iff.mp member
  rcases mem_groupItems_changedMember (fun entry listed => by
    obtain ⟨recording, recorded, changes⟩ := List.mem_flatMap.mp listed
    exact adds recording recorded entry changes) present with before | added
  · cases before
  · exact List.mem_flatMap.mp added

/-- The remembered container is one that the annotation was added to. -/
theorem exists_grouping_of_containerOf? (unpromoted : Recording.promoteScope ∉ trace)
    (found : (Store.empty.recordAll trace).containerOf? name = some container) :
    ∃ write, .write write ∈ trace ∧ write.grouping? = some (name, container) := by
  have recorded : (Store.empty.recordAll trace).containers =
      Dict.underlay [] (trace.flatMap (Recording.made fun write => write.grouping?.toList)) :=
    recordAll_change (fun _ => rfl) (fun _ _ _ => List.foldl_append) containers_write_eq
      unpromoted .empty
  rw [containerOf?, recorded, Dict.get?_underlay] at found
  obtain ⟨recording, member, made⟩ := List.mem_flatMap.mp (Dict.mem_of_get?_eq_some found)
  cases recording with
  | write write => exact ⟨write, member, Option.mem_toList.mp made⟩
  | _ => cases made

end AnnotationMetadata.Store
