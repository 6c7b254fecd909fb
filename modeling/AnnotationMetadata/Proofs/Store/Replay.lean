import AnnotationMetadata.Dict.Lemmas
import AnnotationMetadata.Proofs.Value.Agreement
import AnnotationMetadata.Store.Basic

set_option autoImplicit false

/-!
# Repeated changes

Every write changes a table at one annotation, and there some members. Such
changes can be repeated as a whole: a member that was set is set to the same value
again, a member that was kept is there, and an occurrence that was added to a group
is listed, provided that it agrees with itself.
-/

namespace AnnotationMetadata

namespace Dict

variable {β : Type}

/-- A change of the value at one key. -/
abbrev Change (β : Type) : Type := String × (Option β → β)

def change (dict : Dict β) (entry : Change β) : Dict β :=
  insert dict entry.1 (entry.2 (get? dict entry.1))

def changeAll (dict : Dict β) (changes : List (Change β)) : Dict β :=
  changes.foldl change dict

/-- What changes make of the value at a key. -/
def changedAt (changes : List (Change β)) (key : String) (found : Option β) : Option β :=
  changes.foldl (fun found entry => if entry.1 = key then some (entry.2 found) else found) found

theorem changeAll_append (dict : Dict β) (first second : List (Change β)) :
    changeAll dict (first ++ second) = changeAll (changeAll dict first) second :=
  List.foldl_append

theorem keys_changeAll (dict : Dict β) (changes : List (Change β)) :
    keys (changeAll dict changes) = unionInOrder (keys dict) (changes.map Prod.fst) := by
  induction changes generalizing dict with
  | nil => rfl
  | cons entry rest ih =>
    have step : changeAll dict (entry :: rest) = changeAll (change dict entry) rest := rfl
    rw [step, ih, change, keys_insert]
    rfl

theorem get?_changeAll (dict : Dict β) (changes : List (Change β)) (key : String) :
    get? (changeAll dict changes) key = changedAt changes key (get? dict key) := by
  induction changes generalizing dict with
  | nil => rfl
  | cons entry rest ih =>
    have step : changeAll dict (entry :: rest) = changeAll (change dict entry) rest := rfl
    rw [step, ih, change, get?_insert]
    by_cases same : entry.1 = key
    · simp [changedAt, same]
    · simp [changedAt, same]

theorem unionInOrder_self {items more : List String} (listed : ∀ item ∈ more, item ∈ items) :
    unionInOrder items more = items := by
  induction more with
  | nil => rfl
  | cons item rest ih =>
    have present : insertUnlisted items item = items := by
      simp [insertUnlisted, listed item List.mem_cons_self]
    have step : unionInOrder items (item :: rest) =
        unionInOrder (insertUnlisted items item) rest := rfl
    rw [step, present]
    exact ih fun other member => listed other (List.mem_cons_of_mem _ member)

theorem changedAt_of_not_mem {changes : List (Change β)} {key : String}
    (unchanged : ∀ entry ∈ changes, entry.1 ≠ key) (found : Option β) :
    changedAt changes key found = found := by
  induction changes with
  | nil => rfl
  | cons entry rest ih =>
    have other : entry.1 ≠ key := unchanged entry List.mem_cons_self
    simpa [changedAt, other] using ih fun later member =>
      unchanged later (List.mem_cons_of_mem _ member)

/-- Changes of other keys do not matter at a key. -/
theorem changedAt_filter {changes : List (Change β)} {key other : String} (different : other ≠ key)
    (found : Option β) :
    changedAt (changes.filter fun entry => entry.1 ≠ key) other found =
      changedAt changes other found := by
  induction changes generalizing found with
  | nil => rfl
  | cons entry rest ih =>
    by_cases dropped : entry.1 = key
    · simpa [changedAt, dropped, Ne.symm different] using ih found
    · by_cases wanted : entry.1 = other
      · simpa [changedAt, dropped, wanted, different] using ih (some (entry.2 found))
      · simpa [changedAt, dropped, wanted] using ih found

/-- The first entry changes in its place, the others by the changes of other keys. -/
theorem changeAll_cons (key : String) (value : β) (rest : Dict β) (changes : List (Change β)) :
    ∃ changed, changedAt changes key (some value) = some changed ∧
      changeAll ((key, value) :: rest) changes =
        (key, changed) :: changeAll rest (changes.filter fun entry => entry.1 ≠ key) := by
  induction changes generalizing value rest with
  | nil => exact ⟨value, rfl, rfl⟩
  | cons entry later ih =>
    by_cases same : entry.1 = key
    · obtain ⟨changed, reached, all⟩ := ih (entry.2 (some value)) rest
      refine ⟨changed, by simpa [changedAt, same] using reached, ?_⟩
      have first : change ((key, value) :: rest) entry = (key, entry.2 (some value)) :: rest := by
        simp [change, insert, get?, same]
      simpa [changeAll, first, same] using all
    · obtain ⟨changed, reached, all⟩ := ih value (change rest entry)
      refine ⟨changed, by simpa [changedAt, same] using reached, ?_⟩
      have other : ¬ key = entry.1 := fun equal => same equal.symm
      have first : change ((key, value) :: rest) entry = (key, value) :: change rest entry := by
        simp [change, insert, get?, other]
      simpa [changeAll, first, same] using all

/-- Changes that can be repeated at every key can be repeated as a whole. -/
theorem changeAll_twice {changes : List (Change β)}
    (repeatable : ∀ key found, changedAt changes key (changedAt changes key found) =
      changedAt changes key found) (dict : Dict β) :
    changeAll (changeAll dict changes) changes = changeAll dict changes := by
  induction dict generalizing changes with
  | nil =>
    -- Nothing was there, so that all keys are keys of changes and distinct.
    have distinct : (keys (changeAll ([] : Dict β) changes)).Nodup := by
      rw [keys_changeAll]
      exact nodup_unionInOrder List.nodup_nil _
    have same : keys (changeAll (changeAll [] changes) changes) =
        keys (changeAll ([] : Dict β) changes) := by
      rw [keys_changeAll, unionInOrder_self]
      intro key changed
      rw [keys_changeAll]
      exact mem_unionInOrder.mpr (.inr changed)
    refine ext_of_get? same (same ▸ distinct) ?_
    intro key
    rw [get?_changeAll, get?_changeAll]
    exact repeatable key none
  | cons entry rest ih =>
    obtain ⟨key, value⟩ := entry
    obtain ⟨changed, reached, once⟩ := changeAll_cons key value rest changes
    obtain ⟨changedAgain, reachedAgain, twice⟩ := changeAll_cons key changed
      (changeAll rest (changes.filter fun entry => entry.1 ≠ key)) changes
    have settled : changedAgain = changed := by
      have again := repeatable key (some value)
      rw [reached, reachedAgain] at again
      exact Option.some.inj again
    let elsewhere := changes.filter fun entry => entry.1 ≠ key
    have others : changeAll (changeAll rest elsewhere) elsewhere = changeAll rest elsewhere := by
      refine ih fun other found => ?_
      by_cases same : other = key
      · have unchanged : ∀ entry ∈ changes.filter fun entry => entry.1 ≠ key, entry.1 ≠ other := by
          intro entry kept
          simpa [same] using (List.mem_filter.mp kept).2
        rw [changedAt_of_not_mem unchanged, changedAt_of_not_mem unchanged]
      · rw [changedAt_filter same, changedAt_filter same]
        exact repeatable other found
    rw [once, twice, settled, others]

/-- Changes the value at a key by a list of items, starting from `fallback` at a new key. -/
def altering {α : Type} (apply : β → List α → β) (fallback : β) (entry : String × List α) :
    Change β :=
  (entry.1, fun found => apply (found.getD fallback) entry.2)

section Altering

variable {α : Type} {apply : β → List α → β} {fallback : β}
  (append : ∀ value first second, apply value (first ++ second) = apply (apply value first) second)

include append

/-- All items for one key together are one change of its value. -/
theorem changedAt_altering (entries : List (String × List α)) (key : String) (found : Option β) :
    changedAt (entries.map (altering apply fallback)) key found =
      if entries.any (fun entry => entry.1 = key) then
        some (apply (found.getD fallback)
          ((entries.filter fun entry => entry.1 = key).flatMap Prod.snd))
      else found := by
  induction entries generalizing found with
  | nil => rfl
  | cons entry rest ih =>
    by_cases same : entry.1 = key
    · have step := ih (some (apply (found.getD fallback) entry.2))
      simp only [changedAt, List.map_cons, List.foldl_cons, altering, same, if_true] at step ⊢
      rw [step]
      simp only [Option.getD_some, List.any_cons, same, decide_true, Bool.true_or, if_true,
        List.filter_cons, List.flatMap_cons]
      split
      · rw [append]
      · next untouched =>
        have none : (rest.filter fun entry => entry.1 = key) = [] :=
          List.filter_eq_nil_iff.mpr fun other member named =>
            untouched (List.any_eq_true.mpr ⟨other, member, named⟩)
        rw [none, List.flatMap_nil, List.append_nil]
    · have step := ih found
      simp only [changedAt, List.map_cons, List.foldl_cons, altering, same, if_false] at step ⊢
      rw [step, List.any_cons, decide_eq_false same, Bool.false_or,
        List.filter_cons_of_neg (by simpa using same)]

theorem changeAll_altering_twice {entries : List (String × List α)}
    (twice : ∀ items, (∀ item ∈ items, ∃ entry ∈ entries, item ∈ entry.2) →
      ∀ value, apply (apply value items) items = apply value items) (dict : Dict β) :
    changeAll (changeAll dict (entries.map (altering apply fallback)))
        (entries.map (altering apply fallback)) =
      changeAll dict (entries.map (altering apply fallback)) := by
  refine changeAll_twice (fun key found => ?_) dict
  rw [changedAt_altering append, changedAt_altering append]
  split
  · rw [Option.getD_some, twice]
    intro item listed
    obtain ⟨entry, among, held⟩ := List.mem_flatMap.mp listed
    exact ⟨entry, (List.mem_filter.mp among).1, held⟩
  · rfl

end Altering

end Dict

namespace Store

/-! ## Changes of a member -/

/-- What a write does to a member. -/
inductive MemberChange where
  | set (value : Value)
  | keep (value : Value)
  /-- Adds an item to the group that the member holds. -/
  | add (item : Value)

namespace MemberChange

def apply : MemberChange → Option Value → Value
  | .set value, _ => value
  | .keep value, found => found.getD value
  | .add item, found => .array (Value.insertUnlisted (groupItems found) item)

def isSet : MemberChange → Bool
  | .set _ => true
  | _ => false

/-- What the change adds to a group agrees with itself. -/
def SelfAgreeing : MemberChange → Prop
  | .add item => item.agrees item = true
  | _ => True

theorem any_agrees_insertUnlisted_of_any {items : List Value} {item : Value}
    (listed : (items.any fun present => present.agrees item) = true) (other : Value) :
    ((Value.insertUnlisted items other).any fun present => present.agrees item) = true := by
  unfold Value.insertUnlisted
  split
  · exact listed
  · rw [List.any_append, listed, Bool.true_or]

/-- A change that makes nothing of a value. -/
def Settled (entry : MemberChange) (value : Value) : Prop :=
  entry.apply (some value) = value

theorem settled_add_iff {item value : Value} :
    Settled (.add item) value ↔
      ∃ items, value = .array items ∧ (items.any fun present => present.agrees item) = true := by
  constructor
  · intro settled
    by_cases listed : ((groupItems (some value)).any fun present => present.agrees item) = true
    · exact ⟨_, settled.symm, any_agrees_insertUnlisted_of_any listed item⟩
    · have appended : Value.array (groupItems (some value) ++ [item]) = value := by
        rw [Settled, apply, Value.insertUnlisted, if_neg listed] at settled
        exact settled
      -- The group would have one item more than it has.
      have longer := congrArg (fun found => (groupItems (some found)).length) appended
      simp [groupItems] at longer
  · rintro ⟨items, rfl, listed⟩
    simp [Settled, apply, groupItems, Value.insertUnlisted, listed]

/-- A change settles in its result, unless it is replaced. -/
theorem settled_apply {entry : MemberChange} (own : entry.SelfAgreeing) (found : Option Value) :
    entry.Settled (entry.apply found) := by
  cases entry with
  | set value => rfl
  | keep value => rfl
  | add item =>
    refine settled_add_iff.mpr ⟨_, rfl, ?_⟩
    unfold Value.insertUnlisted
    split
    · assumption
    · have agrees : item.agrees item = true := own
      simp [agrees]

theorem Settled.apply {entry other : MemberChange} {value : Value} (settled : entry.Settled value)
    (unset : entry.isSet = false) (otherUnset : other.isSet = false) :
    entry.Settled (other.apply (some value)) := by
  cases entry with
  | set given => cases unset
  | keep given => rfl
  | add item =>
    obtain ⟨items, rfl, listed⟩ := settled_add_iff.mp settled
    cases other with
    | set given => cases otherUnset
    | keep given => exact settled
    | add more =>
      exact settled_add_iff.mpr ⟨_, rfl, any_agrees_insertUnlisted_of_any listed more⟩

end MemberChange

/-- What changes of one member make of its value. -/
def changedMember (changes : List MemberChange) (found : Option Value) : Option Value :=
  changes.foldl (fun found entry => some (entry.apply found)) found

private theorem changedMember_of_isSet {changes : List MemberChange}
    (some_set : changes.any MemberChange.isSet = true) (found other : Option Value) :
    changedMember changes found = changedMember changes other := by
  induction changes generalizing found other with
  | nil => cases some_set
  | cons entry rest ih =>
    cases entry with
    | set value => rfl
    | keep value => exact ih some_set _ _
    | add item => exact ih some_set _ _

/-- Changes that set nothing have all settled in their result. -/
private theorem changedMember_settles {changes : List MemberChange}
    (own : ∀ entry ∈ changes, entry.SelfAgreeing)
    (unset : ∀ entry ∈ changes, entry.isSet = false) (before : List MemberChange)
    (beforeUnset : ∀ entry ∈ before, entry.isSet = false) (value : Value)
    (settled : ∀ entry ∈ before, entry.Settled value) :
    ∃ result, changedMember changes (some value) = some result ∧
      ∀ entry ∈ before ++ changes, entry.Settled result := by
  induction changes generalizing before value with
  | nil => exact ⟨value, rfl, by simpa using settled⟩
  | cons entry rest ih =>
    have first : entry.isSet = false := unset entry List.mem_cons_self
    obtain ⟨result, reached, all⟩ := ih
      (fun later member => own later (List.mem_cons_of_mem _ member))
      (fun later member => unset later (List.mem_cons_of_mem _ member)) (before ++ [entry]) (by
        intro earlier member
        rcases List.mem_append.mp member with old | new
        · exact beforeUnset earlier old
        · exact (List.mem_singleton.mp new) ▸ first)
      (entry.apply (some value)) (by
        intro earlier member
        rcases List.mem_append.mp member with old | new
        · exact (settled earlier old).apply (beforeUnset earlier old) first
        · cases List.mem_singleton.mp new
          exact MemberChange.settled_apply (own entry List.mem_cons_self) _)
    refine ⟨result, reached, ?_⟩
    intro earlier member
    exact all earlier (by simpa using member)

/-- Changes that have settled make nothing of a value. -/
private theorem changedMember_of_settled {changes : List MemberChange} {value : Value}
    (settled : ∀ entry ∈ changes, entry.Settled value) :
    changedMember changes (some value) = some value := by
  induction changes with
  | nil => rfl
  | cons entry rest ih =>
    have first : entry.apply (some value) = value := settled entry List.mem_cons_self
    have step : changedMember (entry :: rest) (some value) =
        changedMember rest (some (entry.apply (some value))) := rfl
    rw [step, first]
    exact ih fun later member => settled later (List.mem_cons_of_mem _ member)

private theorem changedMember_twice {changes : List MemberChange}
    (own : ∀ entry ∈ changes, entry.SelfAgreeing) (found : Option Value) :
    changedMember changes (changedMember changes found) = changedMember changes found := by
  cases replaced : changes.any MemberChange.isSet with
  | true => exact changedMember_of_isSet replaced _ _
  | false =>
    have unset : ∀ entry ∈ changes, entry.isSet = false :=
      fun entry member => Bool.eq_false_iff.mpr (List.any_eq_false.mp replaced entry member)
    cases changes with
    | nil => rfl
    | cons entry rest =>
      obtain ⟨result, reached, settled⟩ := changedMember_settles
        (fun later member => own later (List.mem_cons_of_mem _ member))
        (fun later member => unset later (List.mem_cons_of_mem _ member)) [entry]
        (by simpa using unset entry List.mem_cons_self) (entry.apply found)
        (by simpa using MemberChange.settled_apply (own entry List.mem_cons_self) found)
      have once : changedMember (entry :: rest) found = some result := reached
      rw [once]
      exact changedMember_of_settled settled

/-! ## Changes of a table -/

/-- What a write does to the members of an annotation. -/
abbrev MembersChange : Type := List (String × MemberChange)

def changeMembers (members : Members) (changes : MembersChange) : Members :=
  Dict.changeAll members (changes.map fun entry => (entry.1, entry.2.apply))

theorem changeMembers_append (members : Members) (first second : MembersChange) :
    changeMembers members (first ++ second) =
      changeMembers (changeMembers members first) second := by
  simp only [changeMembers, List.map_append, Dict.changeAll_append]

/-- All changes of one member together. -/
theorem changedAt_members (changes : MembersChange) (member : String) (found : Option Value) :
    Dict.changedAt (changes.map fun entry => (entry.1, entry.2.apply)) member found =
      changedMember ((changes.filter fun entry => entry.1 = member).map Prod.snd) found := by
  induction changes generalizing found with
  | nil => rfl
  | cons entry rest ih =>
    by_cases same : entry.1 = member
    · simpa [Dict.changedAt, changedMember, same] using ih (some (entry.2.apply found))
    · simpa [Dict.changedAt, changedMember, same] using ih found

theorem get?_changeMembers (members : Members) (changes : MembersChange) (member : String) :
    Dict.get? (changeMembers members changes) member =
      changedMember ((changes.filter fun entry => entry.1 = member).map Prod.snd)
        (Dict.get? members member) := by
  rw [changeMembers, Dict.get?_changeAll, changedAt_members]

private theorem changeMembers_twice {changes : MembersChange}
    (own : ∀ change ∈ changes, change.2.SelfAgreeing) (members : Members) :
    changeMembers (changeMembers members changes) changes = changeMembers members changes := by
  refine Dict.changeAll_twice (fun member found => ?_) members
  rw [changedAt_members, changedAt_members]
  refine changedMember_twice (fun entry listed => ?_) found
  obtain ⟨change, among, rfl⟩ := List.mem_map.mp listed
  exact own change (List.mem_filter.mp among).1

/-- What a write does to a table of annotations. -/
abbrev TableChange : Type := String × MembersChange

def changeTable (table : Dict Members) (changes : List TableChange) : Dict Members :=
  Dict.changeAll table
    (changes.map fun entry => (entry.1, fun found => changeMembers (found.getD []) entry.2))

theorem changeTable_append (table : Dict Members) (first second : List TableChange) :
    changeTable table (first ++ second) = changeTable (changeTable table first) second := by
  simp only [changeTable, List.map_append, Dict.changeAll_append]

/-- All changes of one annotation together are a change of its members. -/
theorem changedAt_eq (changes : List TableChange) (name : String) (found : Option Members) :
    Dict.changedAt
        (changes.map fun entry => (entry.1, fun found => changeMembers (found.getD []) entry.2))
        name found =
      if changes.any (fun entry => entry.1 = name) then
        some (changeMembers (found.getD [])
          ((changes.filter fun entry => entry.1 = name).flatMap Prod.snd))
      else found :=
  Dict.changedAt_altering changeMembers_append changes name found

/-- Whatever the changes add to groups agrees with itself. -/
def SelfAgreeing (changes : List TableChange) : Prop :=
  ∀ entry ∈ changes, ∀ change ∈ entry.2, change.2.SelfAgreeing

/-- Changes of a table can be repeated. -/
theorem changeTable_twice {changes : List TableChange} (own : SelfAgreeing changes)
    (table : Dict Members) :
    changeTable (changeTable table changes) changes = changeTable table changes :=
  Dict.changeAll_altering_twice changeMembers_append
    (fun _ listed => changeMembers_twice fun change among =>
      let ⟨entry, made, held⟩ := listed change among
      own entry made change held) table

/-- However often the same changes are made to an empty table, once is enough. -/
theorem changeTable_replicate {changes : List TableChange} {times : Nat}
    (own : 0 < times → SelfAgreeing changes) :
    changeTable [] (List.replicate (times + 1) changes).flatten = changeTable [] changes := by
  induction times with
  | zero => simp
  | succ times ih =>
    have agreeing := own times.succ_pos
    rw [List.replicate_succ', List.flatten_concat, changeTable_append, ih fun _ => agreeing,
      changeTable_twice agreeing]

end Store

end AnnotationMetadata
