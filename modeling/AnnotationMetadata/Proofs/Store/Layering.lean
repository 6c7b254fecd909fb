import AnnotationMetadata.Proofs.Store.GivenDefaults
import AnnotationMetadata.Proofs.Store.Members
import AnnotationMetadata.Proofs.Store.WellFormed

set_option autoImplicit false

/-!
# Layered tables

A table that is layered under another one adds what is missing there: its names come
after those that are listed, and its members are hidden by those that are present.
-/

namespace AnnotationMetadata

section Union

variable {α : Type} [BEq α] [LawfulBEq α]

private theorem unionInOrder_insertUnlisted (items more : List α) (item : α) :
    unionInOrder items (insertUnlisted more item) =
      insertUnlisted (unionInOrder items more) item := by
  by_cases listed : item ∈ more
  · have listedAbove : item ∈ unionInOrder items more := mem_unionInOrder.mpr (.inr listed)
    simp [insertUnlisted, listed, listedAbove]
  · have last : insertUnlisted more item = more ++ [item] := by simp [insertUnlisted, listed]
    rw [last, unionInOrder, List.foldl_append]
    rfl

theorem unionInOrder_assoc (items first second : List α) :
    unionInOrder items (unionInOrder first second) =
      unionInOrder (unionInOrder items first) second := by
  induction second generalizing first with
  | nil => rfl
  | cons item rest ih =>
    have step : unionInOrder first (item :: rest) =
        unionInOrder (insertUnlisted first item) rest := rfl
    rw [step, ih, unionInOrder_insertUnlisted]
    rfl

theorem unionInOrder_of_disjoint {items more : List α} (distinct : (items ++ more).Nodup) :
    unionInOrder items more = items ++ more := by
  induction more generalizing items with
  | nil => exact (List.append_nil items).symm
  | cons item rest ih =>
    have unlisted : item ∉ items := fun listed =>
      (List.nodup_append.mp distinct).2.2 item listed item List.mem_cons_self rfl
    have last : insertUnlisted items item = items ++ [item] := by simp [insertUnlisted, unlisted]
    have step : unionInOrder items (item :: rest) =
        unionInOrder (insertUnlisted items item) rest := rfl
    rw [step, last, ih (by rwa [List.append_assoc]), List.append_assoc]
    rfl

end Union

namespace Store

/-! ## Names and members -/

theorem keys_addTable (table other : Dict Members) :
    Dict.keys (addTable table other) = unionInOrder (Dict.keys table) (Dict.keys other) := by
  rw [addTable_eq, changeTable, Dict.keys_changeAll, layerChanges, List.map_map, List.map_map]
  rfl

private theorem memberOf?_addMembers (table : Dict Members) (name : String) (members : Members)
    (other member : String) :
    memberOf? (addMembers table name members) other member =
      (memberOf? table other member).or
        (if name = other then Dict.get? members member else none) := by
  unfold memberOf?
  rw [get?_addMembers]
  split
  · next same =>
    subst same
    rw [Option.bind_some, Dict.get?_underlay]
    cases Dict.get? table name <;> rfl
  · rw [Option.or_none]

/-- What the upper table holds for a member hides what the lower one holds. -/
theorem memberOf?_addTable {other : Dict Members} (distinct : (Dict.keys other).Nodup)
    (table : Dict Members) (name member : String) :
    memberOf? (addTable table other) name member =
      (memberOf? table name member).or (memberOf? other name member) := by
  induction other generalizing table with
  | nil => exact (Option.or_none).symm
  | cons entry rest ih =>
    obtain ⟨unlisted, below⟩ := List.nodup_cons.mp distinct
    have step : addTable table (entry :: rest) =
        addTable (addMembers table entry.1 entry.2) rest := rfl
    rw [step, ih below, memberOf?_addMembers, Option.or_assoc]
    congr 1
    by_cases named : entry.1 = name
    · have missing : Dict.get? rest name = none := Dict.get?_eq_none_iff.mpr (named ▸ unlisted)
      simp [memberOf?, Dict.get?, named, missing]
    · simp [memberOf?, Dict.get?, named]

/-! ## Stores -/

/-- Each table lists a name at most once. -/
structure Keyed (store : Store) : Prop where
  annotations : (Dict.keys store.annotations).Nodup
  stereotypes : (Dict.keys store.stereotypes).Nodup
  defaults : (Dict.keys store.defaults).Nodup

theorem nodup_keys_changeTable {table : Dict Members} (distinct : (Dict.keys table).Nodup)
    (changes : List TableChange) : (Dict.keys (changeTable table changes)).Nodup := by
  rw [changeTable, Dict.keys_changeAll]
  exact nodup_unionInOrder distinct _

theorem nodup_keys_addTable {table : Dict Members} (distinct : (Dict.keys table).Nodup)
    (other : Dict Members) : (Dict.keys (addTable table other)).Nodup := by
  rw [keys_addTable]
  exact nodup_unionInOrder distinct _

theorem Keyed.empty : Store.empty.Keyed :=
  ⟨List.nodup_nil, List.nodup_nil, List.nodup_nil⟩

theorem Keyed.write {store : Store} (keyed : store.Keyed) (write : Write) :
    (store.write write).Keyed where
  annotations := (write_annotations store write).1 ▸ nodup_keys_changeTable keyed.annotations _
  stereotypes := (write_stereotypes store write).1 ▸ nodup_keys_changeTable keyed.stereotypes _
  defaults := write_defaults store write ▸ nodup_keys_changeTable keyed.defaults _

theorem Keyed.absorb {store : Store} (keyed : store.Keyed) (other : Store) (keepDeclared : Bool) :
    (store.absorb other keepDeclared).Keyed where
  annotations := nodup_keys_addTable keyed.annotations _
  stereotypes := nodup_keys_addTable keyed.stereotypes _
  defaults := nodup_keys_addTable keyed.defaults _

theorem Reachable.keyed {store : Store} (reachable : store.Reachable) : store.Keyed := by
  induction reachable with
  | empty => exact .empty
  | write _ write ih => exact ih.write write
  | absorb _ _ keepDeclared ih _ => exact ih.absorb _ keepDeclared

/-- A trace makes a reachable store of a reachable one. -/
theorem Reachable.recordAll {store : Store} (reachable : store.Reachable) (trace : Trace) :
    (store.recordAll trace).Reachable := by
  induction trace generalizing store with
  | nil => exact reachable
  | cons recording rest ih =>
    refine ih ?_
    cases recording with
    | write write => exact reachable.write write
    | promoteScope =>
      rcases promoteDefaultScope_eq store with same | ⟨scope, same⟩
      · have step : store.record .promoteScope = store := same
        rw [step]
        exact reachable
      · have step : store.record .promoteScope = store.write (.direct true scope [] .runtime) := same
        rw [step]
        exact reachable.write _
    | warning => exact reachable
    | read => exact reachable
    | unfinished => exact reachable

end Store

end AnnotationMetadata
