import AnnotationMetadata.Proofs.Store.Layering

set_option autoImplicit false

/-!
# Layering stores in turn

Layering one store under another and a third under both is the same as layering the
third under the second first. It holds of each table, the order of names included.
-/

namespace AnnotationMetadata

namespace Dict

/-! ## Merging maps of lists -/

section Merge

variable {α : Type} {merge : List α → List α → List α}

/-- Merges the entries of another map into those of a map, each into what is there. -/
def mergeBy (merge : List α → List α → List α) (dict other : Dict (List α)) : Dict (List α) :=
  changeAll dict (other.map (altering merge []))

theorem keys_mergeBy (dict other : Dict (List α)) :
    keys (mergeBy merge dict other) = unionInOrder (keys dict) (keys other) := by
  rw [mergeBy, keys_changeAll, List.map_map]
  rfl

theorem nodup_keys_mergeBy {dict : Dict (List α)} (distinct : (keys dict).Nodup)
    (other : Dict (List α)) : (keys (mergeBy merge dict other)).Nodup := by
  rw [keys_mergeBy]
  exact nodup_unionInOrder distinct _

theorem get?_mergeBy {other : Dict (List α)} (distinct : (keys other).Nodup)
    (dict : Dict (List α)) (key : String) :
    get? (mergeBy merge dict other) key =
      match get? other key with
      | none => get? dict key
      | some items => some (merge ((get? dict key).getD []) items) := by
  rw [mergeBy, get?_changeAll]
  induction other with
  | nil => rfl
  | cons entry rest ih =>
    obtain ⟨unlisted, below⟩ := List.nodup_cons.mp distinct
    by_cases same : entry.1 = key
    · have others : ∀ change ∈ rest.map (altering merge []), change.1 ≠ key := by
        rintro _ listed rfl
        obtain ⟨later, member, renamed⟩ := List.mem_map.mp listed
        exact unlisted (same ▸ renamed ▸ List.mem_map_of_mem member)
      simpa [changedAt, altering, get?, same] using changedAt_of_not_mem others _
    · simpa [changedAt, altering, get?, same] using ih below

/-- Merging is associative if it is so at each key and empty lists are neutral. -/
theorem mergeBy_assoc
    (assoc : ∀ first second third, merge (merge first second) third =
      merge first (merge second third))
    (neutral : ∀ items, merge items [] = items)
    {dict first second : Dict (List α)} (distinct : (keys dict).Nodup)
    (distinctFirst : (keys first).Nodup) (distinctSecond : (keys second).Nodup) :
    mergeBy merge (mergeBy merge dict first) second =
      mergeBy merge dict (mergeBy merge first second) := by
  have sameKeys : keys (mergeBy merge (mergeBy merge dict first) second) =
      keys (mergeBy merge dict (mergeBy merge first second)) := by
    simp only [keys_mergeBy, unionInOrder_assoc]
  refine ext_of_get? sameKeys (nodup_keys_mergeBy (nodup_keys_mergeBy distinct _) _) fun key => ?_
  rw [get?_mergeBy distinctSecond, get?_mergeBy distinctFirst,
    get?_mergeBy (nodup_keys_mergeBy distinctFirst _), get?_mergeBy distinctSecond]
  cases get? second key with
  | none => rfl
  | some items =>
    cases get? first key with
    | none => simp only [Option.getD_none, ← assoc, neutral]
    | some present => simp only [Option.getD_some, assoc]

end Merge

private theorem underlay_insertNew {β : Type} (dict other : Dict β) (key : String) (value : β) :
    underlay dict (insertNew other key value) = insertNew (underlay dict other) key value := by
  by_cases present : contains other key = true
  · have below : contains (underlay dict other) key = true := by
      rw [contains_iff, keys_underlay, mem_unionInOrder]
      exact .inr (contains_iff.mp present)
    rw [insertNew, if_pos present, insertNew, if_pos below]
  · rw [insertNew, if_neg present, underlay, List.foldl_append]
    rfl

theorem underlay_assoc {β : Type} (dict first second : Dict β) :
    underlay (underlay dict first) second = underlay dict (underlay first second) := by
  induction second generalizing first with
  | nil => rfl
  | cons entry rest ih =>
    have step : ∀ above : Dict β, underlay above (entry :: rest) =
        underlay (insertNew above entry.1 entry.2) rest := fun _ => rfl
    rw [step, step, ← ih, underlay_insertNew]

end Dict

namespace Store

/-! ## Tables -/

private theorem addTable_eq_mergeBy (table other : Dict Members) :
    addTable table other = Dict.mergeBy Dict.underlay table other := by
  rw [Dict.mergeBy, Dict.changeAll, List.foldl_map]
  rfl

theorem addTable_assoc {table first second : Dict Members} (distinct : (Dict.keys table).Nodup)
    (distinctFirst : (Dict.keys first).Nodup) (distinctSecond : (Dict.keys second).Nodup) :
    addTable (addTable table first) second = addTable table (addTable first second) := by
  simp only [addTable_eq_mergeBy]
  exact Dict.mergeBy_assoc Dict.underlay_assoc (fun _ => rfl) distinct distinctFirst distinctSecond

private theorem addParents_assoc {table first second : Dict (List String)}
    (distinct : (Dict.keys table).Nodup) (distinctFirst : (Dict.keys first).Nodup)
    (distinctSecond : (Dict.keys second).Nodup) :
    addParents (addParents table first) second = addParents table (addParents first second) := by
  simp only [addParents_eq]
  exact Dict.mergeBy_assoc (fun _ _ _ => (unionInOrder_assoc _ _ _).symm) (fun _ => rfl) distinct
    distinctFirst distinctSecond

/-! ## Stores -/

/-- Each table and the index of stereotypes list a name at most once. -/
structure Listing (store : Store) : Prop extends Keyed store where
  parents : (Dict.keys store.parents).Nodup

theorem nodup_keys_addParents {table : Dict (List String)} (distinct : (Dict.keys table).Nodup)
    (other : Dict (List String)) : (Dict.keys (addParents table other)).Nodup := by
  rw [addParents_eq]
  exact Dict.nodup_keys_mergeBy distinct other

theorem Listing.empty : Store.empty.Listing :=
  ⟨.empty, List.nodup_nil⟩

theorem Listing.absorb {store : Store} (listing : store.Listing) (other : Store)
    (keepDeclared : Bool) : (store.absorb other keepDeclared).Listing :=
  ⟨listing.toKeyed.absorb other keepDeclared, nodup_keys_addParents listing.parents _⟩

theorem Reachable.listing {store : Store} (reachable : store.Reachable) : store.Listing := by
  refine ⟨reachable.keyed, ?_⟩
  induction reachable with
  | empty => exact List.nodup_nil
  | write _ write ih => exact parents_write _ write ▸ nodup_keys_addParents ih _
  | absorb _ _ _ ih _ => exact nodup_keys_addParents ih _

/-- Stores that are layered under one another can be layered in any grouping. -/
theorem absorb_assoc {store first second : Store} (listing : store.Listing)
    (listingFirst : first.Listing) (listingSecond : second.Listing) (keepDeclared : Bool) :
    (store.absorb first false).absorb second false =
      store.absorb (first.absorb second keepDeclared) false := by
  rw [Store.mk.injEq]
  exact ⟨rfl,
    addTable_assoc listing.annotations listingFirst.annotations listingSecond.annotations, rfl,
    addTable_assoc listing.stereotypes listingFirst.stereotypes listingSecond.stereotypes,
    addParents_assoc listing.parents listingFirst.parents listingSecond.parents,
    Dict.underlay_assoc _ _ _,
    addTable_assoc listing.defaults listingFirst.defaults listingSecond.defaults,
    (unionInOrder_assoc _ _ _).symm⟩

end Store

end AnnotationMetadata
