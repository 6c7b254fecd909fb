import AnnotationMetadata.Proofs.Store.Defaults
import AnnotationMetadata.Proofs.Store.WellFormed

set_option autoImplicit false

/-!
# Repeated traces

All that writes do to a store they do to each of its fields alone, and in every field
it can be repeated: tables change as a whole, indexes and lists keep what they have. A
trace that is recorded once more leaves a store as it is, in whatever state it found
the store first, if every occurrence that it adds to a group agrees with itself.
-/

namespace AnnotationMetadata

theorem unionInOrder_twice (items more : List String) :
    unionInOrder (unionInOrder items more) more = unionInOrder items more :=
  Dict.unionInOrder_self fun _ listed => mem_unionInOrder.mpr (.inr listed)

theorem unionInOrder_append (items first second : List String) :
    unionInOrder items (first ++ second) = unionInOrder (unionInOrder items first) second :=
  List.foldl_append

namespace Dict

variable {β : Type}

/-- What has a value already is not laid under it. -/
theorem underlay_of_listed {dict other : Dict β} (listed : ∀ key ∈ keys other, key ∈ keys dict) :
    underlay dict other = dict := by
  induction other with
  | nil => rfl
  | cons entry rest ih =>
    have present : insertNew dict entry.1 entry.2 = dict :=
      if_pos (contains_iff.mpr (listed entry.1 List.mem_cons_self))
    have step : underlay dict (entry :: rest) =
        underlay (insertNew dict entry.1 entry.2) rest := rfl
    rw [step, present]
    exact ih fun key member => listed key (List.mem_cons_of_mem _ member)

theorem underlay_twice (dict other : Dict β) :
    underlay (underlay dict other) other = underlay dict other := by
  refine underlay_of_listed fun key listed => ?_
  rw [keys_underlay]
  exact mem_unionInOrder.mpr (.inr listed)

end Dict

namespace Store

/-! ## Indexes and lists -/

theorem addParents_eq (table other : Dict (List String)) :
    addParents table other = Dict.changeAll table (other.map (Dict.altering unionInOrder [])) := by
  rw [Dict.changeAll, List.foldl_map]
  rfl

private theorem addParents_twice (table other : Dict (List String)) :
    addParents (addParents table other) other = addParents table other := by
  simp only [addParents_eq]
  exact Dict.changeAll_altering_twice unionInOrder_append
    (fun more _ items => unionInOrder_twice items more) table

theorem containers_write_eq (store : Store) (write : Write) :
    (store.write write).containers =
      Dict.underlay store.containers write.grouping?.toList := by
  rw [containers_write]
  cases write.grouping? <;> rfl

/-! ## Whole stores -/

section Repeated

variable {trace : Trace} (unpromoted : Recording.promoteScope ∉ trace) (store : Store)

include unpromoted

theorem recordAll_twice_of_change {γ α : Type} {field : Store → γ} {made : Write → List α}
    {change : γ → List α → γ} (unchanged : ∀ value, change value [] = value)
    (append : ∀ value first second,
      change value (first ++ second) = change (change value first) second)
    (twice : ∀ value, change (change value (trace.flatMap (Recording.made made)))
      (trace.flatMap (Recording.made made)) = change value (trace.flatMap (Recording.made made)))
    (step : ∀ store write, field (store.write write) = change (field store) (made write)) :
    field ((store.recordAll trace).recordAll trace) = field (store.recordAll trace) := by
  have recorded := recordAll_change unchanged append step unpromoted
  rw [recorded (store.recordAll trace), recorded store, twice]

theorem table_recordAll_twice {table : Store → Dict Members} {declaredOnly : Bool}
    {changed : Write → Option (Bool × TableChange)}
    (step : ∀ store write, table (store.write write) =
      changeTable (table store) (changesOf declaredOnly (changed write)))
    (own : SelfAgreeing (trace.flatMap (Recording.changes declaredOnly changed))) :
    table ((store.recordAll trace).recordAll trace) = table (store.recordAll trace) := by
  have recorded := recordAll_changeTable step unpromoted
  rw [recorded (store.recordAll trace), recorded store, changeTable_twice own]

/-- Recording a trace that is recorded already changes nothing, order included. -/
theorem recordAll_twice (own : trace.SelfAgreeing) :
    (store.recordAll trace).recordAll trace = store.recordAll trace := by
  have annotations := table_recordAll_twice unpromoted store
    (fun store write => (write_annotations store write).1)
    (own.changes Write.selfAgreeing_annotation? _)
  have declaredAnnotations := table_recordAll_twice unpromoted store
    (fun store write => (write_annotations store write).2)
    (own.changes Write.selfAgreeing_annotation? _)
  have stereotypes := table_recordAll_twice unpromoted store
    (fun store write => (write_stereotypes store write).1)
    (own.changes Write.selfAgreeing_stereotype? _)
  have declaredStereotypes := table_recordAll_twice unpromoted store
    (fun store write => (write_stereotypes store write).2)
    (own.changes Write.selfAgreeing_stereotype? _)
  have defaults := table_recordAll_twice unpromoted store write_defaults
    (own.changes Write.selfAgreeing_default? _)
  have parents := recordAll_twice_of_change unpromoted store (fun _ => rfl)
    (fun _ _ _ => List.foldl_append) (fun table => addParents_twice table _) parents_write
  have containers := recordAll_twice_of_change unpromoted store (fun _ => rfl)
    (fun _ _ _ => List.foldl_append) (fun dict => Dict.underlay_twice dict _) containers_write_eq
  have sourceOnly := recordAll_twice_of_change unpromoted store (fun _ => rfl) unionInOrder_append
    (fun items => unionInOrder_twice items _) sourceOnly_write
  rw [Store.mk.injEq]
  exact ⟨declaredAnnotations, annotations, declaredStereotypes, stereotypes, parents, containers,
    defaults, sourceOnly⟩

end Repeated

end Store

end AnnotationMetadata
