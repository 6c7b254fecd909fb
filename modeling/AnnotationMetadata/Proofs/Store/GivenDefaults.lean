import Mathlib.Data.List.Induction
import AnnotationMetadata.Proofs.Store.Repeated

set_option autoImplicit false

/-!
# Defaults that a trace gives

A trace gives defaults of annotations, several times of the same one perhaps. A store
takes in nothing else as defaults, and what it was given once it need not be given again.
-/

namespace AnnotationMetadata

/-- The annotation that a recording gives defaults for, with these. -/
def Recording.given : Recording → List (String × Members)
  | .write (.defaults name members) => [(name, members)]
  | _ => []

def Trace.given (trace : Trace) : List (String × Members) :=
  trace.flatMap Recording.given

theorem Trace.mem_given_iff {trace : Trace} {name : String} {members : Members} :
    (name, members) ∈ trace.given ↔ .write (.defaults name members) ∈ trace := by
  rw [given, List.mem_flatMap]
  constructor
  · rintro ⟨recording, recorded, gives⟩
    cases recording with
    | write write =>
      cases write with
      | defaults => cases List.mem_singleton.mp gives; exact recorded
      | direct => cases gives
      | stereotype => cases gives
      | occurrence => cases gives
      | stereotypeOccurrence => cases gives
    | warning => cases gives
    | read => cases gives
    | promoteScope => cases gives
    | unfinished => cases gives
  · intro recorded
    exact ⟨_, recorded, List.mem_singleton_self _⟩

namespace Store

theorem addTable_append (table first second : Dict Members) :
    addTable table (first ++ second) = addTable (addTable table first) second :=
  List.foldl_append

private theorem record_defaults (store : Store) (recording : Recording) :
    (store.record recording).defaults = addTable store.defaults recording.given := by
  cases recording with
  | write write =>
    cases write with
    | defaults => rfl
    | direct => exact write_defaults store _
    | stereotype => exact write_defaults store _
    | occurrence => exact write_defaults store _
    | stereotypeOccurrence => exact write_defaults store _
  | promoteScope => exact promoteDefaultScope_defaults store
  | warning => rfl
  | read => rfl
  | unfinished => rfl

theorem recordAll_defaults (store : Store) (trace : Trace) :
    (store.recordAll trace).defaults = addTable store.defaults trace.given := by
  induction trace generalizing store with
  | nil => rfl
  | cons recording rest ih =>
    rw [recordAll_cons, ih, record_defaults, ← addTable_append]
    rfl

/-! ## Tables of declared defaults -/

theorem get?_addMembers (table : Dict Members) (name : String) (members : Members)
    (other : String) :
    Dict.get? (addMembers table name members) other =
      if name = other then some (Dict.underlay ((Dict.get? table name).getD []) members)
      else Dict.get? table other := by
  rw [addMembers, Dict.alter, Dict.get?_insert]

/-- Where only declared defaults are given, it does not matter how often and in which order:
an annotation that they are given for has all of them. -/
theorem get?_addTable_declared {model : Model} {given : List (String × Members)}
    (declared : ∀ entry ∈ given, entry.2 = model.defaultsOf entry.1) (name : String) :
    Dict.get? (addTable [] given) name =
      if name ∈ given.map Prod.fst then some (Dict.underlay [] (model.defaultsOf name))
      else none := by
  induction given using List.reverseRecOn with
  | nil => rfl
  | append_singleton given entry ih =>
    have before := ih fun earlier member => declared earlier (List.mem_append_left _ member)
    have last : entry.2 = model.defaultsOf entry.1 :=
      declared entry (List.mem_append_right _ List.mem_cons_self)
    have step : addTable [] (given ++ [entry]) =
        addMembers (addTable [] given) entry.1 entry.2 := addTable_append [] given [entry]
    have listed : name ∈ (given ++ [entry]).map Prod.fst ↔
        name ∈ given.map Prod.fst ∨ entry.1 = name := by
      rw [List.map_append, List.mem_append]
      simp [eq_comm]
    rw [step, get?_addMembers]
    simp only [listed]
    by_cases named : entry.1 = name
    · subst named
      have reached : entry.1 ∈ given.map Prod.fst ∨ entry.1 = entry.1 := .inr rfl
      rw [if_pos rfl, if_pos reached, before, last]
      split
      · rw [Option.getD_some, Dict.underlay_twice]
      · rfl
    · rw [if_neg named, before]
      simp only [named, or_false]

/-! ## Defaults that are given again -/

private theorem write_defaults_of_holds {store : Store} {name : String} {members : Members}
    (held : Holds store.defaults name (Dict.keys members)) :
    store.write (.defaults name members) = store := by
  obtain ⟨present, found, listed⟩ := held
  have kept : addMembers store.defaults name members = store.defaults := by
    rw [addMembers, Dict.alter, found, Option.getD_some, Dict.underlay_of_listed listed]
    exact Dict.insert_of_get?_eq_some found
  rw [write, addDefaults, kept]

theorem write_defaults_recordAll {trace : Trace} {name : String} {members : Members}
    (given : .write (.defaults name members) ∈ trace) (store : Store) :
    (store.recordAll trace).write (.defaults name members) = store.recordAll trace := by
  refine write_defaults_of_holds ?_
  rw [recordAll_defaults]
  exact holds_addTable_of_mem _ (Trace.mem_given_iff.mpr given)

/-! ## Writes elsewhere -/

def withDefaults (store : Store) (defaults : Dict Members) : Store :=
  { store with defaults }

theorem trackRetention_withDefaults (store : Store) (defaults : Dict Members) (name : String)
    (retention : Retention) :
    (store.trackRetention name retention).withDefaults defaults =
      (store.withDefaults defaults).trackRetention name retention := by
  unfold trackRetention
  split <;> rfl

theorem indexStereotype_withDefaults (store : Store) (defaults : Dict Members)
    (parents : List String) (name : String) :
    (store.indexStereotype parents name).withDefaults defaults =
      (store.withDefaults defaults).indexStereotype parents name := by
  unfold indexStereotype
  split <;> rfl

theorem trackContainer_withDefaults (store : Store) (defaults : Dict Members)
    (container : String) (occurrence : Annotation) :
    (store.trackContainer container occurrence).withDefaults defaults =
      (store.withDefaults defaults).trackContainer container occurrence :=
  trackRetention_withDefaults _ defaults container occurrence.retention

/-- Any other write neither reads the defaults nor changes them. -/
theorem write_withDefaults (store : Store) (defaults : Dict Members) {write : Write}
    (elsewhere : write.key?.isSome = true) :
    (store.write write).withDefaults defaults = (store.withDefaults defaults).write write := by
  cases write with
  | direct => exact trackRetention_withDefaults _ defaults _ _
  | stereotype =>
    refine (trackRetention_withDefaults _ defaults _ _).trans ?_
    rw [indexStereotype_withDefaults]
    rfl
  | occurrence =>
    simp only [Store.write, addOccurrence, ← trackContainer_withDefaults]
    rfl
  | stereotypeOccurrence =>
    simp only [Store.write, addStereotypeOccurrence, ← trackContainer_withDefaults,
      ← indexStereotype_withDefaults]
    rfl
  | defaults => cases elsewhere

private theorem defaults_write_elsewhere (store : Store) {write : Write}
    (elsewhere : write.key?.isSome = true) : (store.write write).defaults = store.defaults := by
  rw [write_defaults]
  cases write with
  | defaults => cases elsewhere
  | _ => rfl

/-- It makes no difference whether defaults are given before or after another write. -/
theorem write_defaults_comm (store : Store) {write : Write} {key : String}
    (named : write.key? = some key) (name : String) (members : Members) :
    (store.write write).write (.defaults name members) =
      (store.write (.defaults name members)).write write := by
  have elsewhere := Option.isSome_of_eq_some named
  calc (store.write write).write (.defaults name members)
      = (store.write write).withDefaults (addMembers (store.write write).defaults name members) :=
        rfl
    _ = (store.withDefaults (addMembers store.defaults name members)).write write := by
        rw [defaults_write_elsewhere store elsewhere, write_withDefaults store _ elsewhere]
    _ = (store.write (.defaults name members)).write write := rfl

end Store

/-! ## Traces apart from their defaults -/

/-- The recording enters something in a table other than the defaults. -/
def Recording.enters : Recording → Bool
  | .write entry => entry.key?.isSome
  | .promoteScope => true
  | _ => false

private theorem Store.record_withDefaults (store : Store) (defaults : Dict Members)
    {recording : Recording} (unpromoted : recording ≠ .promoteScope) :
    (store.record recording).withDefaults defaults =
      if recording.enters then (store.withDefaults defaults).record recording
      else store.withDefaults defaults := by
  cases recording with
  | write write =>
    cases elsewhere : write.key?.isSome with
    | true =>
      rw [Recording.enters, elsewhere, if_pos rfl]
      exact write_withDefaults store defaults elsewhere
    | false =>
      rw [Recording.enters, elsewhere, if_neg Bool.false_ne_true]
      cases write with
      | defaults => rfl
      | _ => cases elsewhere
  | promoteScope => exact absurd rfl unpromoted
  | _ => rfl

/-- Apart from the defaults, a store is made by what enters its other tables. -/
theorem Store.withDefaults_recordAll (store : Store) (defaults : Dict Members) {trace : Trace}
    (unpromoted : .promoteScope ∉ trace) :
    (store.recordAll trace).withDefaults defaults =
      (store.withDefaults defaults).recordAll (trace.filter Recording.enters) := by
  induction trace generalizing store with
  | nil => rfl
  | cons recording rest ih =>
    obtain ⟨first, later⟩ := not_or.mp (mt List.mem_cons.mpr unpromoted)
    rw [recordAll_cons, ih _ later, record_withDefaults store defaults (Ne.symm first),
      List.filter_cons]
    split <;> rfl

end AnnotationMetadata
