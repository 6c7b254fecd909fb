import AnnotationMetadata.Proofs.Store.Members
import AnnotationMetadata.Proofs.Store.Recorded

set_option autoImplicit false

/-!
# Defaults in a store

Where a trace gives only defaults that are declared, a store answers with them for the
annotations that the trace gives them for, and with nothing for all others.
-/

namespace AnnotationMetadata

/-- All defaults that the trace gives are the declared ones. -/
def Trace.GivesDeclared (model : Model) (trace : Trace) : Prop :=
  ∀ name members, Recording.write (.defaults name members) ∈ trace →
    members = model.defaultsOf name

namespace Store

/-- How a write changes the defaults. -/
def Write.default? : Write → Option (Bool × TableChange)
  | .defaults name members => some (false, name, members.map fun entry => (entry.1, .keep entry.2))
  | _ => none

theorem write_defaults (store : Store) (write : Write) :
    (store.write write).defaults =
      changeTable store.defaults (changesOf false write.default?) := by
  have contained := trackContainer_keeps defaults (fun _ _ => rfl) (fun _ _ => rfl)
  cases write with
  | direct => exact trackRetention_keeps defaults (fun _ _ => rfl) _ _ _
  | stereotype =>
    exact (trackRetention_keeps defaults (fun _ _ => rfl) _ _ _).trans
      (indexStereotype_keeps defaults (fun _ _ => rfl) _ _ _)
  | occurrence => exact contained _ _ _
  | stereotypeOccurrence =>
    exact (indexStereotype_keeps defaults (fun _ _ => rfl) _ _ _).trans (contained _ _ _)
  | defaults name members => exact addMembers_eq store.defaults name members

theorem Write.selfAgreeing_default? (write : Write) (_ : write.SelfAgreeing) (declared : Bool)
    (entry : TableChange) (changes : write.default? = some (declared, entry)) :
    ∀ change ∈ entry.2, change.2.SelfAgreeing := by
  intro change listed
  cases write with
  | defaults =>
    cases changes
    obtain ⟨_, _, rfl⟩ := List.mem_map.mp listed
    trivial
  | _ => cases changes

theorem promoteDefaultScope_defaults (store : Store) :
    store.promoteDefaultScope.defaults = store.defaults := by
  rcases promoteDefaultScope_eq store with same | ⟨scope, same⟩
  · rw [same]
  · rw [same]
    exact write_defaults store _

/-- The default that a recording gives for a member. -/
def offeredDefault? (name member : String) : Recording → Option Value
  | .write (.defaults other members) => if other = name then Dict.get? members member else none
  | _ => none

private theorem changedMember_offeredDefault (name member : String) (recording : Recording)
    (found : Option Value) :
    changedMember (memberChanges name member (recording.changes false Write.default?)) found =
      found.or (offeredDefault? name member recording) := by
  have unchanged : changedMember (memberChanges name member []) found = found.or none := by
    rw [Option.or_none]
    rfl
  cases recording with
  | write write =>
    cases write with
    | defaults other members =>
      rw [memberChanges_write rfl]
      simp only [offeredDefault?]
      split
      · exact changedMember_keepMembers members member found
      · rw [Option.or_none]
        rfl
    | direct => exact unchanged
    | stereotype => exact unchanged
    | occurrence => exact unchanged
    | stereotypeOccurrence => exact unchanged
  | warning => exact unchanged
  | read => exact unchanged
  | promoteScope => exact unchanged
  | unfinished => exact unchanged

/-- The first default that a trace gives for a member is the one that is recorded. -/
theorem defaultValue?_recordAll {trace : Trace} (unpromoted : Recording.promoteScope ∉ trace)
    (name member : String) :
    (Store.empty.recordAll trace).defaultValue? name member =
      trace.findSome? (offeredDefault? name member) := by
  have reached := memberOf?_recordAll write_defaults unpromoted .empty name member
  rw [changedMember_flatMap_keep fun recording _ =>
    changedMember_offeredDefault name member recording] at reached
  exact reached

theorem exists_of_defaultValue?_recordAll {model : Model} {trace : Trace}
    (unpromoted : Recording.promoteScope ∉ trace) (declared : trace.GivesDeclared model)
    {name member : String} {value : Value}
    (found : (Store.empty.recordAll trace).defaultValue? name member = some value) :
    (∃ members, .write (.defaults name members) ∈ trace) ∧
      Dict.get? (model.defaultsOf name) member = some value := by
  rw [defaultValue?_recordAll unpromoted] at found
  obtain ⟨recording, recorded, offered⟩ := List.exists_of_findSome?_eq_some found
  unfold offeredDefault? at offered
  split at offered
  · next other members =>
    split at offered
    · next named =>
      subst named
      refine ⟨⟨members, recorded⟩, ?_⟩
      rw [← declared other members recorded]
      exact offered
    · cases offered
  · cases offered

theorem defaultValue?_recordAll_of_mem {model : Model} {trace : Trace}
    (unpromoted : Recording.promoteScope ∉ trace) (declared : trace.GivesDeclared model)
    {name : String} {members : Members} (given : .write (.defaults name members) ∈ trace)
    (member : String) :
    (Store.empty.recordAll trace).defaultValue? name member =
      Dict.get? (model.defaultsOf name) member := by
  cases offered : Dict.get? (model.defaultsOf name) member with
  | none =>
    refine Option.eq_none_iff_forall_ne_some.mpr fun value found => ?_
    have declares := (exists_of_defaultValue?_recordAll unpromoted declared found).2
    cases offered.symm.trans declares
  | some value =>
    -- Other recordings may have given defaults before this one, but only the declared ones.
    have offers : offeredDefault? name member (.write (.defaults name members)) = some value := by
      rw [offeredDefault?, if_pos rfl, declared name members given]
      exact offered
    obtain ⟨other, found⟩ := Option.isSome_iff_exists.mp
      (List.findSome?_isSome_iff.mpr ⟨_, given, Option.isSome_iff_exists.mpr ⟨value, offers⟩⟩)
    rw [← defaultValue?_recordAll unpromoted] at found
    have declares := (exists_of_defaultValue?_recordAll unpromoted declared found).2
    rw [found, ← offered, declares]

end Store

end AnnotationMetadata
