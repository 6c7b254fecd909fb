import AnnotationMetadata.Proofs.Session.Outcome
import AnnotationMetadata.Proofs.Session.RegisteredDefaults

set_option autoImplicit false

/-!
# Sessions without a validator

Without a validator, and as long as nothing is registered, builds of one session do not see
each other. Each gives what it gives in a new session, and the warnings of all of them line up.
-/

namespace AnnotationMetadata

/-- The diagnostic that a session adds for a recording. -/
def Recording.diagnostic? : Recording → Option Diagnostic
  | .warning element message => some ⟨.warning, element.label, message⟩
  | _ => none

theorem Recording.isError_eq_false {recording : Recording} {diagnostic : Diagnostic}
    (noted : recording.diagnostic? = some diagnostic) : diagnostic.isError = false := by
  cases recording with
  | warning => cases noted; rfl
  | write => cases noted
  | read => cases noted
  | promoteScope => cases noted
  | unfinished => cases noted

namespace Session

private theorem foldl_note_diagnostics (session : Session) (trace : Trace) :
    (trace.foldl note session).diagnostics =
      session.diagnostics ++ trace.filterMap Recording.diagnostic? := by
  induction trace generalizing session with
  | nil => simp
  | cons recording rest ih =>
    rw [List.foldl_cons, ih]
    cases recording with
    | write write => cases write <;> rfl
    | warning => simp [note, addWarning, addDiagnostic, Recording.diagnostic?]
    | read => rfl
    | promoteScope => rfl
    | unfinished => rfl

/-! ## Concluding a walk -/

theorem conclude_snd (session : Session) (element : Element) (seed : Store) (walk : ElementWalk) :
    (session.conclude element seed walk).2 =
      { session with cutOff := false }.observeAll walk.trace := by
  unfold conclude
  dsimp only
  split
  · rfl
  · split <;> rfl

theorem readsEnd_of_unvalidated {session : Session} (unvalidated : session.validator = none)
    (trace : Trace) : session.ReadsEnd trace := by
  intro validated
  rw [unvalidated] at validated
  cases validated

theorem cutOff_of_unvalidated {session : Session} (unvalidated : session.validator = none)
    (trace : Trace) :
    ({ session with cutOff := false }.observeAll trace).cutOff = true ↔
      Recording.unfinished ∈ trace := by
  have reads : ReadsEnd { session with cutOff := false } trace :=
    readsEnd_of_unvalidated unvalidated trace
  rw [observeAll_cutOff reads]
  exact or_iff_right Bool.false_ne_true

/-- A walk that is not cut off is answered with how it went, any other with an error. -/
theorem conclude_fst_of_unvalidated {session other : Session}
    (unvalidated : session.validator = none) (unvalidatedThere : other.validator = none)
    (element : Element) (seed : Store) (walk : ElementWalk) :
    (session.conclude element seed walk).1 = (other.conclude element seed walk).1 := by
  have cut : ({ session with cutOff := false }.observeAll walk.trace).cutOff =
      ({ other with cutOff := false }.observeAll walk.trace).cutOff :=
    Bool.eq_iff_iff.mpr ((cutOff_of_unvalidated unvalidated _).trans
      (cutOff_of_unvalidated unvalidatedThere _).symm)
  simp only [conclude, cut]
  split
  · rfl
  · split <;> rfl

theorem conclude_diagnostics {session : Session} (unvalidated : session.validator = none)
    (element : Element) (seed : Store) (walk : ElementWalk) :
    (session.conclude element seed walk).2.diagnostics =
      session.diagnostics ++ walk.trace.filterMap Recording.diagnostic? := by
  have uncut : ({ session with cutOff := false } : Session).validator = none := unvalidated
  rw [conclude_snd, observeAll_of_unvalidated uncut, foldl_note_diagnostics]

end Session

/-! ## Builds that hold nothing -/

section Nothing

variable {context : Context} {target : Element}

private theorem Walk.mem_elements_of_bare {aliases : Bool} {hierarchy : List Element}
    (bare : ∀ current ∈ hierarchy, recordedOn context current = []) {recording : Recording}
    (recorded : recording ∈ (elements context target aliases hierarchy).trace) :
    recording = .promoteScope := by
  rcases mem_elements_trace recorded with promoted | ⟨current, listed, walked⟩
  · exact promoted
  · have none := bare current (context.model.untilBroken_subset _ listed)
    unfold recordedOn at none
    simp only [elementTrace, occurrences, none] at walked
    cases walked

private theorem Store.recordAll_of_promotions {trace : Trace}
    (only : ∀ recording ∈ trace, recording = .promoteScope) :
    Store.empty.recordAll trace = .empty := by
  induction trace with
  | nil => rfl
  | cons recording rest ih =>
    rw [only recording List.mem_cons_self]
    exact ih fun later member => only later (List.mem_cons_of_mem _ member)

variable {session : Session} {kind : ElementBuild} {listed : List Element}

/-- When an element of the hierarchy breaks off, there is no metadata, unless the walk was cut
off before. -/
theorem ElementBuild.conclude_of_aborted
    (found : kind.hierarchy session.model target = .ok listed)
    (breaks : ∃ current ∈ listed, (session.model.abort? current).isSome)
    (ends : ∀ cut, (session.conclude target .empty (kind.walk session.context target)).1 ≠
      .error (.unfinished cut)) :
    (session.conclude target .empty (kind.walk session.context target)).1 = .ok .empty := by
  have failure := failure_walk found
  obtain ⟨reason, broken⟩ : ∃ reason,
      listed.reverse.findSome? session.context.model.abort? = some reason := by
    obtain ⟨current, among, aborts⟩ := breaks
    refine Option.isSome_iff_exists.mp (List.findSome?_isSome_iff.mpr ⟨current, ?_, aborts⟩)
    exact List.mem_reverse.mpr among
  rw [broken] at failure
  simp only [Session.conclude, failure, Option.map_some] at ends ⊢
  split at ends
  · exact absurd rfl (ends _)
  · next uncut => rw [if_neg uncut]

/-- When nothing on the hierarchy is recorded, there is no metadata. -/
theorem ElementBuild.conclude_of_bare (unvalidated : session.validator = none)
    (found : kind.hierarchy session.model target = .ok listed)
    (bare : ∀ current ∈ listed, Walk.recordedOn session.context current = []) :
    (session.conclude target .empty (kind.walk session.context target)).1 = .ok .empty := by
  have only : ∀ recording ∈ (kind.walk session.context target).trace,
      recording = .promoteScope := by
    rw [walk_eq_elements found]
    exact fun _ =>
      Walk.mem_elements_of_bare fun current among => bare current (List.mem_reverse.mp among)
  have finished : Recording.unfinished ∉ (kind.walk session.context target).trace :=
    fun recorded => nomatch only _ recorded
  rw [Session.conclude_of_finished (Session.readsEnd_of_unvalidated unvalidated _) finished,
    failure_walk found, Store.recordAll_of_promotions only]
  cases listed.reverse.findSome? session.context.model.abort? <;> rfl

end Nothing

end AnnotationMetadata
