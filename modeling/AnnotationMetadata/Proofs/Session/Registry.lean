import AnnotationMetadata.Proofs.Session.History
import AnnotationMetadata.Proofs.Walk.Registry

set_option autoImplicit false

/-!
# Sessions under another registry

A session answers a request as under any registry that treats what the model and the
request name alike, and goes on as under it.
-/

namespace AnnotationMetadata

/-- The annotations that come with a request. -/
def Request.given : Request → List Annotation
  | .buildGiven _ annotations _ => annotations
  | _ => []

namespace Session

def withRegistry (session : Session) (registry : Registry) : Session :=
  { session with context := session.context.withRegistry registry }

variable {session : Session} {given : List Annotation} {other : Registry}

/-! ## Taking in traces -/

theorem foldl_withRegistry {α : Type} {step : Session → α → Session}
    (same : ∀ session item,
      step (session.withRegistry other) item = (step session item).withRegistry other)
    (items : List α) (session : Session) :
    items.foldl step (session.withRegistry other) =
      (items.foldl step session).withRegistry other := by
  induction items generalizing session with
  | nil => rfl
  | cons item rest ih => rw [List.foldl_cons, List.foldl_cons, same, ih]

theorem note_withRegistry (session : Session) (recording : Recording) :
    (session.withRegistry other).note recording = (session.note recording).withRegistry other := by
  cases recording with
  | write write => cases write <;> rfl
  | warning => rfl
  | read => rfl
  | promoteScope => rfl
  | unfinished => rfl

private theorem reportViolations_withRegistry (session : Session) (read : ReadValue)
    (violations : List String) :
    (session.withRegistry other).reportViolations read violations =
      (session.reportViolations read violations).withRegistry other := by
  unfold reportViolations
  split
  · rfl
  · exact foldl_withRegistry (fun _ _ => rfl) violations
      { session with erroneous := read.element :: session.erroneous }

section Alike

variable (alike : session.context.TreatsAlike given other)

include alike

private theorem validate_of_treatsAlike (validator : Validator) (read : ReadValue) :
    (session.withRegistry other).validate validator read =
      (session.validate validator read).withRegistry other := by
  have walked : Walk.annotationMember (session.withRegistry other).context read.annotation
      read.member = Walk.annotationMember session.context read.annotation read.member :=
    Walk.annotationMember_withRegistry alike read.annotation read.member
  unfold validate
  dsimp only
  rw [walked, foldl_withRegistry note_withRegistry]
  generalize Walk.annotationMember session.context read.annotation read.member = trace
  generalize trace.foldl note session = noted
  exact reportViolations_withRegistry
    { noted with
      calls := noted.calls ++
        [⟨read.element, Metadata.ofStore (Store.empty.recordAll trace), read.value⟩] }
    read _

private theorem observe_of_treatsAlike (recording : Recording) :
    (session.withRegistry other).observe recording =
      (session.observe recording).withRegistry other := by
  cases recording with
  | read read =>
    have validated : (session.withRegistry other).isValidated read = session.isValidated read := rfl
    have validator : (session.withRegistry other).validator = session.validator := rfl
    simp only [observe, validated, validator, validate_of_treatsAlike alike]
    split
    · split <;> rfl
    · rfl
  | write write => exact note_withRegistry session (.write write)
  | warning element message => rfl
  | promoteScope => rfl
  | unfinished => rfl

theorem observeAll_of_treatsAlike (trace : Trace) :
    (session.withRegistry other).observeAll trace =
      (session.observeAll trace).withRegistry other := by
  induction trace generalizing session with
  | nil => rfl
  | cons recording rest ih =>
    -- Taking in a recording leaves the context alone, so the registry fits the next session.
    have context := (observe_sameSetting session recording).context
    have alikeNext : (session.observe recording).context.TreatsAlike given other := context ▸ alike
    have step := ih alikeNext
    simp only [observeAll, List.foldl_cons] at step ⊢
    rw [observe_of_treatsAlike alike, step]

/-! ## Builds -/

theorem conclude_of_treatsAlike (element : Element) (seed : Store) (walk : ElementWalk) :
    (session.withRegistry other).conclude element seed walk =
      ((session.conclude element seed walk).1,
        (session.conclude element seed walk).2.withRegistry other) := by
  have uncut : ({ session with cutOff := false } : Session).context.TreatsAlike given other := alike
  have observed : ({ session.withRegistry other with cutOff := false } : Session).observeAll
      walk.trace =
        (({ session with cutOff := false } : Session).observeAll walk.trace).withRegistry other :=
    observeAll_of_treatsAlike uncut walk.trace
  unfold conclude
  dsimp only at observed ⊢
  rw [observed]
  generalize Session.observeAll _ walk.trace = after
  have cutOff : (after.withRegistry other).cutOff = after.cutOff := rfl
  rw [cutOff]
  split
  · rfl
  · split <;> rfl

theorem buildFresh_of_treatsAlike (parent : Option Element) (element : Element) (seed : Store)
    {options : BuildOptions} (aliases : options.aliases = true) :
    (session.withRegistry other).buildFresh parent element seed options =
      ((session.buildFresh parent element seed options).1,
        (session.buildFresh parent element seed options).2.withRegistry other) := by
  have walked : Walk.element (session.withRegistry other).context parent element options =
      Walk.element session.context parent element options :=
    Walk.element_withRegistry alike parent element aliases
  simp only [buildFresh, walked]
  exact conclude_of_treatsAlike alike element seed _

theorem buildUnlessMutated_of_treatsAlike (declaringType : String) (element : Element)
    {options : BuildOptions} (aliases : options.aliases = true) :
    (session.withRegistry other).buildUnlessMutated declaringType element options =
      ((session.buildUnlessMutated declaringType element options).1,
        (session.buildUnlessMutated declaringType element options).2.withRegistry other) := by
  have registered : (session.withRegistry other).mutation? declaringType element =
      session.mutation? declaringType element := rfl
  unfold buildUnlessMutated
  rw [registered]
  cases session.mutation? declaringType element with
  | some metadata => rfl
  | none => exact buildFresh_of_treatsAlike alike none element .empty aliases

theorem givenWalk_of_treatsAlike (element : Element) (includeElement : Bool) :
    givenWalk (session.withRegistry other).context element given includeElement =
      givenWalk session.context element given includeElement := by
  have walked : Walk.element (session.withRegistry other).context none element
      { declaredOnly := true, aliases := true } =
        Walk.element session.context none element { declaredOnly := true, aliases := true } :=
    Walk.element_withRegistry alike none element rfl
  have listed : Walk.given (session.withRegistry other).context element given =
      Walk.given session.context element given :=
    Walk.given_withRegistry alike element
  simp only [givenWalk, walked, listed]

theorem annotate_of_treatsAlike (metadata : Metadata) (occurrence : Annotation) :
    (session.withRegistry other).annotate metadata occurrence =
      ((session.annotate metadata occurrence).1,
        (session.annotate metadata occurrence).2.withRegistry other) := by
  have walked : Walk.added (session.withRegistry other).context occurrence =
      Walk.added session.context occurrence :=
    Walk.added_withRegistry alike occurrence
  have uncut : ({ session with cutOff := false } : Session).context.TreatsAlike _ other := alike
  have observed : ({ session.withRegistry other with cutOff := false } : Session).observeAll
      (Walk.added session.context occurrence) =
        (({ session with cutOff := false } : Session).observeAll
          (Walk.added session.context occurrence)).withRegistry other :=
    observeAll_of_treatsAlike uncut _
  unfold annotate
  dsimp only at observed ⊢
  rw [walked, observed]
  generalize Session.observeAll _ (Walk.added session.context occurrence) = after
  have cutOff : (after.withRegistry other).cutOff = after.cutOff := rfl
  rw [cutOff]
  split <;> rfl

end Alike

/-! ## Requests -/

/-- A session answers a request alike under registries that treat what the model and the
request name alike, and goes on alike. -/
theorem serve_withRegistry {session : Session} {request : Request}
    (alike : session.context.TreatsAlike request.given other) :
    (session.withRegistry other).serve request =
      ((session.serve request).1, (session.serve request).2.withRegistry other) := by
  have answered : ∀ {built there : Built}, there = (built.1, built.2.withRegistry other) →
      answered there = ((answered built).1, (answered built).2.withRegistry other) := by
    rintro built _ rfl
    rfl
  cases request with
  | build element => exact answered (buildUnlessMutated_of_treatsAlike alike _ element rfl)
  | buildWithDeclaringType declaringType element =>
    exact answered (buildUnlessMutated_of_treatsAlike alike declaringType element rfl)
  | buildDeclared element =>
    exact answered (buildFresh_of_treatsAlike alike none element .empty rfl)
  | buildOverridden element =>
    exact answered (buildUnlessMutated_of_treatsAlike alike _ element rfl)
  | buildForMethod element => exact answered (buildUnlessMutated_of_treatsAlike alike _ element rfl)
  | buildGiven element annotations includeElement =>
    refine answered ?_
    unfold buildGiven
    split
    · rfl
    · have walked := givenWalk_of_treatsAlike alike element includeElement
      simp only [Request.given] at walked
      rw [walked]
      exact conclude_of_treatsAlike alike element .empty _
  | buildForParent parent element =>
    exact answered (buildFresh_of_treatsAlike alike (some parent) element _ rfl)
  | buildForParentWithDeclaringType declaringType parent element =>
    exact answered (buildFresh_of_treatsAlike alike (some parent) element _ rfl)
  | buildForParentInheriting parent element inheritTypes =>
    exact answered (buildFresh_of_treatsAlike alike (some parent) element _ rfl)
  | annotate metadata occurrence =>
    exact answered (annotate_of_treatsAlike alike metadata occurrence)
  | addMutation declaringType element metadata => rfl
  | clearMutations => rfl

end Session

/-! ## Runs -/

namespace SharedSession

def withRegistry (shared : SharedSession) (registry : Registry) : SharedSession :=
  { shared with session := shared.session.withRegistry registry }

variable {shared : SharedSession} {other : Registry}

theorem serve_withRegistry (builder : Nat) {request : Request}
    (alike : shared.session.context.TreatsAlike request.given other) :
    (shared.withRegistry other).serve builder request =
      ((shared.serve builder request).1, (shared.serve builder request).2.withRegistry other) := by
  have alikeSeen : (shared.seenBy builder).context.TreatsAlike request.given other := alike
  have served := Session.serve_withRegistry alikeSeen
  have seen : (shared.withRegistry other).seenBy builder =
      (shared.seenBy builder).withRegistry other := rfl
  simp only [serve, seen, served]
  rfl

theorem serveAll_withRegistry {run : List (Nat × Request)}
    (alike : ∀ call ∈ run, shared.session.context.TreatsAlike call.2.given other) :
    (shared.withRegistry other).serveAll run = (shared.serveAll run).withRegistry other := by
  induction run generalizing shared with
  | nil => rfl
  | cons call rest ih =>
    have alikeNext : ∀ later ∈ rest,
        (shared.serve call.1 call.2).2.session.context.TreatsAlike later.2.given other :=
      fun later listed =>
        shared.serve_context call.1 call.2 ▸ alike later (List.mem_cons_of_mem _ listed)
    have step := ih alikeNext
    simp only [serveAll, List.foldl_cons] at step ⊢
    rw [serve_withRegistry call.1 (alike call List.mem_cons_self), step]

end SharedSession

end AnnotationMetadata
