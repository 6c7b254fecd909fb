import AnnotationMetadata.Proofs.Session.Termination
import AnnotationMetadata.Proofs.Walk.Budget

set_option autoImplicit false

/-!
# Requests do not depend on earlier ones

Of all that a run leaves behind in a session, only registered metadata flows back
into answers, and only where it is registered. Defaults, diagnostics, validator
calls and reported members are written but never read by a walk.
-/

namespace AnnotationMetadata

/-! ## What is registered after a run -/

/-- The metadata that was registered last for an element under a declaring type
since registrations were last cleared. -/
def lastRegistered (run : List (Nat × Request)) (declaringType : String) (element : Element) :
    Option Metadata :=
  (run.reverse.takeWhile fun call => !call.2.clears).findSome? fun call =>
    call.2.registers? declaringType element

private theorem lastRegistered_concat (run : List (Nat × Request)) (call : Nat × Request)
    (declaringType : String) (element : Element) :
    lastRegistered (run ++ [call]) declaringType element =
      if call.2.clears then none
      else (call.2.registers? declaringType element).or
        (lastRegistered run declaringType element) := by
  unfold lastRegistered
  rw [List.reverse_concat, List.takeWhile_cons]
  cases clears : call.2.clears with
  | true => rfl
  | false =>
    rw [Bool.not_false, if_pos rfl, List.findSome?_cons]
    cases call.2.registers? declaringType element <;> rfl

theorem lastRegistered_eq_none {run : List (Nat × Request)}
    (keeps : ∀ call ∈ run, call.2.KeepsMutations) (declaringType : String) (element : Element) :
    lastRegistered run declaringType element = none := by
  refine List.findSome?_eq_none_iff.mpr fun call taken => ?_
  have served : call ∈ run :=
    List.mem_reverse.mp ((List.takeWhile_sublist _).subset taken)
  exact (keeps call served).registers? declaringType element

namespace Session

/-- Taking in a trace, for a build that was not cut off yet, keeps the setting. -/
theorem observeAll_uncut_sameSetting (session : Session) (trace : Trace) :
    ({ session with cutOff := false }.observeAll trace).SameSetting session := by
  have observed := observeAll_sameSetting { session with cutOff := false } trace
  exact ⟨observed.context, observed.validator, observed.mutations⟩

/-- What a request leaves behind of the things that answers depend on. -/
structure Leaves (session after : Session) (request : Request) : Prop where
  context : after.context = session.context
  mutation? : ∀ declaringType element, after.mutation? declaringType element =
    if request.clears then none
    else (request.registers? declaringType element).or (session.mutation? declaringType element)

/-- A request that keeps the setting leaves all registrations as they are. -/
theorem SameSetting.leaves {session after : Session} {request : Request}
    (same : after.SameSetting session) (keeps : request.KeepsMutations) :
    session.Leaves after request := by
  refine ⟨same.context, ?_⟩
  intro declaringType element
  simp only [keeps.clears, keeps.registers?, Bool.false_eq_true, if_false, Option.none_or,
    Session.mutation?, same.mutations]

theorem serve_leaves (session : Session) (request : Request) :
    session.Leaves (session.serve request).2 request := by
  have served := serve_served session request
  generalize session.serve request = result at served ⊢
  cases served with
  | known keeps => exact (SameSetting.refl session).leaves keeps
  | observed keeps => exact (observeAll_uncut_sameSetting session _).leaves keeps
  | @registered type target metadata asked =>
    subst asked
    refine ⟨rfl, ?_⟩
    intro declaringType element
    simp only [addMutation, Session.mutation?, Mutations.get?_add, Request.clears,
      Request.registers?, MutationKey.mk.injEq, Bool.false_eq_true, if_false]
    split <;> rfl
  | cleared asked =>
    subst asked
    exact ⟨rfl, fun _ _ => rfl⟩

private theorem serve_validator (session : Session) (request : Request) :
    (session.serve request).2.validator = session.validator := by
  have served := serve_served session request
  generalize session.serve request = result at served ⊢
  cases served with
  | known => rfl
  | observed => exact (observeAll_uncut_sameSetting session _).validator
  | registered => rfl
  | cleared => rfl

/-! ## Answers -/

theorem observeAll_cutOff_congr {session other : Session} (same : session.context = other.context)
    (ends : ValidationEnds other.context) (trace : Trace) :
    ({ session with cutOff := false }.observeAll trace).cutOff =
      ({ other with cutOff := false }.observeAll trace).cutOff := by
  have reads : ({ session with cutOff := false } : Session).ReadsEnd trace :=
    ValidationEnds.reads (same ▸ ends) trace
  have readsThere : ({ other with cutOff := false } : Session).ReadsEnd trace := ends.reads trace
  exact Bool.eq_iff_iff.mpr
    ((observeAll_cutOff reads).trans (observeAll_cutOff readsThere).symm)

/-- A walk is answered alike in every session of a context, with or without a
validator. -/
private theorem conclude_fst_congr {session other : Session}
    (same : session.context = other.context)
    (ends : ValidationEnds other.context) (element : Element) (seed : Store)
    (walk : ElementWalk) :
    (session.conclude element seed walk).1 = (other.conclude element seed walk).1 := by
  simp only [conclude, observeAll_cutOff_congr same ends]
  split
  · rfl
  · split <;> rfl

theorem buildFresh_fst_congr {session other : Session} (same : session.context = other.context)
    (ends : ValidationEnds other.context) (parent : Option Element) (element : Element)
    (seed : Store) (options : BuildOptions) :
    (session.buildFresh parent element seed options).1 =
      (other.buildFresh parent element seed options).1 := by
  simp only [buildFresh, same]
  exact conclude_fst_congr same ends element seed _

theorem annotate_fst (session : Session) (metadata : Metadata) (occurrence : Annotation) :
    (session.annotate metadata occurrence).1 =
      if ({ session with cutOff := false }.observeAll
          (Walk.added session.context occurrence)).cutOff then
        .error (.unfinished occurrence.name)
      else .ok (metadata.declaring (Walk.added session.context occurrence)) := by
  unfold annotate
  dsimp only
  split <;> rfl

private theorem annotate_fst_congr {session other : Session}
    (same : session.context = other.context)
    (ends : ValidationEnds other.context) (metadata : Metadata) (occurrence : Annotation) :
    (session.annotate metadata occurrence).1 = (other.annotate metadata occurrence).1 := by
  rw [annotate_fst, annotate_fst, observeAll_cutOff_congr same ends, same]

end Session

namespace SharedSession

/-- A session that nothing was asked of yet. -/
def fresh (context : Context) (validator : Option Validator) : SharedSession :=
  { session := .fresh context validator }

theorem serveAll_concat (shared : SharedSession) (run : List (Nat × Request))
    (call : Nat × Request) :
    shared.serveAll (run ++ [call]) = ((shared.serveAll run).serve call.1 call.2).2 :=
  List.foldl_concat ..

theorem serve_context (shared : SharedSession) (builder : Nat) (request : Request) :
    (shared.serve builder request).2.session.context = shared.session.context :=
  (Session.serve_leaves (shared.seenBy builder) request).context

theorem serveAll_context (shared : SharedSession) (run : List (Nat × Request)) :
    (shared.serveAll run).session.context = shared.session.context := by
  induction run generalizing shared with
  | nil => rfl
  | cons call rest ih =>
    exact (ih (shared.serve call.1 call.2).2).trans (shared.serve_context call.1 call.2)

/-- After any run the session has its context, and the registrations of the run. -/
theorem serveAll_leaves (context : Context) (validator : Option Validator)
    (run : List (Nat × Request)) :
    ((fresh context validator).serveAll run).session.context = context ∧
      ∀ declaringType element,
        ((fresh context validator).serveAll run).session.mutation? declaringType element =
          lastRegistered run declaringType element := by
  induction run using List.reverseRecOn with
  | nil => exact ⟨rfl, fun _ _ => rfl⟩
  | append_singleton run call ih =>
    have step := serveAll_concat (fresh context validator) run call
    have left := Session.serve_leaves
      (((fresh context validator).serveAll run).seenBy call.1) call.2
    refine ⟨step ▸ left.context.trans ih.1, ?_⟩
    intro declaringType element
    rw [step, lastRegistered_concat, ← ih.2]
    exact left.mutation? declaringType element

theorem serveAll_validator (context : Context) (validator : Option Validator)
    (run : List (Nat × Request)) :
    ((fresh context validator).serveAll run).session.validator = validator := by
  induction run using List.reverseRecOn with
  | nil => rfl
  | append_singleton run call ih =>
    rw [serveAll_concat]
    exact (Session.serve_validator _ call.2).trans ih

end SharedSession

open Session in
/-- Whatever was asked of any builders of a session, an element is built as it is
registered under its declaring type, or else as in a session that nothing was
asked of and that has no validator. What an element declares, and what annotating
makes of given metadata, do not depend on the run at all. -/
theorem answers_after_run {context : Context}
    (ends : ∀ owner member, Walk.Plan.Ends context (Walk.memberOccurrences context owner member))
    (validator : Option Validator) (run : List (Nat × Request)) (builder : Nat) :
    (∀ declaringType element,
      (((SharedSession.fresh context validator).serveAll run).serve builder
          (.buildWithDeclaringType declaringType element)).1 =
        match lastRegistered run declaringType element with
        | some metadata => some (.ok metadata)
        | none => ((fresh context).serve (.buildWithDeclaringType declaringType element)).1) ∧
    (∀ element,
      (((SharedSession.fresh context validator).serveAll run).serve builder
          (.buildDeclared element)).1 =
        ((fresh context).serve (.buildDeclared element)).1) ∧
    ∀ metadata occurrence,
      (((SharedSession.fresh context validator).serveAll run).serve builder
          (.annotate metadata occurrence)).1 =
        ((fresh context).serve (.annotate metadata occurrence)).1 := by
  have validation : ValidationEnds context :=
    fun owner member => Walk.annotationMember_finished (ends owner member)
  obtain ⟨same, registered⟩ := SharedSession.serveAll_leaves context validator run
  generalize (SharedSession.fresh context validator).serveAll run = shared at same registered ⊢
  have seen : (shared.seenBy builder).context = (fresh context).context := same
  refine ⟨?_, ?_, ?_⟩
  · intro declaringType element
    have mutation : (shared.seenBy builder).mutation? declaringType element =
        lastRegistered run declaringType element := registered declaringType element
    simp only [SharedSession.serve, serve, answered, buildWithDeclaringType, buildUnlessMutated,
      mutation]
    cases lastRegistered run declaringType element with
    | some metadata => rfl
    | none =>
      exact congrArg some
        (buildFresh_fst_congr seen validation none element .empty
          { inheritTypes := true, aliases := true })
  · intro element
    exact congrArg some (buildFresh_fst_congr seen validation none element .empty _)
  · intro metadata occurrence
    exact congrArg some (annotate_fst_congr seen validation metadata occurrence)

/-- An annotation with a constrained member, which an extension puts in the place
of another annotation. -/
def limitContext : Context where
  model :=
    { document :=
        { annotations :=
            [("limit.Limit",
                { members := [("max", { annotations := [{ name := "limit.Positive" }] })] }),
              ("limit.Positive", { annotations := [{ name := Name.constraint }] })]
          elements :=
            [("limit.Service",
                { kind := .classType
                  annotations := [{ name := "limit.Bound", members := [("max", .long 0)] }] })] } }
  registry := Registry.empty.register (.rename "limit.Bound" "limit.Limit")

theorem limitContext_validation_ends (owner member : String) :
    Walk.Plan.Ends limitContext (Walk.memberOccurrences limitContext owner member) := by
  by_cases limited : owner = "limit.Limit" ∧ member = "max"
  · obtain ⟨rfl, rfl⟩ := limited
    exact Walk.Plan.ends_of_uncut 3 (by decide)
  · have bare : limitContext.model.occurrencesOn (.member owner member) = [] := by
      have undeclared : limitContext.model.memberDeclaration? owner member = none := by
        by_cases limit : "limit.Limit" = owner
        · have other : ¬ "max" = member := fun same => limited ⟨limit.symm, same.symm⟩
          simp [limitContext, Model.memberDeclaration?, Model.annotationType?, Dict.get?, limit,
            other]
        · by_cases positive : "limit.Positive" = owner
          · simp [limitContext, Model.memberDeclaration?, Model.annotationType?, Dict.get?, limit,
              positive]
          · simp [limitContext, Model.memberDeclaration?, Model.annotationType?, Dict.get?, limit,
              positive]
      simp [Model.occurrencesOn, Model.writtenOn, undeclared]
    refine ⟨0, ?_⟩
    rw [Walk.memberOccurrences, bare]
    exact List.not_mem_nil

theorem limitContext_answer_after_run :
    (∀ owner member,
      Walk.Plan.Ends limitContext (Walk.memberOccurrences limitContext owner member)) ∧
    ∀ validator metadata builder,
      (((SharedSession.fresh limitContext validator).serveAll
            [(0, .build (.declaration "limit.Service")),
              (1, .addMutation "limit.Service" (.declaration "limit.Service") metadata),
              (0, .clearMutations)]).serve builder
          (.buildWithDeclaringType "limit.Service" (.declaration "limit.Service"))).1 =
        ((Session.fresh limitContext).serve
          (.buildWithDeclaringType "limit.Service" (.declaration "limit.Service"))).1 :=
  ⟨limitContext_validation_ends, fun validator _ builder =>
    (answers_after_run limitContext_validation_ends validator _ builder).1 "limit.Service"
      (.declaration "limit.Service")⟩

end AnnotationMetadata
