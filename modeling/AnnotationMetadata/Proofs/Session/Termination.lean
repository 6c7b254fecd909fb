import AnnotationMetadata.Proofs.Session.Observation
import AnnotationMetadata.Proofs.Session.Requests
import AnnotationMetadata.Proofs.Walk.Chain

set_option autoImplicit false

/-!
# Requests that end

A request is answered as soon as every walk it can start is carried out
completely. Without extensions all of them are, so every request is answered on
every document, whatever the validator says.
-/

namespace AnnotationMetadata

namespace Walk

/-- Every walk that a build or an addition starts is carried out completely. -/
def AllFinish (context : Context) : Prop :=
  ∀ plan, IsStart context plan → Recording.unfinished ∉ carryOut context plan

variable {context : Context}

theorem AllFinish.ofElements (finish : AllFinish context) {recording : Recording}
    (walked : OfElements context recording) : recording ≠ .unfinished := by
  cases walked with
  | walked recorded =>
    rintro rfl
    exact finish _ (.occurrences _ _ _ _) recorded
  | promoteScope => exact fun same => nomatch same

theorem AllFinish.added (finish : AllFinish context) (occurrence : Annotation) :
    Recording.unfinished ∉ added context occurrence :=
  finish _ (.addition occurrence)

theorem AllFinish.annotationMember (finish : AllFinish context) (owner member : String) :
    Recording.unfinished ∉ annotationMember context owner member :=
  fun recorded => finish.ofElements (ofElements_of_mem_annotationMember recorded) rfl

theorem AllFinish.readsEnd {session : Session} (finish : AllFinish session.context)
    (trace : Trace) : session.ReadsEnd trace :=
  Session.ValidationEnds.reads finish.annotationMember trace

theorem AllFinish.of_empty (empty : context.registry = .empty) : AllFinish context :=
  fun _ start => start.finished empty

end Walk

namespace Session

theorem observeAll_cutOff_eq_false (session : Session) {trace : Trace}
    (ends : session.ReadsEnd trace) (finished : Recording.unfinished ∉ trace) :
    ({ session with cutOff := false }.observeAll trace).cutOff = false := by
  rw [Bool.eq_false_iff]
  intro cut
  have uncut : ReadsEnd { session with cutOff := false } trace := ends
  rcases (observeAll_cutOff uncut).mp cut with before | recorded
  · cases before
  · exact finished recorded

/-- A walk that is not cut off is answered with how it went. -/
theorem conclude_of_finished {session : Session} {walk : ElementWalk}
    (ends : session.ReadsEnd walk.trace) (finished : Recording.unfinished ∉ walk.trace)
    (element : Element) (seed : Store) :
    (session.conclude element seed walk).1 =
      match walk.failure with
      | none => .ok (.ofStore (seed.recordAll walk.trace))
      | some (.environmentDefect _) => .ok .empty
      | some failure => .error (.model element.name failure) := by
  rw [conclude, observeAll_cutOff_eq_false session ends finished]
  simp only [Bool.false_eq_true, if_false]
  cases walk.failure with
  | none => rfl
  | some failure => cases failure <;> rfl

/-- A request starts complete walks only. -/
theorem walk_finished {context : Context} (finish : Walk.AllFinish context) (request : Request) :
    Recording.unfinished ∉ (request.walk context).trace := by
  intro recorded
  rcases Request.ofElements_or_added recorded with walked | ⟨_, occurrence, _, added⟩
  · exact finish.ofElements walked rfl
  · exact finish.added occurrence added

private theorem serve_ne_unfinished {session : Session} (finish : Walk.AllFinish session.context)
    (request : Request) (name : String) :
    (session.serve request).1 ≠ some (.error (.unfinished name)) := by
  have served := serve_served session request
  generalize session.serve request = result at served ⊢
  intro unanswered
  cases served with
  | known => cases unanswered
  | observed keeps cut =>
    have ended := observeAll_cutOff_eq_false session (finish.readsEnd _)
      (walk_finished finish request)
    have cutOff := cut name (Option.some.inj unanswered)
    exact Bool.false_ne_true (ended.symm.trans cutOff)
  | registered => cases unanswered
  | cleared => cases unanswered

/-! ## Without extensions -/

/-- Without extensions every walk ends on every document, however its
meta-annotations, member aliases, supertypes and overrides refer to each other.
The annotations that lead to a walk are distinct, so they are at most one more
than the names in the document. Every request is answered. What is validated is
what the walk of the request reads itself; the walk that a validation starts ends
as well, and validates nothing. -/
theorem requests_end_without_extensions {context : Context} (empty : context.registry = .empty) :
    (∀ plan, Walk.IsStart context plan →
      (∀ step chain, Walk.Reached context plan step → step.chain? = some chain →
        chain.Nodup ∧ chain.length ≤ context.model.mentionedNames.length + 1) ∧
      (∀ levels, context.model.mentionedNames.length + 1 ≤ levels →
        Recording.unfinished ∉
          Walk.Plan.carryOut context.config (Walk.stereotypes context levels) plan) ∧
      Recording.unfinished ∉ Walk.carryOut context plan) ∧
    ∀ session : Session, session.context = context →
      (∀ request name, (session.serve request).1 ≠ some (.error (.unfinished name))) ∧
      (∀ trace, ∃ made, (session.observeAll trace).calls = session.calls ++ made ∧
        (subjectsOf made).Sublist (readsOf trace)) ∧
      ∀ validator read,
        Recording.unfinished ∉ Walk.annotationMember context read.annotation read.member ∧
        ∃ metadata, (session.validate validator read).calls =
          session.calls ++ [⟨read.element, metadata, read.value⟩] := by
  have finish : Walk.AllFinish context := .of_empty empty
  have listed : ∀ name, (context.model.annotationType? name).isSome →
      name ∈ context.model.mentionedNames :=
    fun _ known => Model.mem_mentionedNames_of_annotationType? known
  refine ⟨fun plan start => ⟨?_, ?_, start.finished empty⟩, ?_⟩
  · intro step chain reached passed
    have proper := reached.chain_proper empty start passed
    exact ⟨proper.nodup, proper.length_le listed⟩
  · intro levels enough
    exact start.finished_of_le empty listed enough
  · rintro session rfl
    refine ⟨serve_ne_unfinished finish, observeAll_calls session, ?_⟩
    intro validator read
    exact ⟨finish.annotationMember read.annotation read.member,
      validate_calls session validator read⟩

/-- Two annotation types that carry each other. A member of each is an alias for
the member of the other. -/
def ringContext : Context where
  model :=
    { document :=
        { annotations := [ring "ring.First" "ring.Second", ring "ring.Second" "ring.First"]
          elements :=
            [("ring.Service", { kind := .classType, annotations := [carried "ring.First"] })] } }
where
  carried (name : String) : Annotation :=
    { name, members := [(Name.valueMember, .string "x")] }
  ring (name other : String) : String × AnnotationDeclaration :=
    let aliasFor : Annotation :=
      { name := Name.aliasFor
        members := [("annotation", .string other), ("member", .string Name.valueMember)] }
    (name,
      { members := [(Name.valueMember, { annotations := [aliasFor] })]
        annotations := [carried other] })

theorem ringContext_requests_end :
    ringContext.registry = .empty ∧
      ∀ validator request name,
        ((fresh ringContext validator).serve request).1 ≠ some (.error (.unfinished name)) :=
  ⟨rfl, fun validator =>
    ((requests_end_without_extensions rfl).2 (fresh ringContext validator) rfl).1⟩

end Session

end AnnotationMetadata
