import AnnotationMetadata.Proofs.Walk.Hierarchy
import AnnotationMetadata.Session.Run

set_option autoImplicit false

/-!
# What a request does

A request is answered from what is known already, takes in the trace of one walk,
or changes what is registered. Facts about runs follow by cases on this.
-/

namespace AnnotationMetadata

/-- What a request registers for an element under a declaring type. -/
def Request.registers? (declaringType : String) (element : Element) : Request → Option Metadata
  | .addMutation type target metadata =>
    if type = declaringType ∧ target = element then some metadata else none
  | _ => none

def Request.clears : Request → Bool
  | .clearMutations => true
  | _ => false

/-- The request neither registers nor clears anything. -/
structure Request.KeepsMutations (request : Request) : Prop where
  clears : request.clears = false
  registers? : ∀ declaringType element, request.registers? declaringType element = none

/-- The walk that a request starts unless metadata is registered for its element. -/
def Request.walk (context : Context) : Request → ElementWalk
  | .build element | .buildWithDeclaringType _ element =>
    Walk.element context none element { inheritTypes := true, aliases := true }
  | .buildDeclared element =>
    Walk.element context none element { inheritTypes := true, declaredOnly := true, aliases := true }
  | .buildOverridden element | .buildForMethod element =>
    Walk.element context none element { aliases := true }
  | .buildGiven element annotations includeElement =>
    if annotations.isEmpty then { trace := [] }
    else Session.givenWalk context element annotations includeElement
  | .buildForParent parent element | .buildForParentWithDeclaringType _ parent element =>
    Walk.element context (some parent) element { aliases := true }
  | .buildForParentInheriting parent element inheritTypes =>
    Walk.element context (some parent) element { inheritTypes, aliases := true }
  | .annotate _ occurrence => { trace := Walk.added context occurrence }
  | .addMutation _ _ _ | .clearMutations => { trace := [] }

private theorem Session.ofElements_of_mem_givenWalk {context : Context} {element : Element}
    {annotations : List Annotation} {includeElement : Bool} {recording : Recording}
    (recorded : recording ∈ (givenWalk context element annotations includeElement).trace) :
    Walk.OfElements context recording := by
  have own : ∀ earlier ∈
      (if includeElement then
        Walk.element context none element { declaredOnly := true, aliases := true }
      else ({ trace := [] } : ElementWalk)).trace, Walk.OfElements context earlier := by
    intro earlier walked
    split at walked
    · exact Walk.ofElements_of_mem_element walked
    · cases walked
  unfold givenWalk at recorded
  dsimp only at recorded
  split at recorded
  · exact own recording recorded
  · rcases List.mem_append.mp recorded with before | given
    · exact own recording before
    · exact .walked given

/-- Requests walk elements, unless they add an annotation. -/
theorem Request.ofElements_or_added {context : Context} {request : Request} {recording : Recording}
    (recorded : recording ∈ (request.walk context).trace) :
    Walk.OfElements context recording ∨
      ∃ metadata occurrence, request = .annotate metadata occurrence ∧
        recording ∈ Walk.added context occurrence := by
  cases request with
  | buildGiven element annotations includeElement =>
    simp only [walk] at recorded
    split at recorded
    · cases recorded
    · exact .inl (Session.ofElements_of_mem_givenWalk recorded)
  | annotate metadata occurrence => exact .inr ⟨metadata, occurrence, rfl, recorded⟩
  | addMutation => cases recorded
  | clearMutations => cases recorded
  | _ => exact .inl (Walk.ofElements_of_mem_element recorded)

namespace Session

/-- How a request is answered, and what it makes of the session. Only a walk that
is cut off leaves it without its answer. -/
inductive Served (session : Session) (request : Request) : Answer × Session → Prop where
  | known {metadata : Metadata} (keeps : request.KeepsMutations)
      (found : metadata = .empty ∧ (request.walk session.context).trace = [] ∨
        ∃ declaringType element, session.mutation? declaringType element = some metadata) :
      Served session request (some (.ok metadata), session)
  | observed {built : Except BuildError Metadata} (keeps : request.KeepsMutations)
      (cut : ∀ name, built = .error (.unfinished name) →
        ({ session with cutOff := false }.observeAll
          (request.walk session.context).trace).cutOff = true) :
      Served session request (some built,
        { session with cutOff := false }.observeAll (request.walk session.context).trace)
  | registered {declaringType : String} {element : Element} {metadata : Metadata}
      (asked : request = .addMutation declaringType element metadata) :
      Served session request (none, session.addMutation declaringType element metadata)
  | cleared (asked : request = .clearMutations) :
      Served session request (none, session.clearMutations)

section Builds

variable (session : Session) {request : Request} (keeps : request.KeepsMutations)

include keeps

theorem conclude_served (element : Element) (seed : Store) :
    session.Served request
      (answered (session.conclude element seed (request.walk session.context))) := by
  unfold conclude
  dsimp only
  split
  · next cut => exact .observed keeps fun _ _ => cut
  · split
    · exact .observed keeps fun _ same => nomatch same
    · exact .observed keeps fun _ same => nomatch same
    · exact .observed keeps fun _ same => nomatch same

theorem buildFresh_served {parent : Option Element} {element : Element} {options : BuildOptions}
    (walked : request.walk session.context = Walk.element session.context parent element options)
    (seed : Store) :
    session.Served request (answered (session.buildFresh parent element seed options)) := by
  rw [buildFresh, ← walked]
  exact conclude_served session keeps element seed

theorem buildUnlessMutated_served {element : Element} {options : BuildOptions}
    (walked : request.walk session.context = Walk.element session.context none element options)
    (declaringType : String) :
    session.Served request
      (answered (session.buildUnlessMutated declaringType element options)) := by
  unfold buildUnlessMutated
  split
  · next found => exact .known keeps (.inr ⟨declaringType, element, found⟩)
  · exact buildFresh_served session keeps walked .empty

end Builds

private theorem buildGiven_served (session : Session) (element : Element)
    (annotations : List Annotation) (includeElement : Bool) :
    session.Served (.buildGiven element annotations includeElement)
      (answered (session.buildGiven element annotations includeElement)) := by
  unfold buildGiven
  split
  · next none =>
    refine .known ⟨rfl, fun _ _ => rfl⟩ (.inl ⟨rfl, ?_⟩)
    rw [Request.walk, if_pos none]
  · next given =>
    have walked : (Request.buildGiven element annotations includeElement).walk session.context =
        givenWalk session.context element annotations includeElement := if_neg given
    rw [← walked]
    exact conclude_served session ⟨rfl, fun _ _ => rfl⟩ element .empty

private theorem annotate_served (session : Session) (metadata : Metadata)
    (occurrence : Annotation) :
    session.Served (.annotate metadata occurrence)
      (answered (session.annotate metadata occurrence)) := by
  unfold annotate
  dsimp only
  split
  · next cut => exact .observed ⟨rfl, fun _ _ => rfl⟩ fun _ _ => cut
  · exact .observed ⟨rfl, fun _ _ => rfl⟩ fun _ same => nomatch same

theorem serve_served (session : Session) (request : Request) :
    session.Served request (session.serve request) := by
  cases request with
  | build element => exact buildUnlessMutated_served session ⟨rfl, fun _ _ => rfl⟩ rfl _
  | buildWithDeclaringType declaringType element =>
    exact buildUnlessMutated_served session ⟨rfl, fun _ _ => rfl⟩ rfl declaringType
  | buildDeclared element => exact buildFresh_served session ⟨rfl, fun _ _ => rfl⟩ rfl _
  | buildOverridden element => exact buildUnlessMutated_served session ⟨rfl, fun _ _ => rfl⟩ rfl _
  | buildForMethod element => exact buildUnlessMutated_served session ⟨rfl, fun _ _ => rfl⟩ rfl _
  | buildGiven element annotations includeElement =>
    exact buildGiven_served session element annotations includeElement
  | buildForParent parent element => exact buildFresh_served session ⟨rfl, fun _ _ => rfl⟩ rfl _
  | buildForParentWithDeclaringType declaringType parent element =>
    exact buildFresh_served session ⟨rfl, fun _ _ => rfl⟩ rfl _
  | buildForParentInheriting parent element inheritTypes =>
    exact buildFresh_served session ⟨rfl, fun _ _ => rfl⟩ rfl _
  | annotate metadata occurrence => exact annotate_served session metadata occurrence
  | addMutation declaringType element metadata => exact .registered rfl
  | clearMutations => exact .cleared rfl

end Session

end AnnotationMetadata
