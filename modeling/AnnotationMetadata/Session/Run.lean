import AnnotationMetadata.Session.Build

set_option autoImplicit false

/-!
# Runs

Everything that can be asked of a builder is a `Request`. A run is a list of
requests that several builders of one session serve in turn. The builders share
the session; each of them has its own list of members that it has reported.
-/

namespace AnnotationMetadata

inductive Request where
  | build (element : Element)
  | buildWithDeclaringType (declaringType : String) (element : Element)
  | buildDeclared (element : Element)
  | buildOverridden (element : Element)
  | buildForMethod (element : Element)
  | buildGiven (element : Element) (annotations : List Annotation) (includeElement : Bool)
  | buildForParent (parent element : Element)
  | buildForParentWithDeclaringType (declaringType : String) (parent element : Element)
  | buildForParentInheriting (parent element : Element) (inheritTypes : Bool)
  | annotate (metadata : Metadata) (occurrence : Annotation)
  | addMutation (declaringType : String) (element : Element) (metadata : Metadata)
  | clearMutations

/-- What a request is answered with, if it has an answer. -/
abbrev Answer : Type := Option (Except BuildError Metadata)

namespace Session

def fresh (context : Context) (validator : Option Validator := none) : Session :=
  { context, validator }

def answered (built : Built) : Answer × Session :=
  (some built.1, built.2)

def serve (session : Session) : Request → Answer × Session
  | .build element => answered (session.build element)
  | .buildWithDeclaringType declaringType element =>
    answered (session.buildWithDeclaringType declaringType element)
  | .buildDeclared element => answered (session.buildDeclared element)
  | .buildOverridden element => answered (session.buildOverridden element)
  | .buildForMethod element => answered (session.buildForMethod element)
  | .buildGiven element annotations includeElement =>
    answered (session.buildGiven element annotations includeElement)
  | .buildForParent parent element => answered (session.buildForParent parent element)
  | .buildForParentWithDeclaringType declaringType parent element =>
    answered (session.buildForParentWithDeclaringType declaringType parent element)
  | .buildForParentInheriting parent element inheritTypes =>
    answered (session.buildForParentInheriting parent element inheritTypes)
  | .annotate metadata occurrence => answered (session.annotate metadata occurrence)
  | .addMutation declaringType element metadata =>
    (none, session.addMutation declaringType element metadata)
  | .clearMutations => (none, session.clearMutations)

end Session

/-- A session with what each of its builders has reported. -/
structure SharedSession where
  session : Session
  reported : Nat → List Element := fun _ => []

namespace SharedSession

def seenBy (shared : SharedSession) (builder : Nat) : Session :=
  { shared.session with erroneous := shared.reported builder }

/-- The answer of a builder to a request, and what all builders share then. -/
def serve (shared : SharedSession) (builder : Nat) (request : Request) : Answer × SharedSession :=
  let (answer, session) := (shared.seenBy builder).serve request
  (answer,
    { session
      reported := fun other =>
        if other = builder then session.erroneous else shared.reported other })

/-- Serves requests in order, each by one of the builders. -/
def serveAll (shared : SharedSession) (run : List (Nat × Request)) : SharedSession :=
  run.foldl (fun before call => (before.serve call.1 call.2).2) shared

end SharedSession

end AnnotationMetadata
