import AnnotationMetadata.Session.Basic

set_option autoImplicit false

/-!
# Building metadata

The entry points of a session. Each of them walks an element, or takes what is
registered for it, and returns the metadata together with the session after the
build. A defect of the environment gives empty metadata, any other failure is an
error that names the element.
-/

namespace AnnotationMetadata

/-- The metadata that a trace makes of given metadata by declaring more. Metadata
of another class is kept and put under the new part. -/
def Metadata.declaring (trace : Trace) : Metadata → Metadata
  | .empty => ofStore (Store.empty.recordAll trace)
  | .store data => ofStore (data.recordAll trace)
  | .hierarchy parent declared => .hierarchy parent (declared.declaring trace)
  | .reference className target =>
    .hierarchy (.reference className target) (ofStore (Store.empty.recordAll trace))

namespace Session

abbrev Built : Type := Except BuildError Metadata × Session

/-- Takes in a walk of an element that started from a store. -/
def conclude (session : Session) (element : Element) (seed : Store) (walk : ElementWalk) : Built :=
  let observed := { session with cutOff := false }.observeAll walk.trace
  if observed.cutOff then (.error (.unfinished element.name), observed)
  else
    match walk.failure with
    | none => (.ok (.ofStore (seed.recordAll walk.trace)), observed)
    | some (.environmentDefect _) => (.ok .empty, observed)
    | some failure => (.error (.model element.name failure), observed)

def buildFresh (session : Session) (parent : Option Element) (element : Element) (seed : Store)
    (options : BuildOptions) : Built :=
  session.conclude element seed (Walk.element session.context parent element options)

def buildUnlessMutated (session : Session) (declaringType : String) (element : Element)
    (options : BuildOptions) : Built :=
  match session.mutation? declaringType element with
  | some metadata => (.ok metadata, session)
  | none => session.buildFresh none element .empty options

/-! ## Single elements -/

/-- All metadata of an element that is declared by the given type: its own,
inherited, and for members that of their declaring type. -/
def buildWithDeclaringType (session : Session) (declaringType : String) (element : Element) :
    Built :=
  session.buildUnlessMutated declaringType element { inheritTypes := true, aliases := true }

def build (session : Session) (element : Element) : Built :=
  session.buildWithDeclaringType (session.model.declaringType element) element

/-- The metadata that stands on the element itself. -/
def buildDeclared (session : Session) (element : Element) : Built :=
  session.buildFresh none element .empty
    { inheritTypes := true, declaredOnly := true, aliases := true }

/-- The metadata of a member and the members it overrides. -/
def buildOverridden (session : Session) (element : Element) : Built :=
  session.buildUnlessMutated (session.model.declaringType element) element { aliases := true }

def buildForMethod (session : Session) (element : Element) : Built :=
  session.buildUnlessMutated (session.model.declaringType element) element { aliases := true }

/-! ## Given annotations -/

/-- Walks an element if asked to, then given annotations as if the element
declared them. -/
def givenWalk (context : Context) (element : Element) (annotations : List Annotation)
    (includeElement : Bool) : ElementWalk :=
  let own : ElementWalk :=
    if includeElement then
      Walk.element context none element { declaredOnly := true, aliases := true }
    else { trace := [] }
  match own.failure with
  | some _ => own
  | none => { own with trace := own.trace ++ Walk.given context element annotations }

/-- The metadata of given annotations, over that of the element if asked to. -/
def buildGiven (session : Session) (element : Element) (annotations : List Annotation)
    (includeElement : Bool) : Built :=
  if annotations.isEmpty then (.ok .empty, session)
  else
    session.conclude element .empty (givenWalk session.context element annotations includeElement)

/-! ## Elements with a parent -/

/-- The store that registered metadata of an element starts a build with. -/
def seedOf : Option Metadata → Store
  | some (.store data) => data
  | some (.hierarchy _ (.store data)) => data
  | _ => .empty

/-- The metadata of an element together with that of a parent, on top of what is
registered for the element under the given type. -/
def buildForParentWith (session : Session) (declaringType : String) (parent element : Element)
    (inheritTypes : Bool) : Built :=
  session.buildFresh (some parent) element (seedOf (session.mutation? declaringType element))
    { inheritTypes, aliases := true }

def buildForParentWithDeclaringType (session : Session) (declaringType : String)
    (parent element : Element) : Built :=
  session.buildForParentWith declaringType parent element false

def buildForParent (session : Session) (parent element : Element) : Built :=
  session.buildForParentWith (session.model.declaringType element) parent element false

def buildForParentInheriting (session : Session) (parent element : Element)
    (inheritTypes : Bool) : Built :=
  session.buildForParentWith (session.model.declaringType element) parent element inheritTypes

/-! ## Annotating -/

/-- Adds a declared annotation to metadata. The given metadata is not changed. -/
def annotate (session : Session) (metadata : Metadata) (occurrence : Annotation) : Built :=
  let trace := Walk.added session.context occurrence
  let observed := { session with cutOff := false }.observeAll trace
  if observed.cutOff then (.error (.unfinished occurrence.name), observed)
  else (.ok (metadata.declaring trace), observed)

end Session

end AnnotationMetadata
