import AnnotationMetadata.Metadata.Basic
import AnnotationMetadata.Metadata.Defaults
import AnnotationMetadata.Session.Mutations
import AnnotationMetadata.Walk.Element

set_option autoImplicit false

/-!
# Build sessions

A session holds what builds share: the context of all walks, registered
mutations and defaults, diagnostics, and what is known about validation. Builds
add to it; only registered mutations flow back into their results.

Values of constrained members are validated as they are read. A member for which
the validator has reported an error is not validated again by the same builder.
-/

namespace AnnotationMetadata

/-- Checks a value of a member against the metadata of the member. Given the
member name, its metadata and the value, returns the violations. -/
abbrev Validator : Type := String → Metadata → Value → List String

structure ValidationCall where
  member : Element
  metadata : Metadata
  value : Value

structure Session where
  context : Context
  validator : Option Validator := none
  mutations : Mutations Metadata := {}
  defaults : Defaults := []
  diagnostics : List Diagnostic := []
  /-- The members that the current builder has reported errors for. -/
  erroneous : List Element := []
  /-- The values that were validated, in order. -/
  calls : List ValidationCall := []
  /-- Some walk of the build under way was cut off. -/
  cutOff : Bool := false

namespace Session

def model (session : Session) : Model := session.context.model

/-! ## Diagnostics -/

def addDiagnostic (session : Session) (severity : Severity) (element : Element)
    (message : String) : Session :=
  { session with diagnostics := session.diagnostics ++ [⟨severity, element.label, message⟩] }

def addError (session : Session) (element : Element) (message : String) : Session :=
  session.addDiagnostic .error element message

def addWarning (session : Session) (element : Element) (message : String) : Session :=
  session.addDiagnostic .warning element message

def hasErrors (session : Session) : Bool :=
  session.diagnostics.any Diagnostic.isError

/-! ## Validation -/

def isValidated (session : Session) (read : ReadValue) : Bool :=
  !session.erroneous.contains read.element && read.annotation != Name.aliasFor &&
    !read.value.isPlaceholder && session.model.requiresValidation read.element

/-- Takes in what a walk recorded, without validating values. -/
def note (session : Session) : Recording → Session
  | .write (.defaults name members) =>
    { session with defaults := session.defaults.register name members }
  | .warning element message => session.addWarning element message
  | .unfinished => { session with cutOff := true }
  | _ => session

def violationMessage (read : ReadValue) (violation : String) : String :=
  "@" ++ Name.simpleOf read.annotation ++ "." ++ read.member ++ ": " ++ violation

/-- Reports violations of a member value. From then on the member is erroneous. -/
def reportViolations (session : Session) (read : ReadValue) (violations : List String) : Session :=
  if violations.isEmpty then session
  else
    violations.foldl
      (fun result violation => result.addError read.originating (violationMessage read violation))
      { session with erroneous := read.element :: session.erroneous }

/-- Passes a value to the validator, together with the metadata of its member.
That metadata is read without validating anything. -/
def validate (session : Session) (validator : Validator) (read : ReadValue) : Session :=
  let trace := Walk.annotationMember session.context read.annotation read.member
  let noted := trace.foldl note session
  let metadata := Metadata.ofStore (Store.empty.recordAll trace)
  let call : ValidationCall := ⟨read.element, metadata, read.value⟩
  let called := { noted with calls := noted.calls ++ [call] }
  called.reportViolations read (validator read.member metadata read.value)

/-- Takes in what a walk recorded and validates values. -/
def observe (session : Session) : Recording → Session
  | .read read =>
    match session.validator with
    | some validator => if session.isValidated read then session.validate validator read else session
    | none => session
  | recording => session.note recording

def observeAll (session : Session) (trace : Trace) : Session :=
  trace.foldl observe session

/-! ## Sessions over time -/

/-- Goes on with a new builder, which has not reported any member yet. -/
def withNewBuilder (session : Session) : Session :=
  { session with erroneous := [] }

/-- Registers metadata that a compiler pass has made. -/
def addMutation (session : Session) (declaringType : String) (element : Element)
    (metadata : Metadata) : Session :=
  { session with mutations := session.mutations.add ⟨declaringType, element⟩ metadata }

def mutation? (session : Session) (declaringType : String) (element : Element) : Option Metadata :=
  session.mutations.get? ⟨declaringType, element⟩

def isMutated (session : Session) (declaringType : String) (element : Element) : Bool :=
  session.mutations.contains ⟨declaringType, element⟩

def clearMutations (session : Session) : Session :=
  { session with mutations := .empty }

end Session

end AnnotationMetadata
