import AnnotationMetadata.Json.Basic

set_option autoImplicit false

/-!
# Errors and diagnostics

Reading the host program can fail; a build either fails with it or takes the
element to have no metadata. Diagnostics are messages about an element that do
not stop a build.
-/

namespace AnnotationMetadata

inductive ModelError where
  /-- A known defect of the host compiler. The element then has no metadata. -/
  | environmentDefect (reason : String)
  | failure (message : String)
  deriving DecidableEq

namespace ModelError

def message : ModelError → String
  | .environmentDefect reason => "environment defect: " ++ reason
  | .failure message => message

def isEnvironmentDefect : ModelError → Bool
  | .environmentDefect _ => true
  | .failure _ => false

end ModelError

inductive BuildError where
  | model (element : String) (cause : ModelError)
  /-- The walk was cut off; a larger budget might have let it finish. -/
  | unfinished (element : String)
  deriving DecidableEq

def BuildError.message : BuildError → String
  | .model element cause =>
    "failed to build annotation metadata for " ++ element ++ ": " ++ cause.message
  | .unfinished element =>
    "failed to build annotation metadata for " ++ element ++ ": the walk does not finish"

inductive Severity where
  | error
  | warning
  deriving DecidableEq

def Severity.text : Severity → String
  | .error => "error"
  | .warning => "warning"

structure Diagnostic where
  severity : Severity
  element : String
  message : String
  deriving DecidableEq

namespace Diagnostic

def isError (diagnostic : Diagnostic) : Bool :=
  diagnostic.severity == .error

def text (diagnostic : Diagnostic) : String :=
  diagnostic.severity.text ++ ": " ++ diagnostic.element ++ ": " ++ diagnostic.message

def toJson (diagnostic : Diagnostic) : Json :=
  .object
    [("category", .string diagnostic.severity.text), ("element", .string diagnostic.element),
      ("message", .string diagnostic.message)]

end Diagnostic

end AnnotationMetadata
