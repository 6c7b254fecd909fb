import AnnotationMetadata.CommandLine.Command

set_option autoImplicit false

/-!
# The program

Reads the files that the arguments name, carries out the command and prints what
it leaves behind.
-/

namespace AnnotationMetadata.CommandLine

/-- The number of a system error, which may be given negated. -/
def errorNumber (code : UInt32) : UInt32 :=
  min code (0 - code)

def failureOf : IO.Error → FileFailure
  | .noFileOrDirectory .. => .missing
  | .permissionDenied .. => .denied
  | .inappropriateType _ code _ => if errorNumber code = 20 then .notDirectory else .isDirectory
  | .invalidArgument _ code reason => if errorNumber code = 36 then .nameTooLong else .other reason
  | .userError _ => .notText
  | other => .other (toString other)

def readPath (path : String) : IO (String × Except FileFailure String) := do
  try
    return (path, .ok (← IO.FS.readFile path))
  catch failure => return (path, .error (failureOf failure))

def filesRead (contents : List (String × Except FileFailure String)) : FileAccess := fun path =>
  (Dict.get? contents path).getD (.error .missing)

end AnnotationMetadata.CommandLine

open AnnotationMetadata.CommandLine

def main (arguments : List String) : IO UInt32 := do
  let request := Request.ofArguments arguments
  let paths :=
    match request with
    | .command command => command.paths
    | _ => []
  let outcome := run (filesRead (← paths.mapM readPath)) request
  IO.eprint outcome.report
  IO.print outcome.output
  return UInt32.ofNat outcome.exitCode
