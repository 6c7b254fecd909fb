import AnnotationMetadata.Dict

set_option autoImplicit false

/-!
# Files

A command reads files by path. Files may be held in a `Directory`, which follows
paths as the system does: repeated slashes and the part `.` lead nowhere else,
`..` leads back, and only a directory leads on.
-/

namespace AnnotationMetadata.CommandLine

inductive FileFailure where
  | missing
  | denied
  /-- The path goes on below a file. -/
  | notDirectory
  /-- The path leads to a directory. -/
  | isDirectory
  | nameTooLong
  | notText
  | other (reason : String)
  deriving DecidableEq

def FileFailure.message : FileFailure → String
  | .missing => "No such file or directory (os error 2)"
  | .denied => "Permission denied (os error 13)"
  | .notDirectory => "Not a directory (os error 20)"
  | .isDirectory => "Is a directory (os error 21)"
  | .nameTooLong => "File name too long (os error 36)"
  | .notText => "stream did not contain valid UTF-8"
  | .other reason => reason

/-- The content of a file by path. -/
abbrev FileAccess : Type := String → Except FileFailure String

/-- Files with their contents, by the path from the directory that holds them. -/
abbrev Directory : Type := Dict String

namespace Directory

def parts (path : String) : List String :=
  path.splitOn "/"

/-- Whether a file lies below a path. -/
def leadsOn (directory : Directory) (path : String) : Bool :=
  (Dict.keys directory).any fun file => file.startsWith (path ++ "/")

/-- Whether a part of a path names something, rather than the place it stands at. -/
def isName (part : String) : Bool :=
  part != "" && part != "." && part != ".."

def isTooLong (part : String) : Bool :=
  255 < part.utf8ByteSize

/-- What the parts of a path lead to outside: directories above, and no file. -/
def outside (parts : List String) : FileFailure :=
  match parts.find? isName with
  | none => .isDirectory
  | some part => if isTooLong part then .nameTooLong else .missing

/-- Follows the parts of a path from the directory that other parts have led to. -/
def follow (directory : Directory) (reached : List String) :
    List String → Except FileFailure String
  | [] => .error .isDirectory
  | part :: rest =>
    if part = "" ∨ part = "." then follow directory reached rest
    else if part = ".." then
      if reached.isEmpty then .error (outside rest) else follow directory reached.dropLast rest
    else if isTooLong part then .error .nameTooLong
    else
      let path := String.intercalate "/" (reached ++ [part])
      match Dict.get? directory path with
      | some content => if rest.isEmpty then .ok content else .error .notDirectory
      | none =>
        if directory.leadsOn path then follow directory (reached ++ [part]) rest
        else .error .missing

/-- Reads a file. Of the paths that start at the root only the empty device is
known to be a file. -/
def access (directory : Directory) : FileAccess := fun path =>
  if path = "" then .error .missing
  else if path = "/dev/null" then .ok ""
  else if 4096 ≤ path.utf8ByteSize then .error .nameTooLong
  else if path.startsWith "/" then .error (outside (parts path))
  else directory.follow [] (parts path)

end Directory

end AnnotationMetadata.CommandLine
