import AnnotationMetadata.Extension.Registry

set_option autoImplicit false

/-!
# Builder settings

Which annotations are ignored, which packages are not walked, which names are
deprecated, and which extensions are loaded.
-/

namespace AnnotationMetadata

/-- Extensions that settings ask for. -/
structure ExtensionSettings where
  /-- Whether the installed extensions are loaded as well. -/
  includeInstalled : Bool := true
  /-- Annotations to rename, each with its new name. -/
  renames : Dict String := []
  /-- Packages to move, each with its new name. -/
  packageMoves : Dict String := []

structure Config where
  /-- Annotations that are never recorded. -/
  internalAnnotations : List String :=
    ["java.lang.annotation.Retention", "java.lang.annotation.Documented",
      "java.lang.annotation.Target", "java.lang.annotation.Inherited",
      "java.lang.annotation.Repeatable", "java.lang.annotation.Native", "java.lang.Deprecated",
      "kotlin.annotation.Retention", "kotlin.annotation.Target",
      "kotlin.annotation.MustBeDocumented", "kotlin.annotation.Repeatable", "kotlin.Metadata"]
  /-- Packages whose annotations are not walked for meta-annotations. -/
  stereotypeExcludes : List String :=
    ["javax.annotation", "java.lang.annotation", "io.micronaut.core.annotation",
      "edu.umd.cs.findbugs.annotations"]
  /-- Meta-annotations that are skipped when metadata is annotated. -/
  annotateExcludes : List String := [Name.internal, Name.experimental]
  /-- Deprecated annotation names with the names to use instead. -/
  deprecatedAnnotations : Dict String :=
    [(Name.nullable, Name.coreNullable), (Name.nonNull, Name.coreNonNull)]
  extensions : ExtensionSettings := {}
  visitorOptions : Dict String := []

namespace Config

def isInternal (config : Config) (name : String) : Bool :=
  config.internalAnnotations.contains name

def isStereotypeExcluded (config : Config) (packageName : String) : Bool :=
  config.stereotypeExcludes.contains packageName

def deprecatedReplacement? (config : Config) (name : String) : Option String :=
  Dict.get? config.deprecatedAnnotations name

end Config

/-! ## Extensions -/

namespace ExtensionSettings

def renameCandidate (entry : String × String) : Candidate :=
  ⟨"rename " ++ entry.1 ++ " -> " ++ entry.2, .loaded (.rename entry.1 entry.2)⟩

/-- The candidate for moving a package. Neither name may be empty. -/
def moveCandidate (entry : String × String) : Candidate :=
  let name := "remap " ++ entry.1 ++ " -> " ++ entry.2
  if entry.1 = "" ∨ entry.2 = "" then
    ⟨name, .failed (.invalid name "package names must not be empty")⟩
  else ⟨name, .loaded (.movePackage entry.1 entry.2)⟩

/-- Renames come before moves, each in the order of the settings. -/
def candidates (settings : ExtensionSettings) : List Candidate :=
  settings.renames.map renameCandidate ++ settings.packageMoves.map moveCandidate

end ExtensionSettings

def Config.registry (config : Config) : Registry :=
  if config.extensions.includeInstalled then
    Registry.load [Candidate.installed, config.extensions.candidates]
  else Registry.load [config.extensions.candidates]

/-! ## Agreement -/

/-- Whether two maps hold the same entries in any order. -/
def Dict.sameEntries (a b : Dict String) : Bool :=
  a.length == b.length && a.all fun entry => Dict.get? b entry.1 == some entry.2

/-- Whether two settings have the same effect on lookups. -/
def Config.agrees (a b : Config) : Bool :=
  a.internalAnnotations == b.internalAnnotations && a.stereotypeExcludes == b.stereotypeExcludes &&
  a.annotateExcludes == b.annotateExcludes &&
  Dict.sameEntries a.deprecatedAnnotations b.deprecatedAnnotations &&
  a.extensions.includeInstalled == b.extensions.includeInstalled &&
  Dict.sameEntries a.extensions.renames b.extensions.renames &&
  Dict.sameEntries a.extensions.packageMoves b.extensions.packageMoves &&
  Dict.sameEntries a.visitorOptions b.visitorOptions

end AnnotationMetadata
