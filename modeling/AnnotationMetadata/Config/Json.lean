import AnnotationMetadata.Config.Basic
import AnnotationMetadata.Json.Reader
import AnnotationMetadata.Json.Record

set_option autoImplicit false

/-!
# Builder settings as JSON

Every field may be left out and then has its default; fields that settings do
not have are ignored, whatever they hold.
-/

namespace AnnotationMetadata

/-! ## Writing -/

def ExtensionSettings.toJson (settings : ExtensionSettings) : Json :=
  .object
    [("includeInstalled", .bool settings.includeInstalled),
      ("renames", Json.ofStringDict settings.renames),
      ("packageRemaps", Json.ofStringDict settings.packageMoves)]

def Config.toJson (config : Config) : Json :=
  .object
    [("internalAnnotations", Json.ofStrings config.internalAnnotations),
      ("stereotypeExcludes", Json.ofStrings config.stereotypeExcludes),
      ("annotateExcludes", Json.ofStrings config.annotateExcludes),
      ("deprecatedAnnotations", Json.ofStringDict config.deprecatedAnnotations),
      ("extensions", config.extensions.toJson),
      ("visitorOptions", Json.ofStringDict config.visitorOptions)]

/-! ## Reading -/

def ExtensionSettings.ofJson? (json : Json) : Option ExtensionSettings := do
  let fallback : ExtensionSettings := {}
  let record ← json.openRecord? ["includeInstalled", "renames", "packageRemaps"]
  let includeInstalled ←
    Record.optional? record "includeInstalled" fallback.includeInstalled Json.bool?
  let renames ← Record.optional? record "renames" fallback.renames Json.stringDict?
  let packageMoves ← Record.optional? record "packageRemaps" fallback.packageMoves Json.stringDict?
  return { includeInstalled, renames, packageMoves }

def Config.ofJson? (json : Json) : Option Config := do
  let fallback : Config := {}
  let record ← json.openRecord?
    ["internalAnnotations", "stereotypeExcludes", "annotateExcludes", "deprecatedAnnotations",
      "extensions", "visitorOptions"]
  let internalAnnotations ←
    Record.optional? record "internalAnnotations" fallback.internalAnnotations Json.strings?
  let stereotypeExcludes ←
    Record.optional? record "stereotypeExcludes" fallback.stereotypeExcludes Json.strings?
  let annotateExcludes ←
    Record.optional? record "annotateExcludes" fallback.annotateExcludes Json.strings?
  let deprecatedAnnotations ←
    Record.optional? record "deprecatedAnnotations" fallback.deprecatedAnnotations Json.stringDict?
  let extensions ←
    Record.optional? record "extensions" fallback.extensions ExtensionSettings.ofJson?
  let visitorOptions ←
    Record.optional? record "visitorOptions" fallback.visitorOptions Json.stringDict?
  return { internalAnnotations, stereotypeExcludes, annotateExcludes, deprecatedAnnotations,
           extensions, visitorOptions }

/-- Reads settings. Ignored fields may nest at any depth. -/
def Config.ofText? (text : String) : Option Config :=
  (Json.ofText? text).bind Config.ofJson?

end AnnotationMetadata
