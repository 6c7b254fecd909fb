import AnnotationMetadata.Value.Basic

set_option autoImplicit false

/-!
# Extensions

An extension replaces annotation occurrences by others while metadata is built.
Mappers and transformers are asked for the annotations of one name, remappers for
the annotations of one package. All of them are pure functions of the options of
the run and of the occurrence.
-/

namespace AnnotationMetadata

abbrev VisitorOptions : Type := Dict String

/-- What mappers and transformers compute. -/
abbrev Expansion : Type := VisitorOptions → Annotation → List Annotation

/-- What a remapper makes of an annotation. -/
inductive RemapOutcome where
  /-- The remapper declines; the annotation is stored as it is. -/
  | unchanged
  /-- These annotations take its place; none of them removes it. -/
  | replaced (annotations : List Annotation)

abbrev Remapping : Type := VisitorOptions → Annotation → RemapOutcome

inductive Extension where
  /-- Expands annotations of a name. The occurrence itself is kept only if it is
  returned again. -/
  | mapper (annotationName : String) (expand : Expansion)
  /-- Replaces annotations of a name. -/
  | transformer (annotationName : String) (expand : Expansion)
  /-- Replaces annotations of a package, or declines. -/
  | remapper (packageName : String) (remap : Remapping)

namespace Extension

/-- The annotation name or package that the extension is looked up by. -/
def key : Extension → String
  | .mapper annotationName _ => annotationName
  | .transformer annotationName _ => annotationName
  | .remapper packageName _ => packageName

def describe : Extension → String
  | .mapper annotationName _ => "Mapper(" ++ annotationName ++ ")"
  | .transformer annotationName _ => "Transformer(" ++ annotationName ++ ")"
  | .remapper packageName _ => "Remapper(" ++ packageName ++ ")"

/-! ## Extensions that need no code -/

/-- Renames one annotation, keeping everything else. -/
def rename (source target : String) : Extension :=
  .transformer source fun _ annotation => [{ annotation with name := target }]

/-- Moves the annotations of one package to another, keeping simple names. -/
def movePackage (source target : String) : Extension :=
  .remapper source fun _ annotation =>
    if Name.packageOf annotation.name = source then
      .replaced [{ annotation with name := target ++ "." ++ Name.simpleOf annotation.name }]
    else .unchanged

end Extension

end AnnotationMetadata
