import AnnotationMetadata.Store.Basic
import AnnotationMetadata.Value.Json

set_option autoImplicit false

/-!
# Stores as JSON

A store is written as an object of its tables; empty tables are left out.
-/

namespace AnnotationMetadata

def Json.fieldUnlessEmpty {α : Type} (name : String) (entries : List α)
    (toJson : List α → Json) : List (String × Json) :=
  if entries.isEmpty then [] else [(name, toJson entries)]

namespace Store

def membersTableToJson (table : Dict Members) : Json :=
  .object (table.map fun entry => (entry.1, Members.toJson entry.2))

def parentsToJson (table : Dict (List String)) : Json :=
  .object (table.map fun entry => (entry.1, Json.ofStrings entry.2))

def toJson (store : Store) : Json :=
  .object
    (Json.fieldUnlessEmpty "declaredAnnotations" store.declaredAnnotations membersTableToJson ++
      Json.fieldUnlessEmpty "annotations" store.annotations membersTableToJson ++
      Json.fieldUnlessEmpty "declaredStereotypes" store.declaredStereotypes membersTableToJson ++
      Json.fieldUnlessEmpty "stereotypes" store.stereotypes membersTableToJson ++
      Json.fieldUnlessEmpty "annotationsByStereotype" store.parents parentsToJson ++
      Json.fieldUnlessEmpty "repeatable" store.containers Json.ofStringDict ++
      Json.fieldUnlessEmpty "defaults" store.defaults membersTableToJson ++
      Json.fieldUnlessEmpty "sourceRetentionAnnotations" store.sourceOnly Json.ofStrings)

def text (store : Store) : String :=
  store.toJson.compact

end Store

end AnnotationMetadata
