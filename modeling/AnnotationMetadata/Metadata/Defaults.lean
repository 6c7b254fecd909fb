import AnnotationMetadata.Value.Basic

set_option autoImplicit false

/-!
# Registered defaults

The defaults of annotation members that were met while building, by annotation.
The first default of a member is kept.
-/

namespace AnnotationMetadata

abbrev Defaults : Type := Dict Members

namespace Defaults

/-- Registers defaults of an annotation; only missing members are added. -/
def register (defaults : Defaults) (name : String) (members : Members) : Defaults :=
  Dict.alter defaults name [] fun present => Dict.underlay present members

end Defaults

end AnnotationMetadata
