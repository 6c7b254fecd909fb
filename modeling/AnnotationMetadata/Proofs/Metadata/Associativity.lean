import AnnotationMetadata.Metadata.Basic
import AnnotationMetadata.Proofs.Store.Absorption
import AnnotationMetadata.Store.Json

set_option autoImplicit false

/-!
# Layers in any grouping

Queries look at the list of layers and at the declared one, so that metadata with the
same layers answers alike. Whether metadata is layered under a part first or under the
whole, the layers are the same, and so is the snapshot.
-/

namespace AnnotationMetadata.Metadata

/-! ## Answers -/

/-- Both give the same answer to every query, the order of what is listed included. -/
structure AnswersAlike (metadata other : Metadata) : Prop where
  declaredPart? : metadata.declaredPart? = other.declaredPart?
  isEmpty : metadata.isEmpty = other.isEmpty
  hasAnnotation : ∀ name, metadata.hasAnnotation name = other.hasAnnotation name
  hasStereotype : ∀ name, metadata.hasStereotype name = other.hasStereotype name
  hasDeclaredAnnotation : ∀ name,
    metadata.hasDeclaredAnnotation name = other.hasDeclaredAnnotation name
  hasDeclaredStereotype : ∀ name,
    metadata.hasDeclaredStereotype name = other.hasDeclaredStereotype name
  annotationNames : metadata.annotationNames = other.annotationNames
  stereotypeNames : metadata.stereotypeNames = other.stereotypeNames
  declaredAnnotationNames : metadata.declaredAnnotationNames = other.declaredAnnotationNames
  declaredStereotypeNames : metadata.declaredStereotypeNames = other.declaredStereotypeNames
  namesByStereotype : ∀ stereotype,
    metadata.namesByStereotype stereotype = other.namesByStereotype stereotype
  values? : ∀ name, metadata.values? name = other.values? name
  value? : ∀ name member, metadata.value? name member = other.value? name member
  nameOf? : ∀ name member, metadata.nameOf? name member = other.nameOf? name member
  defaultValues? : ∀ name, metadata.defaultValues? name = other.defaultValues? name
  occurrences : ∀ name, metadata.occurrences name = other.occurrences name
  declaredOccurrences : ∀ name,
    metadata.declaredOccurrences name = other.declaredOccurrences name

private theorem answersAlike_of_layers {metadata other : Metadata}
    (layers : metadata.layers = other.layers)
    (declared : metadata.declaredPart? = other.declaredPart?) : metadata.AnswersAlike other := by
  have names : ∀ listed : Store → List String,
      metadata.collectNames listed = other.collectNames listed := by
    intro listed
    rw [collectNames, collectNames, layers]
  have value : ∀ name member, metadata.value? name member = other.value? name member := by
    intro name member
    rw [Metadata.value?, Metadata.value?, layers]
  constructor
  case declaredPart? => exact declared
  case isEmpty => rw [Metadata.isEmpty, Metadata.isEmpty, layers]
  case hasAnnotation => simp only [Metadata.hasAnnotation, layers, implies_true]
  case hasStereotype => simp only [Metadata.hasStereotype, layers, implies_true]
  case hasDeclaredAnnotation =>
    simp only [Metadata.hasDeclaredAnnotation, declared, implies_true]
  case hasDeclaredStereotype =>
    simp only [Metadata.hasDeclaredStereotype, declared, implies_true]
  case annotationNames => exact names _
  case stereotypeNames => exact names _
  case declaredAnnotationNames =>
    rw [Metadata.declaredAnnotationNames, Metadata.declaredAnnotationNames, declared]
  case declaredStereotypeNames =>
    rw [Metadata.declaredStereotypeNames, Metadata.declaredStereotypeNames, declared]
  case namesByStereotype => exact fun _ => names _
  case values? => simp only [Metadata.values?, layers, implies_true]
  case value? => exact value
  case nameOf? => exact fun name member => congrArg (Option.bind · Value.name?) (value name member)
  case defaultValues? => simp only [Metadata.defaultValues?, layers, implies_true]
  case occurrences => simp only [Metadata.occurrences, layers, implies_true]
  case declaredOccurrences => simp only [Metadata.declaredOccurrences, declared, implies_true]

private theorem layers_assoc (parent middle declared : Metadata) :
    (hierarchy parent (hierarchy middle declared)).layers =
      (hierarchy (hierarchy parent middle) declared).layers :=
  List.append_assoc _ _ _

/-! ## Snapshots -/

theorem listing_snapshot {metadata : Metadata}
    (listing : ∀ layer ∈ metadata.layers, layer.Listing) : metadata.snapshot.Listing := by
  induction metadata with
  | empty => exact .empty
  | store data => exact listing data List.mem_cons_self
  | hierarchy parent declared _ declaredIH =>
    have above := declaredIH fun layer listed => listing layer (List.mem_append_left _ listed)
    exact above.absorb parent.snapshot false
  | reference className target targetIH => exact targetIH listing

/-- Metadata that is layered under metadata that is layered itself gives the same snapshot in
either grouping, its text included, and the same answer to every query. -/
theorem layering_assoc {parent middle declared : Metadata}
    (parentListing : ∀ layer ∈ parent.layers, layer.Listing)
    (middleListing : ∀ layer ∈ middle.layers, layer.Listing)
    (declaredListing : ∀ layer ∈ declared.layers, layer.Listing) :
    (hierarchy parent (hierarchy middle declared)).snapshot =
      (hierarchy (hierarchy parent middle) declared).snapshot ∧
    (hierarchy parent (hierarchy middle declared)).snapshot.text =
      (hierarchy (hierarchy parent middle) declared).snapshot.text ∧
    (hierarchy parent (hierarchy middle declared)).AnswersAlike
      (hierarchy (hierarchy parent middle) declared) := by
  have snapshots : (hierarchy parent (hierarchy middle declared)).snapshot =
      (hierarchy (hierarchy parent middle) declared).snapshot :=
    Store.absorb_assoc (listing_snapshot declaredListing) (listing_snapshot middleListing)
      (listing_snapshot parentListing) false
  refine ⟨snapshots, congrArg Store.text snapshots, ?_⟩
  exact answersAlike_of_layers (layers_assoc parent middle declared) rfl

/-- What a class has, with a stereotype and a group. -/
def classPart : Metadata :=
  .reference "bean.Base"
    (.store
      (((Store.empty.write (.occurrence true "bean.Tags" { name := "bean.Tag" })).write
        (.stereotype true ["bean.Named"] "bean.Marked" [("value", .string "class")] .source)).write
          (.defaults "bean.Named" [("value", .string "")])))

/-- What an overridden method has, with the same stereotype. -/
def overriddenPart : Metadata :=
  .store
    ((Store.empty.write (.direct true "bean.Plain" [] .runtime)).write
      (.stereotype true ["bean.Plain"] "bean.Marked" [("level", .long 1)] .runtime))

/-- What a method has, with an annotation that is a stereotype elsewhere. -/
def methodPart : Metadata :=
  .store (Store.empty.write (.direct true "bean.Marked" [("value", .string "method")] .runtime))

theorem methodPart_layered :
    (∀ layer ∈ classPart.layers, layer.Listing) ∧
    (∀ layer ∈ overriddenPart.layers, layer.Listing) ∧
    (∀ layer ∈ methodPart.layers, layer.Listing) ∧
    (hierarchy classPart (hierarchy overriddenPart methodPart)).snapshot =
      (hierarchy (hierarchy classPart overriddenPart) methodPart).snapshot ∧
    (hierarchy classPart (hierarchy overriddenPart methodPart)).namesByStereotype "bean.Marked" =
      ["bean.Marked", "bean.Plain", "bean.Named"] ∧
    (hierarchy (hierarchy classPart overriddenPart) methodPart).namesByStereotype "bean.Marked" =
      ["bean.Marked", "bean.Plain", "bean.Named"] := by
  have classListing : ∀ layer ∈ classPart.layers, layer.Listing := by
    intro layer listed
    cases List.mem_singleton.mp listed
    exact Store.Reachable.listing (.write (.write (.write .empty _) _) _)
  have overriddenListing : ∀ layer ∈ overriddenPart.layers, layer.Listing := by
    intro layer listed
    cases List.mem_singleton.mp listed
    exact Store.Reachable.listing (.write (.write .empty _) _)
  have methodListing : ∀ layer ∈ methodPart.layers, layer.Listing := by
    intro layer listed
    cases List.mem_singleton.mp listed
    exact Store.Reachable.listing (.write .empty _)
  obtain ⟨snapshots, _, alike⟩ := layering_assoc classListing overriddenListing methodListing
  have names : (hierarchy classPart (hierarchy overriddenPart methodPart)).namesByStereotype
      "bean.Marked" = ["bean.Marked", "bean.Plain", "bean.Named"] := by decide
  exact ⟨classListing, overriddenListing, methodListing, snapshots, names,
    (alike.namesByStereotype "bean.Marked").symm.trans names⟩

end AnnotationMetadata.Metadata
