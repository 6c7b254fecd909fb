import AnnotationMetadata.Proofs.Session.HardReplacement
import AnnotationMetadata.Proofs.Session.Outcome
import AnnotationMetadata.Proofs.Store.Layering
import AnnotationMetadata.Proofs.Walk.RecordedNames

set_option autoImplicit false

/-!
# Internal annotations in built metadata

Occurrences of internal annotations are left out wherever they stand. An internal name is
recorded all the same when it is not an occurrence that brings it in: as the container of
another annotation, the target of an alias, the group of interceptor bindings or a promoted
scope.
-/

namespace AnnotationMetadata

variable {context : Context} {name : String}

/-! ## Declared names -/

theorem Store.Covers.mem_keys {table part : Dict Members} (covers : Covers table part)
    (listed : name ∈ Dict.keys part) : name ∈ Dict.keys table := by
  obtain ⟨entry, stands, rfl⟩ := List.mem_map.mp listed
  obtain ⟨present, found, _⟩ := covers entry stands
  exact Dict.mem_keys_iff.mpr ⟨present, found⟩

namespace Metadata

variable {store : Store}

theorem mem_of_declared_ofStore {names : Store → List String}
    (listed : name ∈ ((ofStore store).declaredPart?.map names).getD []) : name ∈ names store := by
  unfold ofStore at listed
  split at listed
  · cases listed
  · exact listed

/-- All annotations and stereotypes that metadata of a store lists, or lists as declared, are
in the tables of the store. -/
theorem mem_names_of_ofStore (formed : store.WellFormed) :
    (name ∈ (ofStore store).annotationNames ∨ name ∈ (ofStore store).declaredAnnotationNames →
        name ∈ store.annotationNames) ∧
      (name ∈ (ofStore store).stereotypeNames ∨ name ∈ (ofStore store).declaredStereotypeNames →
        name ∈ store.stereotypeNames) := by
  refine ⟨?_, ?_⟩
  · rintro (listed | declared)
    · exact mem_annotationNames_ofStore.mp listed
    · exact formed.annotations.mem_keys (mem_of_declared_ofStore declared)
  · rintro (listed | declared)
    · exact mem_stereotypeNames_ofStore.mp listed
    · exact formed.stereotypes.mem_keys (mem_of_declared_ofStore declared)

end Metadata

private theorem hierarchyStore_wellFormed (target : Element) (hierarchy : List Element) :
    (hierarchyStore context target hierarchy).WellFormed := by
  have reachable := Store.Reachable.empty.recordAll
    (hierarchy.flatMap (Walk.elementTrace context target true) ++ [.promoteScope])
  rw [Store.recordAll_append] at reachable
  exact reachable.wellFormed

/-! ## Names without occurrences -/

/-- A name that the walk of a hierarchy records as an annotation, even though no occurrence
has it. -/
inductive AnnotationAnyway (context : Context) (target : Element) (hierarchy : List Element)
    (name : String) : Prop where
  | container {current : Element} {occurrence : Annotation} (listed : current ∈ hierarchy)
      (recorded : occurrence ∈ Walk.recordedOn context current)
      (grouped : context.model.containerOf? occurrence.name = some name) :
      AnnotationAnyway context target hierarchy name
  | bindings (same : name = Name.interceptorBindings) :
      AnnotationAnyway context target hierarchy name
  | scope (promoted : (Store.empty.recordAll (hierarchy.flatMap
      (Walk.elementTrace context target true))).promotedScope? = some name) :
      AnnotationAnyway context target hierarchy name

/-- A name that walks record as a stereotype, even though no occurrence has it. -/
inductive StereotypeAnyway (context : Context) (name : String) : Prop where
  | container {item : String} (led : Walk.LedTo context item)
      (grouped : context.model.containerOf? item = some name) : StereotypeAnyway context name
  | target (aliased : context.model.IsAliasTarget name) : StereotypeAnyway context name

section Internal

variable (empty : context.registry = .empty) (internal : context.config.isInternal name = true)

include empty internal

private theorem annotationAnyway_of_internal {target : Element} {hierarchy : List Element}
    (listed : name ∈ (hierarchyStore context target hierarchy).annotationNames) :
    AnnotationAnyway context target hierarchy name := by
  rcases Store.mem_annotationNames_promoteDefaultScope_iff.mp listed with written | promoted
  · obtain ⟨current, among, ⟨occurrence, recorded, rfl⟩ | same⟩ :=
      Store.annotations_of_namesOnly (fun _ => Walk.namesOnly_of_mem_hierarchy empty)
        Walk.promoteScope_not_mem_flatMap written
    · cases grouped : context.model.containerOf? occurrence.name with
      | some container =>
        rw [Model.recordedAs_of_grouped grouped]
        exact .container among recorded grouped
      | none =>
        -- Under its own name an occurrence is recorded only if it is not internal.
        have shown := (List.mem_filter.mp recorded).2
        rw [Model.recordedAs_of_ungrouped grouped] at internal
        simp [internal] at shown
    · exact .bindings same
  · exact .scope promoted

private theorem stereotypeAnyway_of_internal {target : Element} {hierarchy : List Element}
    (listed : name ∈ (hierarchyStore context target hierarchy).stereotypeNames) :
    StereotypeAnyway context name := by
  rw [hierarchyStore, Store.stereotypeNames, (Store.promoteDefaultScope_keeps _).1] at listed
  obtain ⟨item, led, rfl⟩ := Store.stereotypes_of_namesOnly
    (fun _ => Walk.namesOnly_of_mem_hierarchy empty) Walk.promoteScope_not_mem_flatMap listed
  cases grouped : context.model.containerOf? item with
  | some container =>
    rw [Model.recordedAs_of_grouped grouped]
    exact .container led grouped
  | none =>
    rw [Model.recordedAs_of_ungrouped grouped] at internal ⊢
    cases led with
    | carried _ _ recorded => cases internal.symm.trans recorded
    | aliased aliased => exact .target aliased

end Internal

/-- Without extensions, built metadata holds an internal annotation only as the container of
another one, the group of interceptor bindings or a promoted scope, and an internal stereotype
only as a container or the target of an alias. -/
theorem internal_names_of_build {session : Session} {kind : ElementBuild} {element : Element}
    {metadata : Metadata} (empty : session.context.registry = .empty)
    (unregistered : session.mutation? (session.model.declaringType element) element = none)
    (built : (session.serve (kind.request element)).1 = some (.ok metadata))
    (internal : session.context.config.isInternal name = true) :
    (name ∈ metadata.annotationNames ∨ name ∈ metadata.declaredAnnotationNames →
        ∃ listed, kind.hierarchy session.model element = .ok listed ∧
          AnnotationAnyway session.context element listed.reverse name) ∧
      (name ∈ metadata.stereotypeNames ∨ name ∈ metadata.declaredStereotypeNames →
        StereotypeAnyway session.context name) := by
  rcases ElementBuild.eq_empty_or_hierarchyStore unregistered built with rfl | ⟨listed, found, rfl⟩
  · exact ⟨fun either => either.elim nofun nofun, fun either => either.elim nofun nofun⟩
  · have formed : (hierarchyStore session.context element listed.reverse).WellFormed :=
      hierarchyStore_wellFormed element listed.reverse
    obtain ⟨annotations, stereotypes⟩ := Metadata.mem_names_of_ofStore formed
    refine ⟨fun either => ⟨listed, found, ?_⟩, fun either => ?_⟩
    · exact annotationAnyway_of_internal empty internal (annotations either)
    · exact stereotypeAnyway_of_internal empty internal (stereotypes either)

/-- An internal annotation stands on a field, next to one with a member that is an alias for
it. -/
def innerContext : Context where
  config := { internalAnnotations := ["bean.Inner"] }
  model :=
    { document :=
        { annotations :=
            [("bean.Named",
                { members :=
                    [("name",
                        { annotations :=
                            [{ name := Name.aliasFor
                               members :=
                                [("annotation", .string "bean.Inner"),
                                  ("member", .string Name.valueMember)] }] })] })]
          elements :=
            [("bean.field",
                { kind := .field
                  annotations :=
                    [{ name := "bean.Inner", members := [(Name.valueMember, .string "own")] },
                      { name := "bean.Named", members := [("name", .string "x")] }] })] } }

theorem innerContext_aliased :
    ∃ metadata : Metadata,
      ((Session.fresh innerContext).serve (.buildDeclared (.declaration "bean.field"))).1 =
        some (.ok metadata) ∧
      metadata.stereotypeNames = ["bean.Inner"] ∧ "bean.Inner" ∉ metadata.annotationNames ∧
      innerContext.model.IsAliasTarget "bean.Inner" := by
  have built : ((Session.fresh innerContext).serve (ElementBuild.declared.request
      (.declaration "bean.field"))).1 = some (.ok _) := rfl
  have internal : (Session.fresh innerContext).context.config.isInternal "bean.Inner" = true := rfl
  obtain ⟨_, stereotypes⟩ := internal_names_of_build rfl rfl built internal
  refine ⟨_, rfl, rfl, by decide, ?_⟩
  cases stereotypes (.inl (by decide)) with
  | container _ grouped => cases Model.isContainer_of_containerOf? grouped
  | target aliased => exact aliased

/-- The occurrence on the field is left out, and the alias still makes the annotation a declared
stereotype. -/
theorem innerContext_recorded :
    innerContext.registry = .empty ∧ innerContext.config.isInternal "bean.Inner" = true ∧
      ∃ metadata : Metadata,
        ((Session.fresh innerContext).serve (.buildDeclared (.declaration "bean.field"))).1 =
          some (.ok metadata) ∧
        metadata.declaredAnnotationNames = ["bean.Named"] ∧
        metadata.declaredStereotypeNames = ["bean.Inner"] :=
  ⟨rfl, by decide, _, rfl, rfl, rfl⟩

end AnnotationMetadata
