import AnnotationMetadata.Proofs.Session.Outcome
import AnnotationMetadata.Proofs.Store.Layering

set_option autoImplicit false

/-!
# Builds on top of registered metadata

A build for a parent writes on top of what is registered for the element. It takes a store, or
the store that a hierarchy declares, and does not look further: the declared part of a reference
or of a nested hierarchy is left out.
-/

namespace AnnotationMetadata

variable {context : Context} {name : String}

/-! ## Declared annotations stay -/

namespace Store

variable {store : Store}

theorem mem_declaredAnnotationNames_write (write : Write)
    (declared : name ∈ store.declaredAnnotationNames) :
    name ∈ (store.write write).declaredAnnotationNames := by
  rw [declaredAnnotationNames, (write_annotations store write).2]
  exact mem_keys_changeTable.mpr (.inl declared)

private theorem mem_declaredAnnotationNames_record (recording : Recording)
    (declared : name ∈ store.declaredAnnotationNames) :
    name ∈ (store.record recording).declaredAnnotationNames := by
  cases recording with
  | write write => exact mem_declaredAnnotationNames_write write declared
  | promoteScope =>
    show name ∈ store.promoteDefaultScope.declaredAnnotationNames
    rcases promoteDefaultScope_eq store with same | ⟨scope, same⟩
    · rwa [same]
    · rw [same]
      exact mem_declaredAnnotationNames_write _ declared
  | warning => exact declared
  | read => exact declared
  | unfinished => exact declared

private theorem mem_declaredAnnotationNames_recordAll (trace : Trace)
    (declared : name ∈ store.declaredAnnotationNames) :
    name ∈ (store.recordAll trace).declaredAnnotationNames := by
  induction trace generalizing store with
  | nil => exact declared
  | cons recording rest ih => exact ih (mem_declaredAnnotationNames_record recording declared)

theorem hasDeclaredAnnotation_iff :
    store.hasDeclaredAnnotation name = true ↔ name ∈ store.declaredAnnotationNames :=
  Dict.contains_iff

end Store

/-- A store in which something is declared is not taken for empty metadata. -/
private theorem Metadata.hasDeclaredAnnotation_ofStore {store : Store} (formed : store.WellFormed)
    (declared : name ∈ store.declaredAnnotationNames) :
    hasDeclaredAnnotation (ofStore store) name = true := by
  have full : store.isEmpty = false := by
    refine Bool.eq_false_iff.mpr fun empty => ?_
    rw [formed.eq_of_isEmpty empty] at declared
    cases declared
  rw [ofStore_eq_store full]
  exact Store.hasDeclaredAnnotation_iff.mpr declared

/-! ## Builds for a parent -/

/-- Registered metadata whose declared part a build for a parent starts with. -/
inductive Metadata.IsSeed : Metadata → Prop where
  | store (data : Store) : IsSeed (.store data)
  | hierarchy (parent : Metadata) (data : Store) : IsSeed (.hierarchy parent (.store data))

theorem Metadata.IsSeed.declaredPart? {metadata : Metadata} (seed : metadata.IsSeed) :
    metadata.declaredPart? = some (Session.seedOf (some metadata)) ∧
      Session.seedOf (some metadata) ∈ metadata.layers := by
  cases seed with
  | store => exact ⟨rfl, List.mem_cons_self⟩
  | hierarchy => exact ⟨rfl, List.mem_cons_self⟩

private theorem Session.seedOf_of_not_isSeed {metadata : Metadata} (other : ¬ metadata.IsSeed) :
    seedOf (some metadata) = .empty := by
  cases metadata with
  | empty => rfl
  | store data => exact absurd (.store data) other
  | hierarchy parent declared =>
    cases declared with
    | store data => exact absurd (.hierarchy parent data) other
    | empty => rfl
    | hierarchy => rfl
    | reference => rfl
  | reference => rfl

/-- The walk of both hierarchies writes on top of the seed. -/
private theorem exists_seeded_of_build {session : Session} {parent element : Element}
    {metadata : Metadata}
    (built : (session.serve (.buildForParent parent element)).1 = some (.ok metadata))
    (readable : ¬ ((ElementBuild.forParent parent).walk session.context element).HasDefect) :
    ∃ listed, (ElementBuild.forParent parent).hierarchy session.model element = .ok listed ∧
      metadata = .ofStore (((Session.seedOf
        (session.mutation? (session.model.declaringType element) element)).recordAll
          (listed.reverse.flatMap
            (Walk.elementTrace session.context element true))).promoteDefaultScope) := by
  obtain ⟨complete, rfl⟩ := Session.conclude_eq_ok (Option.some.inj built) readable
  obtain ⟨listed, found, trace⟩ := Walk.element_trace complete
  refine ⟨listed, found, ?_⟩
  rw [trace, Store.recordAll_append]
  rfl

/-- A build for a parent declares what the registered metadata declares, when that is a store or
declares one. Any other metadata is not used at all. -/
theorem seeded_build {session : Session} {parent element : Element}
    {registered metadata : Metadata}
    (known : session.mutation? (session.model.declaringType element) element = some registered)
    (reachable : ∀ layer ∈ registered.layers, layer.Reachable)
    (built : (session.serve (.buildForParent parent element)).1 = some (.ok metadata))
    (readable : ¬ ((ElementBuild.forParent parent).walk session.context element).HasDefect) :
    (registered.IsSeed → ∀ name, registered.hasDeclaredAnnotation name = true →
        metadata.hasDeclaredAnnotation name = true) ∧
      (¬ registered.IsSeed → ∃ listed,
        (ElementBuild.forParent parent).hierarchy session.model element = .ok listed ∧
          metadata = .ofStore (hierarchyStore session.context element listed.reverse)) := by
  obtain ⟨listed, found, rfl⟩ := exists_seeded_of_build built readable
  rw [known]
  refine ⟨fun seed name declared => ?_, fun other => ⟨listed, found, ?_⟩⟩
  · obtain ⟨part, layer⟩ := seed.declaredPart?
    unfold Metadata.hasDeclaredAnnotation at declared
    rw [part] at declared
    -- The promotion at the end is one more recording.
    have kept := Store.mem_declaredAnnotationNames_recordAll
      (listed.reverse.flatMap (Walk.elementTrace session.context element true) ++ [.promoteScope])
      (Store.hasDeclaredAnnotation_iff.mp declared)
    have written := (reachable _ layer).recordAll
      (listed.reverse.flatMap (Walk.elementTrace session.context element true) ++ [.promoteScope])
    rw [Store.recordAll_append] at kept written
    exact Metadata.hasDeclaredAnnotation_ofStore written.wellFormed kept
  · rw [Session.seedOf_of_not_isSeed other]
    rfl

/-- A field and another one that it is built under. -/
def shadowedContext : Context where
  model :=
    { document :=
        { elements :=
            [("bean.Base.field",
                { kind := .field
                  declaringType := some "bean.Base"
                  annotations := [{ name := "bean.Service" }] }),
              ("bean.field", { kind := .field, declaringType := some "bean.Bean" })] } }

/-- The session in which the metadata is registered for the field. -/
def shadowedSession (registered : Metadata) : Session :=
  (Session.fresh shadowedContext).addMutation "bean.Bean" (.declaration "bean.field") registered

theorem shadowedContext_seeded :
    ∃ registered metadata : Metadata,
      ((Session.fresh shadowedContext).serve (.annotate .empty { name := "bean.Extra" })).1 =
        some (.ok registered) ∧
      ((shadowedSession registered).serve
        (.buildForParent (.declaration "bean.Base.field") (.declaration "bean.field"))).1 =
          some (.ok metadata) ∧
      metadata.hasDeclaredAnnotation "bean.Extra" = true := by
  have reachable : ∀ layer ∈
      (Metadata.store (Store.empty.write (.direct true "bean.Extra" [] .runtime))).layers,
      layer.Reachable := by
    intro layer listed
    cases List.mem_singleton.mp listed
    exact .write .empty _
  have built : ((shadowedSession (.store (Store.empty.write (.direct true "bean.Extra" []
      .runtime)))).serve (.buildForParent (.declaration "bean.Base.field")
        (.declaration "bean.field"))).1 = some (.ok _) := rfl
  obtain ⟨kept, _⟩ := seeded_build (by rfl) reachable built fun ⟨_, defect⟩ => nomatch defect
  exact ⟨_, _, rfl, rfl, kept (.store _) "bean.Extra" rfl⟩

/-- Annotating puts the new part under a reference that a hierarchy declares. What is declared
there is lost when the field is built. -/
theorem shadowedContext_unseeded :
    ∃ registered metadata : Metadata,
      ((Session.fresh shadowedContext).serve
        (.annotate (.hierarchy .empty (.reference "bean.Other" .empty))
          { name := "bean.Extra" })).1 = some (.ok registered) ∧
      registered.hasDeclaredAnnotation "bean.Extra" = true ∧
      ((shadowedSession registered).serve
        (.buildForParent (.declaration "bean.Base.field") (.declaration "bean.field"))).1 =
          some (.ok metadata) ∧
      metadata.annotationNames = ["bean.Service"] ∧
      metadata.hasDeclaredAnnotation "bean.Extra" = false :=
  ⟨_, _, rfl, rfl, rfl, rfl, rfl⟩

end AnnotationMetadata
