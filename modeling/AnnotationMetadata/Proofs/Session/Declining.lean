import AnnotationMetadata.Proofs.Session.Registry
import AnnotationMetadata.Proofs.Walk.Declining

set_option autoImplicit false

/-!
# Sessions with more remappers

A session answers every request as before when its registry gets redundant remappers
that decline, and goes on as before.
-/

namespace AnnotationMetadata

namespace Session

section Added

variable {session : Session} {given : List Annotation} {more : Registry}
  (adds : session.context.AddsDecliners given more)
  (redundant : session.context.AddsRedundant given more)

include adds redundant

private theorem conclude_withRegistry (element : Element) (seed : Store) (walk : ElementWalk) :
    (session.withRegistry more).conclude element seed walk =
      ((session.conclude element seed walk).1,
        (session.conclude element seed walk).2.withRegistry more) :=
  conclude_of_treatsAlike (adds.treatsAlike redundant) element seed walk

theorem buildFresh_withRegistry (parent : Option Element) (element : Element) (seed : Store)
    {options : BuildOptions} (aliases : options.aliases = true) :
    (session.withRegistry more).buildFresh parent element seed options =
      ((session.buildFresh parent element seed options).1,
        (session.buildFresh parent element seed options).2.withRegistry more) :=
  buildFresh_of_treatsAlike (adds.treatsAlike redundant) parent element seed aliases

theorem buildUnlessMutated_withRegistry (declaringType : String) (element : Element)
    {options : BuildOptions} (aliases : options.aliases = true) :
    (session.withRegistry more).buildUnlessMutated declaringType element options =
      ((session.buildUnlessMutated declaringType element options).1,
        (session.buildUnlessMutated declaringType element options).2.withRegistry more) :=
  buildUnlessMutated_of_treatsAlike (adds.treatsAlike redundant) declaringType element aliases

private theorem givenWalk_withRegistry (element : Element) (includeElement : Bool) :
    givenWalk (session.withRegistry more).context element given includeElement =
      givenWalk session.context element given includeElement :=
  givenWalk_of_treatsAlike (adds.treatsAlike redundant) element includeElement

private theorem annotate_withRegistry (metadata : Metadata) (occurrence : Annotation) :
    (session.withRegistry more).annotate metadata occurrence =
      ((session.annotate metadata occurrence).1,
        (session.annotate metadata occurrence).2.withRegistry more) :=
  annotate_of_treatsAlike (adds.treatsAlike redundant) metadata occurrence

end Added

end Session

/-- Remappers that are added and decline whatever they are asked about change neither the
answer to a request nor what the session knows then, provided that they are redundant:
wherever one is added, the remappers that were there decline too, without a transformer
to fall back on, or one of them keeps the annotation before it. -/
theorem declining_remappers_are_invisible {session : Session} {request : Request}
    {more : Registry} (adds : session.context.AddsDecliners request.given more)
    (redundant : session.context.AddsRedundant request.given more) :
    (session.withRegistry more).serve request =
      ((session.serve request).1, (session.serve request).2.withRegistry more) := by
  have answered : ∀ {built there : Session.Built}, there = (built.1, built.2.withRegistry more) →
      Session.answered there =
        ((Session.answered built).1, (Session.answered built).2.withRegistry more) := by
    rintro built _ rfl
    rfl
  cases request with
  | build element =>
    exact answered (Session.buildUnlessMutated_withRegistry adds redundant _ element rfl)
  | buildWithDeclaringType declaringType element =>
    exact answered
      (Session.buildUnlessMutated_withRegistry adds redundant declaringType element rfl)
  | buildDeclared element =>
    exact answered (Session.buildFresh_withRegistry adds redundant none element .empty rfl)
  | buildOverridden element =>
    exact answered (Session.buildUnlessMutated_withRegistry adds redundant _ element rfl)
  | buildForMethod element =>
    exact answered (Session.buildUnlessMutated_withRegistry adds redundant _ element rfl)
  | buildGiven element annotations includeElement =>
    refine answered ?_
    unfold Session.buildGiven
    split
    · rfl
    · have walked := Session.givenWalk_withRegistry adds redundant element includeElement
      simp only [Request.given] at walked
      rw [walked]
      exact Session.conclude_withRegistry adds redundant element .empty _
  | buildForParent parent element =>
    exact answered (Session.buildFresh_withRegistry adds redundant (some parent) element _ rfl)
  | buildForParentWithDeclaringType declaringType parent element =>
    exact answered (Session.buildFresh_withRegistry adds redundant (some parent) element _ rfl)
  | buildForParentInheriting parent element inheritTypes =>
    exact answered (Session.buildFresh_withRegistry adds redundant (some parent) element _ rfl)
  | annotate metadata occurrence =>
    exact answered (Session.annotate_withRegistry adds redundant metadata occurrence)
  | addMutation declaringType element metadata => rfl
  | clearMutations => rfl

/-- An annotation that is renamed, one of a package that is moved and one that stays. -/
def renamedContext : Context where
  registry := .ofExtensions [.rename "old.Name" "new.Name", .movePackage "moved" "new"]
  model :=
    { document :=
        { elements :=
            [("new.field",
                { kind := .field
                  annotations :=
                    [{ name := "old.Name" }, { name := "moved.Tag" },
                      { name := "kept.Tag" }] })] } }

private theorem renamedContext_transformers {name : String} (other : name ≠ "old.Name") :
    renamedContext.registry.transformers name = [] := by
  have unlisted : ¬ "old.Name" = name := fun same => other same.symm
  simp [renamedContext, Registry.ofExtensions, Registry.register, Extension.rename,
    Extension.movePackage, Extension.key, Registry.addTo, Dict.alter, Dict.get?_insert,
    Registry.transformers, Registry.empty, Dict.get?, unlisted]

/-- A remapper that declines is invisible in a package that nothing else is asked about. -/
theorem renamedContext_declined :
    ((Session.fresh renamedContext).withRegistry
        (renamedContext.registry.register (.remapper "kept" .decline))).serve
        (.buildDeclared (.declaration "new.field")) =
      (((Session.fresh renamedContext).serve (.buildDeclared (.declaration "new.field"))).1,
        ((Session.fresh renamedContext).serve
          (.buildDeclared (.declaration "new.field"))).2.withRegistry
            (renamedContext.registry.register (.remapper "kept" .decline))) := by
  refine declining_remappers_are_invisible ?adds ?redundant
  case adds => exact Context.addsDecliners_register (by decide) (fun _ _ => rfl) _
  case redundant =>
    refine Context.addsRedundant_register (by decide) _ rfl fun name named => ?_
    refine renamedContext_transformers ?_
    rintro rfl
    revert named
    decide

/-- Where it is asked instead of a transformer, or besides a remapper that moves the
annotation, the annotation itself is kept. -/
theorem renamedContext_kept :
    (∀ packageName, packageName = "old" ∨ packageName = "moved" →
      renamedContext.AddsDecliners []
        (renamedContext.registry.register (.remapper packageName .decline))) ∧
    ∃ metadata old moved : Metadata,
      ((Session.fresh renamedContext).serve (.buildDeclared (.declaration "new.field"))).1 =
        some (.ok metadata) ∧
      (((Session.fresh renamedContext).withRegistry
        (renamedContext.registry.register (.remapper "old" .decline))).serve
          (.buildDeclared (.declaration "new.field"))).1 = some (.ok old) ∧
      (((Session.fresh renamedContext).withRegistry
        (renamedContext.registry.register (.remapper "moved" .decline))).serve
          (.buildDeclared (.declaration "new.field"))).1 = some (.ok moved) ∧
      metadata.annotationNames = ["new.Name", "new.Tag", "kept.Tag"] ∧
      old.annotationNames = ["old.Name", "new.Tag", "kept.Tag"] ∧
      moved.annotationNames = ["new.Name", "new.Tag", "moved.Tag", "kept.Tag"] := by
  refine ⟨fun packageName either => ?_, _, _, _, rfl, rfl, rfl, rfl, rfl, rfl⟩
  refine Context.addsDecliners_register ?_ (fun _ _ => rfl) []
  rcases either with rfl | rfl <;> decide

end AnnotationMetadata
