import AnnotationMetadata.Proofs.Session.Outcome
import AnnotationMetadata.Proofs.Walk.ExcludedPackages

set_option autoImplicit false

/-!
# Excluded packages in built metadata

Which annotations of excluded packages stereotypes can be indexed under.
-/

namespace AnnotationMetadata

variable {context : Context}

/-- In all layers, stereotypes are indexed only under such annotations. -/
def Metadata.IndexedBy (metadata : Metadata) (P : String → Prop) : Prop :=
  ∀ layer ∈ metadata.layers, layer.IndexedBy P

theorem Metadata.indexedBy_ofStore {store : Store} {P : String → Prop}
    (indexed : store.IndexedBy P) : (Metadata.ofStore store).IndexedBy P := by
  unfold Metadata.ofStore
  split
  · exact fun _ none => nomatch none
  · intro layer listed
    cases List.mem_singleton.mp listed
    exact indexed

/-- Without extensions, stereotypes in built metadata are indexed under an annotation of an
excluded package only if another annotation leads to it or it has an alias for another one;
and when an annotation is added to empty metadata, only if it is that one or another annotation
leads to it. -/
theorem excluded_parents {session : Session} (empty : session.context.registry = .empty) :
    (∀ (kind : ElementBuild) element metadata,
      session.mutation? (session.model.declaringType element) element = none →
      (session.serve (kind.request element)).1 = some (.ok metadata) →
        metadata.IndexedBy (Walk.LeadsOn session.context session.model.AliasesAnother)) ∧
    ∀ occurrence, ∃ metadata,
      (session.serve (.annotate .empty occurrence)).1 = some (.ok metadata) ∧
        metadata.IndexedBy (Walk.LeadsOn session.context (· = occurrence.name)) := by
  refine ⟨?_, ?_⟩
  · intro kind element metadata unregistered built
    rcases ElementBuild.eq_empty_or_hierarchyStore unregistered built with rfl | ⟨listed, _, rfl⟩
    · exact fun _ none => nomatch none
    · refine Metadata.indexedBy_ofStore (Store.IndexedBy.promoteDefaultScope ?_)
      refine Store.IndexedBy.empty.recordAll fun recording recorded => ?_
      obtain ⟨current, _, walked⟩ := List.mem_flatMap.mp recorded
      exact Walk.elementTrace_indexesOnly empty walked
  · intro occurrence
    refine ⟨_, session.serve_annotate (.of_empty empty) .empty occurrence, ?_⟩
    refine Metadata.indexedBy_ofStore (Store.IndexedBy.empty.recordAll ?_)
    exact fun _ => Walk.added_indexesOnly empty

/-- An annotation of an excluded package that stands on an annotation type. -/
def managedContext : Context where
  model :=
    { document :=
        { annotations :=
            [("bean.Outer", { annotations := [{ name := "javax.annotation.Managed" }] }),
              ("javax.annotation.Managed", { annotations := [{ name := "bean.Inner" }] })]
          elements :=
            [("bean.outer", { kind := .field, annotations := [{ name := "bean.Outer" }] }),
              ("bean.managed",
                { kind := .field, annotations := [{ name := "javax.annotation.Managed" }] })] } }

theorem managedContext_led :
    ∃ metadata : Metadata,
      ((Session.fresh managedContext).serve (.build (.declaration "bean.outer"))).1 =
        some (.ok metadata) ∧
      "javax.annotation.Managed" ∈ metadata.namesByStereotype "bean.Inner" ∧
      Walk.LedTo managedContext "javax.annotation.Managed" := by
  have empty : (Session.fresh managedContext).context.registry = .empty := rfl
  obtain ⟨builds, _⟩ := excluded_parents empty
  have leads := builds .all (.declaration "bean.outer") _ rfl rfl _ List.mem_cons_self
    ("bean.Inner", ["bean.Outer", "javax.annotation.Managed"]) (by decide)
    "javax.annotation.Managed" (by decide)
  refine ⟨_, rfl, by decide, ?_⟩
  rcases leads (by decide) with ⟨member, found, listed, _⟩ | led
  · have unaliased : (Session.fresh managedContext).model.aliasesOf
        (.member "javax.annotation.Managed" member) = [] := rfl
    rw [unaliased] at listed
    cases listed
  · exact led

/-- On a field the annotation of the excluded package is not walked. On an annotation type it
is, and so it is when it is added. -/
theorem managedContext_walked :
    managedContext.registry = .empty ∧
    managedContext.config.isStereotypeExcluded
      (Name.packageOf "javax.annotation.Managed") = true ∧
    (∃ metadata : Metadata,
      ((Session.fresh managedContext).serve (.build (.declaration "bean.managed"))).1 =
        some (.ok metadata) ∧
      metadata.stereotypeNames = []) ∧
    (∃ metadata : Metadata,
      ((Session.fresh managedContext).serve (.build (.declaration "bean.outer"))).1 =
        some (.ok metadata) ∧
      metadata.namesByStereotype "bean.Inner" = ["bean.Outer", "javax.annotation.Managed"]) ∧
    ∃ metadata : Metadata,
      ((Session.fresh managedContext).serve
        (.annotate .empty { name := "javax.annotation.Managed" })).1 = some (.ok metadata) ∧
      metadata.namesByStereotype "bean.Inner" = ["javax.annotation.Managed"] :=
  ⟨rfl, by decide, ⟨_, rfl, rfl⟩, ⟨_, rfl, rfl⟩, _, rfl, rfl⟩

end AnnotationMetadata
