import AnnotationMetadata.Proofs.Session.DeclaredPart
import AnnotationMetadata.Proofs.Store.Recorded

set_option autoImplicit false

/-!
# The store of a hierarchy

A build without a defect holds what the walks of the elements of a hierarchy
record, the most general element first. Each member of an annotation or stereotype
is what the changes along the hierarchy make of it.
-/

namespace AnnotationMetadata

variable {context : Context}

/-- What the walk of a hierarchy makes of an empty store. -/
def hierarchyStore (context : Context) (target : Element) (hierarchy : List Element) : Store :=
  (Store.empty.recordAll
    (hierarchy.flatMap (Walk.elementTrace context target true))).promoteDefaultScope

/-- The scope that a build of the element promotes. -/
def promotedScope? (context : Context) (element : Element) : Option String :=
  match context.model.hierarchy element true false with
  | .ok hierarchy =>
    (Store.empty.recordAll (hierarchy.reverse.flatMap
      (Walk.elementTrace context element true))).promotedScope?
  | .error _ => none

theorem promotedScope?_of_hierarchy {element : Element} {hierarchy : List Element}
    (listed : context.model.hierarchy element true false = .ok hierarchy) :
    promotedScope? context element = (Store.empty.recordAll (hierarchy.reverse.flatMap
      (Walk.elementTrace context element true))).promotedScope? := by
  unfold promotedScope?
  rw [listed]

namespace ElementBuild

theorem all_walk {element : Element} {hierarchy : List Element}
    (listed : context.model.hierarchy element true false = .ok hierarchy) :
    all.walk context element = Walk.elements context element true hierarchy.reverse := by
  have combined : Walk.combinedHierarchy context.model none element all.options =
      .ok hierarchy := by
    simp only [Walk.combinedHierarchy, options, listed]
    rfl
  simp only [walk, parent?, Walk.element, combined]
  rfl

private theorem serve_all {session : Session} {element : Element} {hierarchy : List Element}
    (unregistered : session.mutation? (session.model.declaringType element) element = none)
    (listed : session.model.hierarchy element true false = .ok hierarchy) :
    (session.serve (.build element)).1 =
      some (session.conclude element .empty
        (Walk.elements session.context element true hierarchy.reverse)).1 := by
  rw [← all_walk listed]
  exact serve_request unregistered .all

/-- A fresh session has registered no metadata. -/
theorem serve_all_fresh {element : Element} {hierarchy : List Element}
    (listed : context.model.hierarchy element true false = .ok hierarchy) :
    ((Session.fresh context).serve (.build element)).1 =
      some ((Session.fresh context).conclude element .empty
        (Walk.elements context element true hierarchy.reverse)).1 :=
  serve_all rfl listed

end ElementBuild

theorem exists_hierarchyStore_of_build {session : Session} {element : Element}
    {metadata : Metadata}
    (unregistered : session.mutation? (session.model.declaringType element) element = none)
    (built : (session.serve (.build element)).1 = some (.ok metadata))
    (readable : ¬ (ElementBuild.all.walk session.context element).HasDefect) :
    ∃ hierarchy, session.model.hierarchy element true false = .ok hierarchy ∧
      metadata = .ofStore (hierarchyStore session.context element hierarchy.reverse) := by
  have answer : (session.serve (ElementBuild.all.request element)).1 = some (.ok metadata) := built
  rw [ElementBuild.serve_request unregistered] at answer
  obtain ⟨complete, rfl⟩ := Session.conclude_eq_ok (Option.some.inj answer) readable
  obtain ⟨hierarchy, combined, trace⟩ := Walk.element_trace complete
  obtain ⟨own, found, same⟩ := Model.exists_of_bind_eq_ok combined
  cases same
  refine ⟨hierarchy, found, ?_⟩
  rw [ElementBuild.walk, trace, Store.recordAll_append]
  rfl

/-! ## Members -/

/-- What the walk of an element does to a member in one of the tables. -/
def Walk.memberChanges (context : Context) (target : Element)
    (changed : Store.Write → Option (Bool × Store.TableChange)) (name member : String)
    (current : Element) : List Store.MemberChange :=
  (Walk.elementTrace context target true current).flatMap fun recording =>
    Store.memberChanges name member (recording.changes false changed)

theorem memberOf?_annotations_hierarchyStore (target : Element) (hierarchy : List Element)
    (name member : String) :
    Store.memberOf? (hierarchyStore context target hierarchy).annotations name member =
      Store.changedMember
        (hierarchy.flatMap
          (Walk.memberChanges context target Store.Write.annotation? name member)) none := by
  rw [hierarchyStore, Store.memberOf?_promoteDefaultScope,
    Store.memberOf?_recordAll (fun store write => (store.write_annotations write).1)
      Walk.promoteScope_not_mem_flatMap, List.flatMap_assoc]
  rfl

theorem memberOf?_stereotypes_hierarchyStore (target : Element) (hierarchy : List Element)
    (name member : String) :
    Store.memberOf? (hierarchyStore context target hierarchy).stereotypes name member =
      Store.changedMember
        (hierarchy.flatMap
          (Walk.memberChanges context target Store.Write.stereotype? name member)) none := by
  rw [hierarchyStore, (Store.promoteDefaultScope_keeps _).1,
    Store.memberOf?_recordAll (fun store write => (store.write_stereotypes write).1)
      Walk.promoteScope_not_mem_flatMap, List.flatMap_assoc]
  rfl

end AnnotationMetadata
