import AnnotationMetadata.Proofs.Model.Supertypes
import AnnotationMetadata.Proofs.Session.HierarchyStore
import AnnotationMetadata.Proofs.Walk.Recordings

set_option autoImplicit false

/-!
# Inherited annotations

Annotations are written from the end of a hierarchy to its front and replace what is
there, so the first element of the list that writes a member decides its value. For
a class this is a most derived one as long as the list is ordered that way.
-/

namespace AnnotationMetadata

/-- Without extensions, only occurrences of the annotation itself write its members. -/
structure Context.WrittenAlone (context : Context) (name : String) : Prop where
  registry : context.registry = .empty
  ungrouped : context.model.containerOf? name = none
  groupless : context.model.isContainer name = false
  unbound : name ≠ Name.interceptorBindings

variable {context : Context} {name member : String}

namespace Walk

/-- The value that the annotations on an element give a member of an annotation. -/
def written? (context : Context) (name member : String) (current : Element) : Option Value :=
  (recordedOn context current).reverse.findSome? fun occurrence =>
    if occurrence.name = name then (context.model.reading true occurrence).value? member else none

private theorem changes_occurrenceWrite (alone : context.WrittenAlone name) (declared : Bool)
    (occurrence : Annotation) (found : Option Value) :
    Store.changedMember
        (Store.memberChanges name member
          ((occurrenceWrite context declared true occurrence).changes false
            Store.Write.annotation?))
        found =
      (if occurrence.name = name then (context.model.reading true occurrence).value? member
      else none).or found := by
  cases grouped : context.model.containerOf? occurrence.name with
  | none =>
    rw [occurrenceWrite, grouped, Placement.writeIn, Placement.write,
      Store.memberChanges_write rfl, Model.reading]
    split
    · exact Store.changedMember_setMembers (Model.nodup_reading _ true occurrence) member found
    · rfl
  | some container =>
    -- A repeatable occurrence is written to its group, which is another annotation.
    have other : occurrence.name ≠ name := by
      rintro rfl
      cases grouped.symm.trans alone.ungrouped
    have elsewhere : container ≠ name := by
      rintro rfl
      cases (Model.isContainer_of_containerOf? grouped).symm.trans alone.groupless
    rw [occurrenceWrite, grouped, Placement.writeIn, Placement.writeOccurrence,
      Store.memberChanges_write rfl, if_neg elsewhere, if_neg other]
    rfl

private theorem unchanged_of_ofMeta (alone : context.WrittenAlone name) {recording : Recording}
    (ofMeta : recording.OfMeta context.model) :
    Store.memberChanges name member (recording.changes false Store.Write.annotation?) = [] := by
  cases ofMeta with
  | binding => rw [Store.memberChanges_write rfl, if_neg alone.unbound.symm]
  | defaults => rfl
  | stereotype => rfl
  | grouped => rfl
  | read => rfl
  | unfinished => rfl

private theorem changedMember_memberChanges (alone : context.WrittenAlone name)
    (target current : Element) (found : Option Value) :
    Store.changedMember
        (memberChanges context target Store.Write.annotation? name member current) found =
      (written? context name member current).or found := by
  rw [memberChanges, flatMap_elementTrace alone.registry (fun _ _ => rfl)
    (fun _ ofMeta => unchanged_of_ofMeta alone ofMeta)]
  exact Store.changedMember_flatMap_set
    (fun occurrence _ => changes_occurrenceWrite alone (current == target) occurrence) found

end Walk

theorem memberOf?_hierarchyStore_of_writtenAlone (alone : context.WrittenAlone name)
    (target : Element) (hierarchy : List Element) :
    Store.memberOf? (hierarchyStore context target hierarchy.reverse).annotations name member =
      hierarchy.findSome? (Walk.written? context name member) := by
  rw [memberOf?_annotations_hierarchyStore, Store.changedMember_flatMap_set
    (fun current _ => Walk.changedMember_memberChanges alone target current), Option.or_none,
    List.reverse_reverse]

/-! ## Classes -/

/-- In a list that is most derived first, nothing extends the first writer and writes
the member as well. -/
private theorem Model.MostDerivedFirst.findSome?_eq_some {model : Model} {names : List String}
    (ordered : model.MostDerivedFirst names) {write : String → Option Value} {value : Value}
    (first : names.findSome? write = some value) :
    ∃ writer ∈ names, write writer = some value ∧ ∀ other ∈ names, (write other).isSome →
      ¬ Relation.TransGen model.Extends other writer := by
  obtain ⟨before, writer, after, rfl, writes, silent⟩ := List.findSome?_eq_some_iff.mp first
  refine ⟨writer, by simp, writes, ?_⟩
  intro other member written extended
  have earlier := ordered other member writer extended
  have fresh : writer ∉ before := fun listed => by
    rw [silent writer listed] at writes
    cases writes
  rw [List.idxOf_append_of_notMem fresh, List.idxOf_cons_self] at earlier
  have listed : other ∈ before := by
    rw [List.idxOf_append] at earlier
    split at earlier
    · assumption
    · omega
  rw [silent other listed] at written
  cases written

/-- A class whose supertypes are all declared is listed with them, each after some class
that extends it. The first of them that writes a member of an annotation decides the
value. Without cycles and shared supertypes the list is most derived first, and the
value then never comes from a supertype of another class that writes the member. -/
theorem inherited_annotations_of_class {session : Session} {className : String}
    {declaration : ElementDeclaration} {metadata : Metadata}
    (found : session.model.declaration? className = some declaration)
    (isClass : declaration.kind = .classType)
    (resolved : ∀ supertype, Relation.ReflTransGen session.model.Extends className supertype →
      (session.model.declaration? supertype).isSome)
    (alone : session.context.WrittenAlone name)
    (unregistered : session.mutation? (session.model.declaringType (.declaration className))
      (.declaration className) = none)
    (built : (session.serve (.build (.declaration className))).1 = some (.ok metadata))
    (readable : ¬ (ElementBuild.all.walk session.context (.declaration className)).HasDefect) :
    ∃ names, session.model.hierarchy (.declaration className) true false =
        .ok (names.map .declaration) ∧
      session.model.ListsSupertypes className names ∧
      ((∀ other ∈ names, ¬ Relation.TransGen session.model.Extends other other) →
        (∀ first ∈ names, ∀ second ∈ names, ∀ supertype,
          session.model.Extends first supertype → session.model.Extends second supertype →
            first = second) → session.model.MostDerivedFirst names) ∧
      ∀ value, names.findSome? (fun current =>
          Walk.written? session.context name member (.declaration current)) = some value →
        metadata.value? name member = some value ∧
        (session.model.MostDerivedFirst names → ∃ writer ∈ names,
          Walk.written? session.context name member (.declaration writer) = some value ∧
            ∀ other ∈ names,
              (Walk.written? session.context name member (.declaration other)).isSome →
                ¬ Relation.TransGen session.model.Extends other writer) := by
  obtain ⟨names, listed, lists⟩ := Model.exists_listsSupertypes found isClass resolved true
  obtain ⟨hierarchy, same, rfl⟩ := exists_hierarchyStore_of_build unregistered built readable
  cases listed.symm.trans same
  refine ⟨names, listed, lists, lists.mostDerivedFirst, fun value first => ⟨?_, fun ordered =>
    ordered.findSome?_eq_some first⟩⟩
  refine Store.value?_of_annotation ?_
  rw [memberOf?_hierarchyStore_of_writtenAlone alone, List.findSome?_map]
  exact first

/-- A class that names a supertype before another class that extends this supertype. -/
def shapeContext : Context where
  model :=
    { document :=
        { annotations := [("shape.Mark", {})]
          elements :=
            [("shape.Square",
                { kind := .classType, supertypes := ["shape.Shape", "shape.Rhombus"] }),
              ("shape.Rhombus",
                { kind := .classType
                  supertypes := ["shape.Shape"]
                  annotations :=
                    [{ name := "shape.Mark", members := [("value", .string "rhombus")] }] }),
              ("shape.Shape",
                { kind := .classType
                  annotations :=
                    [{ name := "shape.Mark", members := [("value", .string "shape")] }] })] } }

private theorem shapeContext_writtenAlone : shapeContext.WrittenAlone "shape.Mark" where
  registry := rfl
  ungrouped := rfl
  groupless := rfl
  unbound := by decide

theorem shapeContext_declared {name supertype : String}
    (declared : (shapeContext.model.declaration? name).isSome)
    (reached : Relation.ReflTransGen shapeContext.model.Extends name supertype) :
    (shapeContext.model.declaration? supertype).isSome :=
  Model.declared_of_reachable (by decide) declared reached

private theorem shapeContext_acyclic (name : String) :
    ¬ Relation.TransGen shapeContext.model.Extends name name :=
  Model.not_extends_self ["shape.Shape", "shape.Rhombus", "shape.Square"].idxOf (by decide) name

theorem shapeContext_hierarchy :
    shapeContext.model.hierarchy (.declaration "shape.Square") true false =
      .ok (["shape.Square", "shape.Shape", "shape.Rhombus"].map .declaration) :=
  Model.hierarchy_of_explored rfl rfl (.fresh (by decide) rfl (.fresh (by decide) rfl
    (.fresh (by decide) rfl (.known (by decide) .done)))) true

theorem shapeContext_hierarchy_rhombus :
    shapeContext.model.hierarchy (.declaration "shape.Rhombus") true false =
      .ok (["shape.Rhombus", "shape.Shape"].map .declaration) :=
  Model.hierarchy_of_explored rfl rfl
    (.fresh (by decide) rfl (.fresh (by decide) rfl .done)) true

/-- Where no supertype is shared, the more derived class wins. -/
theorem shapeContext_rhombus :
    ∃ metadata : Metadata,
      ((Session.fresh shapeContext).serve (.build (.declaration "shape.Rhombus"))).1 =
        some (.ok metadata) ∧
      metadata.value? "shape.Mark" "value" = some (.string "rhombus") := by
  have built : ((Session.fresh shapeContext).serve (.build (.declaration "shape.Rhombus"))).1 =
      some (.ok _) := (ElementBuild.serve_all_fresh shapeContext_hierarchy_rhombus).trans rfl
  have complete : (ElementBuild.all.walk shapeContext
      (.declaration "shape.Rhombus")).failure = none := by
    rw [ElementBuild.all_walk shapeContext_hierarchy_rhombus]
    rfl
  have resolved : ∀ supertype,
      Relation.ReflTransGen (Session.fresh shapeContext).model.Extends "shape.Rhombus" supertype →
        ((Session.fresh shapeContext).model.declaration? supertype).isSome :=
    fun _ reached => shapeContext_declared rfl reached
  obtain ⟨names, listed, _, _, values⟩ :=
    inherited_annotations_of_class (by rfl) (by rfl) resolved shapeContext_writtenAlone (by rfl)
      built
      (fun ⟨_, defect⟩ => nomatch complete.symm.trans defect)
  have same : names = ["shape.Rhombus", "shape.Shape"] :=
    List.map_injective_iff.mpr (fun _ _ equal => Element.declaration.inj equal)
      (Except.ok.inj (listed.symm.trans shapeContext_hierarchy_rhombus))
  subst same
  exact ⟨_, built, (values (.string "rhombus") rfl).1⟩

/-- The supertype is listed before the other class that extends it, and hides the value that
this class writes. -/
theorem shapeContext_square :
    (∀ supertype, Relation.ReflTransGen shapeContext.model.Extends "shape.Square" supertype →
      (shapeContext.model.declaration? supertype).isSome ∧
        ¬ Relation.TransGen shapeContext.model.Extends supertype supertype) ∧
    (∃ names, shapeContext.model.hierarchy (.declaration "shape.Square") true false =
        .ok (names.map .declaration) ∧ ¬ shapeContext.model.MostDerivedFirst names) ∧
    ∃ metadata : Metadata,
      ((Session.fresh shapeContext).serve (.build (.declaration "shape.Square"))).1 =
        some (.ok metadata) ∧
      shapeContext.model.Extends "shape.Rhombus" "shape.Shape" ∧
      Walk.written? shapeContext "shape.Mark" "value" (.declaration "shape.Rhombus") =
        some (.string "rhombus") ∧
      Walk.written? shapeContext "shape.Mark" "value" (.declaration "shape.Shape") =
        some (.string "shape") ∧
      metadata.value? "shape.Mark" "value" = some (.string "shape") := by
  have extended : shapeContext.model.Extends "shape.Rhombus" "shape.Shape" :=
    ⟨_, rfl, by decide⟩
  refine ⟨fun _ reached => ⟨shapeContext_declared rfl reached, shapeContext_acyclic _⟩,
    ⟨_, shapeContext_hierarchy, fun ordered => ?_⟩,
    _, (ElementBuild.serve_all_fresh shapeContext_hierarchy).trans rfl, extended, rfl, rfl, rfl⟩
  have earlier := ordered "shape.Rhombus" (by decide) "shape.Shape" (.single extended)
  revert earlier
  decide

end AnnotationMetadata
