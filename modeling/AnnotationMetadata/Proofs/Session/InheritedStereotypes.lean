import AnnotationMetadata.Proofs.Model.Supertypes
import AnnotationMetadata.Proofs.Session.HierarchyStore
import AnnotationMetadata.Proofs.Walk.Recordings

set_option autoImplicit false

/-!
# Inherited stereotypes

Stereotypes keep what is there, and the most general element of a hierarchy is walked
first. So a member of a stereotype has the value of the most general element that
offers one, although annotations are overridden the other way round.
-/

namespace AnnotationMetadata

variable {context : Context} {name member : String}

/-- The value that a recording offers a member of a stereotype. -/
def Recording.offer? (name member : String) : Recording → Option Value
  | .write (.stereotype _ _ written members _) =>
    if written = name then Dict.get? members member else none
  | _ => none

namespace Walk

/-- The first value that the walk of an element offers a member of a stereotype. -/
def offered? (context : Context) (target : Element) (name member : String) (current : Element) :
    Option Value :=
  (elementTrace context target true current).findSome? (Recording.offer? name member)

private theorem changes_stereotype {declared : Bool} {parents : List String} {written : String}
    {members : Members} {retention : Retention} (found : Option Value) :
    Store.changedMember
        (Store.memberChanges name member
          ((Recording.write (.stereotype declared parents written members retention)).changes false
            Store.Write.stereotype?))
        found =
      found.or (if written = name then Dict.get? members member else none) := by
  rw [Store.memberChanges_write rfl]
  split
  · exact Store.changedMember_keepMembers members member found
  · exact (Option.or_none).symm

private theorem changes_of_mem_elementTrace (empty : context.registry = .empty)
    (groupless : context.model.isContainer name = false) {target current : Element}
    {recording : Recording} (recorded : recording ∈ elementTrace context target true current)
    (found : Option Value) :
    Store.changedMember
        (Store.memberChanges name member (recording.changes false Store.Write.stereotype?)) found =
      found.or (recording.offer? name member) := by
  rcases ofMeta_of_mem_elementTrace empty recorded with ofMeta | ⟨message, rfl⟩ |
    ⟨container, occurrence, rfl⟩
  · cases ofMeta with
    | stereotype => exact changes_stereotype found
    | @grouped _ _ container _ groups =>
      have elsewhere : container ≠ name := by
        rintro rfl
        cases groups.symm.trans groupless
      rw [Store.memberChanges_write rfl, if_neg elsewhere]
      exact (Option.or_none).symm
    | defaults => exact (Option.or_none).symm
    | binding => exact (Option.or_none).symm
    | read => exact (Option.or_none).symm
    | unfinished => exact (Option.or_none).symm
  · exact (Option.or_none).symm
  · cases container <;> exact (Option.or_none).symm

theorem changedMember_stereotypeChanges (empty : context.registry = .empty)
    (groupless : context.model.isContainer name = false) (target current : Element)
    (found : Option Value) :
    Store.changedMember
        (memberChanges context target Store.Write.stereotype? name member current) found =
      found.or (offered? context target name member current) :=
  Store.changedMember_flatMap_keep
    (fun _ recorded => changes_of_mem_elementTrace empty groupless recorded) found

private theorem memberOf?_declaredChanges (empty : context.registry = .empty)
    (groupless : context.model.isContainer name = false) (target : Element) :
    Store.memberOf?
        (Store.changeTable [] (declaredChanges context target true Store.Write.stereotype?))
        name member =
      offered? context target name member target := by
  -- In the walk of the target everything is declared.
  have declared : declaredChanges context target true Store.Write.stereotype? =
      (elementTrace context target true target).flatMap
        (Recording.changes false Store.Write.stereotype?) := by
    refine List.flatMap_congr fun recording recorded => ?_
    rw [elementTrace, beq_self_eq_true] at recorded
    rcases declaredAs_of_mem_occurrences recorded with rfl | declared
    · rfl
    · cases declared <;> rfl
  rw [declared, Store.memberOf?_changeTable, Store.memberChanges_flatMap]
  exact changedMember_stereotypeChanges empty groupless target target none

end Walk

private theorem memberOf?_stereotypes_of_empty (empty : context.registry = .empty)
    (groupless : context.model.isContainer name = false) (target : Element)
    (hierarchy : List Element) :
    Store.memberOf? (hierarchyStore context target hierarchy).stereotypes name member =
      hierarchy.findSome? (Walk.offered? context target name member) := by
  rw [memberOf?_stereotypes_hierarchyStore, Store.changedMember_flatMap_keep
    (fun current _ => Walk.changedMember_stereotypeChanges empty groupless target current),
    Option.none_or]

/-- Without extensions, a value that an element declares for a member of a stereotype
counts only if nothing else in its hierarchy offers one. Otherwise the value of the most
general element counts, whether the element overrides it or not. -/
theorem stereotype_value_of_build {session : Session} {element : Element} {metadata : Metadata}
    {value : Value} (empty : session.context.registry = .empty)
    (groupless : session.model.isContainer name = false)
    (unregistered : session.mutation? (session.model.declaringType element) element = none)
    (built : (session.serve (.build element)).1 = some (.ok metadata))
    (readable : ¬ (ElementBuild.all.walk session.context element).HasDefect)
    (declared : Store.memberOf? metadata.declaredStereotypes name member = some value)
    (unannotated : name ∉ metadata.annotationNames) :
    ∃ above, session.model.hierarchy element true false = .ok (element :: above) ∧
      metadata.value? name member = some ((above.reverse.findSome?
        (Walk.offered? session.context element name member)).getD value) := by
  have answered : (session.serve (ElementBuild.all.request element)).1 = some (.ok metadata) :=
    built
  obtain ⟨stereotypes, _⟩ := ElementBuild.declared_of_serve unregistered answered readable
    fun again => absurd again (ElementBuild.not_walksTwice rfl)
  rw [stereotypes, Walk.memberOf?_declaredChanges empty groupless] at declared
  obtain ⟨hierarchy, listed, rfl⟩ := exists_hierarchyStore_of_build unregistered built readable
  obtain ⟨above, rfl⟩ := Model.hierarchy_eq_cons listed
  refine ⟨above, listed, Store.value?_of_stereotype ?_ ?_⟩
  · rw [Metadata.mem_annotationNames_ofStore] at unannotated
    exact Dict.get?_eq_none_iff.mpr unannotated
  · rw [memberOf?_stereotypes_of_empty empty groupless, List.reverse_cons,
      List.findSome?_append, List.findSome?_singleton, declared]
    cases above.reverse.findSome? _ <;> rfl

/-- A class and its supertype, each with an annotation that carries a common one. -/
def beanContext : Context where
  model :=
    { document :=
        { annotations :=
            [("bean.Meta", {}),
              ("bean.General",
                { annotations :=
                    [{ name := "bean.Meta", members := [("value", .string "general")] }] }),
              ("bean.Special",
                { annotations :=
                    [{ name := "bean.Meta", members := [("value", .string "special")] }] })]
          elements :=
            [("bean.Base", { kind := .classType, annotations := [{ name := "bean.General" }] }),
              ("bean.Bean",
                { kind := .classType
                  supertypes := ["bean.Base"]
                  annotations := [{ name := "bean.Special" }] })] } }

theorem beanContext_hierarchy_base :
    beanContext.model.hierarchy (.declaration "bean.Base") true false =
      .ok (["bean.Base"].map .declaration) :=
  Model.hierarchy_of_explored rfl rfl (.fresh (by decide) rfl .done) true

private theorem beanContext_hierarchy :
    beanContext.model.hierarchy (.declaration "bean.Bean") true false =
      .ok (["bean.Bean", "bean.Base"].map .declaration) :=
  Model.hierarchy_of_explored rfl rfl
    (.fresh (by decide) rfl (.fresh (by decide) rfl .done)) true

/-- Nothing is above the supertype, so its own value counts. -/
theorem beanContext_base :
    ∃ metadata : Metadata,
      ((Session.fresh beanContext).serve (.build (.declaration "bean.Base"))).1 =
        some (.ok metadata) ∧
      Store.memberOf? metadata.declaredStereotypes "bean.Meta" "value" =
        some (.string "general") ∧
      metadata.value? "bean.Meta" "value" = some (.string "general") := by
  have built : ((Session.fresh beanContext).serve (.build (.declaration "bean.Base"))).1 =
      some (.ok _) := (ElementBuild.serve_all_fresh beanContext_hierarchy_base).trans rfl
  have complete :
      (ElementBuild.all.walk beanContext (.declaration "bean.Base")).failure = none := by
    rw [ElementBuild.all_walk beanContext_hierarchy_base]
    rfl
  obtain ⟨above, listed, value⟩ :=
    stereotype_value_of_build (by rfl) (by rfl) (by rfl) built
      (fun ⟨_, defect⟩ => nomatch complete.symm.trans defect)
      (by rfl : Store.memberOf? _ "bean.Meta" "value" = some (.string "general")) (by decide)
  cases beanContext_hierarchy_base.symm.trans listed
  exact ⟨_, built, rfl, value⟩

/-- The class declares another value than its supertype, and does not have it. -/
theorem beanContext_bean :
    ∃ metadata : Metadata,
      ((Session.fresh beanContext).serve (.build (.declaration "bean.Bean"))).1 =
        some (.ok metadata) ∧
      beanContext.model.isContainer "bean.Meta" = false ∧
      "bean.Meta" ∉ metadata.annotationNames ∧
      Store.memberOf? metadata.declaredStereotypes "bean.Meta" "value" =
        some (.string "special") ∧
      metadata.value? "bean.Meta" "value" = some (.string "general") :=
  ⟨_, (ElementBuild.serve_all_fresh beanContext_hierarchy).trans rfl, rfl, by decide, rfl, rfl⟩

end AnnotationMetadata
