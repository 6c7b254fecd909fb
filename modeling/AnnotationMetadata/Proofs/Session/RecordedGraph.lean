import AnnotationMetadata.Proofs.Session.HierarchyStore
import AnnotationMetadata.Proofs.Walk.StereotypeGraph

set_option autoImplicit false

/-!
# The recorded graph of stereotypes

In a plain context, the metadata of an element lists the annotations of its
hierarchy, and as stereotypes what can be reached from them along
meta-annotations. Each stereotype is indexed under everything that precedes it on
some path.
-/

namespace AnnotationMetadata

variable {context : Context} {hierarchy : List Element}

/-! ## Paths from a hierarchy -/

/-- Some element of a hierarchy has the annotation, and its meta-annotations are
walked. -/
def HierarchyRoot (context : Context) (hierarchy : List Element) (name : String) : Prop :=
  ∃ current ∈ hierarchy, Roots context current name

/-- The given annotations lead from an annotation of the hierarchy to another
annotation, without repetition. -/
structure LeadsTo (context : Context) (hierarchy : List Element) (before : List String)
    (name : String) : Prop where
  path : SimplePath context (before ++ [name])
  root : ∃ root, before.head? = some root ∧ HierarchyRoot context hierarchy root

private theorem exists_leadsTo_iff_reachable {name : String} :
    (∃ before, LeadsTo context hierarchy before name) ↔
      ∃ root, HierarchyRoot context hierarchy root ∧ root ≠ name ∧
        Relation.ReflTransGen (Carries context) root name := by
  constructor
  · rintro ⟨before, path, root, first, roots⟩
    obtain ⟨more, rfl⟩ := List.head?_eq_some_iff.mp first
    refine ⟨root, roots, ?_, ?_⟩
    · intro same
      have fresh := (List.nodup_cons.mp path.nodup).1
      exact fresh (same ▸ List.mem_append_right _ (List.mem_singleton_self _))
    · exact List.relationReflTransGen_of_exists_isChain_cons (more ++ [name]) path.chain (by simp)
  · rintro ⟨root, roots, other, reachable⟩
    obtain ⟨path, simple, starts, ends⟩ := exists_simplePath_of_reachable reachable
    obtain ⟨before, rfl⟩ := List.getLast?_eq_some_iff.mp ends
    refine ⟨before, simple, root, ?_, roots⟩
    cases before with
    | nil => exact absurd (Option.some.inj starts).symm other
    | cons head more => exact starts

/-! ## Stores -/

namespace Walk

variable {target : Element} {aliases : Bool}

/-- The writes of a hierarchy are those of its elements. -/
theorem write_mem_flatMap_iff {write : Store.Write} :
    .write write ∈ hierarchy.flatMap (elementTrace context target aliases) ↔
      ∃ current ∈ hierarchy, .write write ∈ elementTrace context target aliases current :=
  List.mem_flatMap

/-- Only paths from the hierarchy are indexed, and all of them are. -/
theorem exists_index_iff_leadsTo (plain : context.Plain) {parents : List String} {name : String}
    (other : name ≠ Name.interceptorBinding) :
    (∃ write, .write write ∈ hierarchy.flatMap (elementTrace context target aliases) ∧
      write.index? = some (parents, name)) ↔ LeadsTo context hierarchy parents name := by
  constructor
  · rintro ⟨write, recorded, indexed⟩
    obtain ⟨current, listed, recorded⟩ := write_mem_flatMap_iff.mp recorded
    cases elementWrite_of_mem_elementTrace plain recorded with
    | defaults => cases indexed
    | direct => cases indexed
    | @below root _ roots written =>
      cases written with
      | defaults => cases indexed
      | binding => cases indexed
      | stereotype path =>
        cases indexed
        exact ⟨path, root, rfl, current, listed, roots⟩
  · rintro ⟨path, root, first, current, listed, roots⟩
    obtain ⟨more, rfl⟩ := List.head?_eq_some_iff.mp first
    obtain ⟨declared, members, retention, recorded⟩ :=
      mem_elementTrace_of_path plain target aliases roots path other
    exact ⟨_, write_mem_flatMap_iff.mpr ⟨current, listed, recorded⟩, rfl⟩

end Walk

/-! ## Stores of hierarchies -/

section HierarchyStore

variable (plain : context.Plain) (target : Element) (hierarchy : List Element) {name : String}

include plain

theorem mem_stereotypeNames_hierarchyStore (other : name ≠ Name.interceptorBinding) :
    name ∈ (hierarchyStore context target hierarchy).stereotypeNames ↔
      ∃ before, LeadsTo context hierarchy before name := by
  rw [hierarchyStore, Store.stereotypeNames, (Store.promoteDefaultScope_keeps _).1,
    ← Store.stereotypeNames, Store.mem_stereotypeNames_recordAll Walk.promoteScope_not_mem_flatMap]
  exact exists_congr fun parents => Walk.exists_index_iff_leadsTo plain other

theorem mem_parentsOf_hierarchyStore (other : name ≠ Name.interceptorBinding) {parent : String} :
    parent ∈ (hierarchyStore context target hierarchy).parentsOf name ↔
      ∃ before, LeadsTo context hierarchy before name ∧ parent ∈ before := by
  rw [hierarchyStore, Store.parentsOf, (Store.promoteDefaultScope_keeps _).2, ← Store.parentsOf,
    Store.mem_parentsOf_recordAll Walk.promoteScope_not_mem_flatMap]
  have none : parent ∉ Store.empty.parentsOf name := List.not_mem_nil
  simp only [none, false_or]
  exact exists_congr fun parents =>
    and_congr_left fun _ => Walk.exists_index_iff_leadsTo plain other

private theorem mem_namesByStereotype_hierarchyStore (other : name ≠ Name.interceptorBinding)
    (recorded : name ∈ (hierarchyStore context target hierarchy).stereotypeNames)
    {parent : String} :
    parent ∈ (hierarchyStore context target hierarchy).namesByStereotype name ↔
      ∃ before, LeadsTo context hierarchy before name ∧ parent ∈ before := by
  rw [← mem_parentsOf_hierarchyStore plain target hierarchy other]
  refine Store.mem_namesByStereotype_of_parentsOf ?_
  obtain ⟨before, leads⟩ :=
    (mem_stereotypeNames_hierarchyStore plain target hierarchy other).mp recorded
  obtain ⟨root, first, _⟩ := leads.root
  have listed : root ∈ before := List.mem_of_head? first
  exact List.ne_nil_of_mem
    ((mem_parentsOf_hierarchyStore plain target hierarchy other).mpr ⟨before, leads, listed⟩)

/-- The annotations of a hierarchy are recorded, and with them at most the group of bindings
and the promoted scope. -/
private theorem mem_annotationNames_hierarchyStore :
    ∃ bound : Bool, ∀ name,
      name ∈ (hierarchyStore context target hierarchy).annotationNames ↔
        (∃ current ∈ hierarchy, Annotates context current name) ∨
          (bound = true ∧ name = Name.interceptorBindings) ∨
          (Store.empty.recordAll (hierarchy.flatMap
            (Walk.elementTrace context target true))).promotedScope? = some name := by
  classical
  refine ⟨decide (Name.interceptorBindings ∈ (Store.empty.recordAll
    (hierarchy.flatMap (Walk.elementTrace context target true))).annotationNames), ?_⟩
  intro name
  rw [hierarchyStore, Store.mem_annotationNames_promoteDefaultScope_iff, ← or_assoc]
  refine or_congr_left ?_
  rw [decide_eq_true_iff]
  constructor
  · intro listed
    obtain ⟨write, recorded, declared, members, changed⟩ :=
      (Store.mem_annotationNames_recordAll Walk.promoteScope_not_mem_flatMap).mp listed
    obtain ⟨current, member, recorded⟩ := Walk.write_mem_flatMap_iff.mp recorded
    cases Walk.elementWrite_of_mem_elementTrace plain recorded with
    | defaults => cases changed
    | direct annotates =>
      cases changed
      exact .inl ⟨current, member, annotates⟩
    | below _ written =>
      cases written with
      | defaults => cases changed
      | stereotype => cases changed
      | binding =>
        cases changed
        exact .inr ⟨listed, rfl⟩
  · rintro (⟨current, member, annotates⟩ | ⟨listed, rfl⟩)
    · obtain ⟨declared, members, retention, recorded⟩ :=
        Walk.mem_elementTrace_of_annotates plain target true annotates
      exact (Store.mem_annotationNames_recordAll Walk.promoteScope_not_mem_flatMap).mpr
        ⟨_, Walk.write_mem_flatMap_iff.mpr ⟨current, member, recorded⟩, declared, _, rfl⟩
    · exact listed

end HierarchyStore

/-! ## Builds -/

theorem hierarchyRoot_reverse {name : String} :
    HierarchyRoot context hierarchy.reverse name ↔ HierarchyRoot context hierarchy name := by
  simp [HierarchyRoot]

private theorem leadsTo_reverse {before : List String} {name : String} :
    LeadsTo context hierarchy.reverse before name ↔ LeadsTo context hierarchy before name := by
  constructor
  · rintro ⟨path, root, first, roots⟩
    exact ⟨path, root, first, hierarchyRoot_reverse.mp roots⟩
  · rintro ⟨path, root, first, roots⟩
    exact ⟨path, root, first, hierarchyRoot_reverse.mpr roots⟩

/-- In a plain context, a build without a defect lists the recorded annotations of
the hierarchy, and with them at most the group of interceptor bindings and the
promoted scope. Its stereotypes, bindings aside, are what can be reached from
another annotation of the hierarchy. Each of them is indexed under the annotations
that precede it on the paths from the hierarchy that repeat no annotation. -/
theorem graph_of_build {session : Session} {element : Element} {metadata : Metadata}
    (plain : session.context.Plain)
    (unregistered : session.mutation? (session.model.declaringType element) element = none)
    (built : (session.serve (.build element)).1 = some (.ok metadata))
    (readable : ¬ (ElementBuild.all.walk session.context element).HasDefect) :
    ∃ hierarchy, session.model.hierarchy element true false = .ok hierarchy ∧
      (∃ bound : Bool, ∀ name,
        name ∈ metadata.annotationNames ↔
          (∃ current ∈ hierarchy, Annotates session.context current name) ∨
            (bound = true ∧ name = Name.interceptorBindings) ∨
            promotedScope? session.context element = some name) ∧
      ∀ name, name ≠ Name.interceptorBinding →
        (name ∈ metadata.stereotypeNames ↔
          ∃ root, HierarchyRoot session.context hierarchy root ∧ root ≠ name ∧
            Relation.ReflTransGen (Carries session.context) root name) ∧
        (name ∈ metadata.stereotypeNames → ∀ parent,
          parent ∈ metadata.namesByStereotype name ↔
            ∃ before, LeadsTo session.context hierarchy before name ∧ parent ∈ before) := by
  obtain ⟨hierarchy, found, rfl⟩ := exists_hierarchyStore_of_build unregistered built readable
  refine ⟨hierarchy, found, ?_, ?_⟩
  · obtain ⟨bound, names⟩ := mem_annotationNames_hierarchyStore plain element hierarchy.reverse
    refine ⟨bound, fun name => ?_⟩
    rw [Metadata.mem_annotationNames_ofStore, names, promotedScope?_of_hierarchy found]
    simp
  · intro name other
    have recorded := mem_stereotypeNames_hierarchyStore plain element hierarchy.reverse other
    have leads : ∀ before, LeadsTo session.context hierarchy.reverse before name ↔
        LeadsTo session.context hierarchy before name := fun _ => leadsTo_reverse
    refine ⟨?_, ?_⟩
    · rw [Metadata.mem_stereotypeNames_ofStore, recorded, ← exists_leadsTo_iff_reachable]
      exact exists_congr leads
    · intro listed parent
      rw [Metadata.mem_stereotypeNames_ofStore] at listed
      rw [Metadata.mem_namesByStereotype_ofStore listed,
        mem_namesByStereotype_hierarchyStore plain element hierarchy.reverse other listed]
      exact exists_congr fun before => and_congr_left fun _ => leads before

/-- Three annotation types in a circle, and a field with one of them. -/
def circleContext : Context where
  model :=
    { document :=
        { annotations :=
            [("circle.First", { annotations := [{ name := "circle.Second" }] }),
              ("circle.Second", { annotations := [{ name := "circle.Third" }] }),
              ("circle.Third", { annotations := [{ name := "circle.First" }] })]
          elements :=
            [("circle.field", { kind := .field, annotations := [{ name := "circle.Second" }] })] } }

theorem circleContext_plain : circleContext.Plain where
  registry := rfl
  unaliased := by
    refine Model.unaliased_of_memberless fun entry declared => ?_
    simp only [circleContext, List.mem_cons, List.not_mem_nil, or_false] at declared
    rcases declared with rfl | rfl | rfl <;> rfl
  ungrouped := by
    intro entry declared
    simp only [circleContext, List.mem_cons, List.not_mem_nil, or_false] at declared
    rcases declared with rfl | rfl | rfl <;> rfl

theorem circleContext_graph :
    circleContext.Plain ∧
      ∃ metadata : Metadata,
        ((Session.fresh circleContext).serve (.build (.declaration "circle.field"))).1 =
          some (.ok metadata) ∧
        ∃ hierarchy,
          circleContext.model.hierarchy (.declaration "circle.field") true false = .ok hierarchy ∧
          ∀ name, name ≠ Name.interceptorBinding →
            (name ∈ metadata.stereotypeNames ↔
              ∃ root, HierarchyRoot circleContext hierarchy root ∧ root ≠ name ∧
                Relation.ReflTransGen (Carries circleContext) root name) := by
  have built : ((Session.fresh circleContext).serve (.build (.declaration "circle.field"))).1 =
      some (.ok _) := rfl
  refine ⟨circleContext_plain, _, built, ?_⟩
  obtain ⟨hierarchy, found, _, graph⟩ :=
    graph_of_build circleContext_plain (by rfl) built (fun ⟨_, defect⟩ => nomatch defect)
  exact ⟨hierarchy, found, fun name other => (graph name other).1⟩

end AnnotationMetadata
