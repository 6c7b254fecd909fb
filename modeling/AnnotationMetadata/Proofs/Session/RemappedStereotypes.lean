import AnnotationMetadata.Proofs.Session.HierarchyStore
import AnnotationMetadata.Proofs.Walk.Chain
import AnnotationMetadata.Proofs.Walk.Reading
import AnnotationMetadata.Proofs.Walk.Remapping

set_option autoImplicit false

/-!
# Stereotypes of remapped annotations

An annotation that all remappers decline keeps its stereotypes, and so does what takes
the place of one that is not repeatable. What takes the place of a repeatable annotation
is stored alone, and so is an annotation that only some remappers decline.
-/

namespace AnnotationMetadata

variable {context : Context}

namespace Walk

/-- The meta-annotations of the name are walked for an occurrence: its own if all
remappers decline it, those of what a remapper returns if it is not repeatable. -/
inductive Followed (context : Context) (occurrence : Annotation) : String → Prop where
  | kept (declined : ∀ remap ∈ context.registry.remappersFor occurrence.name,
        remap context.model.visitorOptions (context.model.reading true occurrence) = .unchanged) :
      Followed context occurrence occurrence.name
  | replaced {remap : Remapping} {annotations : List Annotation} {returned : Annotation}
      (single : context.model.containerOf? occurrence.name = none)
      (registered : remap ∈ context.registry.remappersFor occurrence.name)
      (outcome : remap context.model.visitorOptions (context.model.reading true occurrence) =
        .replaced annotations)
      (listed : returned ∈ annotations) (bare : returned.stereotypes = []) :
      Followed context occurrence returned.name

/-- A meta-annotation of the annotation that is written as a stereotype as it is. -/
structure CarriesUnmoved (context : Context) (owner : String) (carried : Annotation) : Prop where
  written : carried ∈ context.model.occurrencesOn (.annotationType owner)
  other : carried.name ≠ owner
  recorded : context.config.isInternal carried.name = false
  unbound : carried.name ≠ Name.interceptorBinding
  unmoved : context.registry.remappersFor carried.name = []

section Remappers

variable (mappers : ∀ name, context.registry.mappers name = [])
  (transformers : ∀ name, context.registry.transformers name = [])

include mappers transformers

private theorem descend_mem_occurrences {element : Element} {declared : Bool}
    {annotations : List Annotation} {occurrence : Annotation} {name : String}
    (given : occurrence ∈ annotations)
    (included : context.config.isInternal occurrence.name = false)
    (followed : Followed context occurrence name)
    (known : (context.model.annotationType? name).isSome)
    (recorded : context.config.isInternal name = false)
    (root : isRoot context.config name = true) :
    Step.descend { ancestors := [], owner := name, declared } ∈
      occurrences context element declared true annotations := by
  have listed : includeOne context element declared true occurrence ∈
      (annotations.filter fun occurrence => !context.config.isInternal occurrence.name).map
        (includeOne context element declared true) :=
    List.mem_map.mpr ⟨occurrence, List.mem_filter.mpr ⟨given, by simp [included]⟩, rfl⟩
  have unmapped : (populate context element declared true [] occurrence).mapped = false := by
    simp only [populate, mappers]
  have reading : context.model.stored occurrence.name
      (populate context element declared true [] occurrence).members =
        context.model.reading true occurrence := by
    rw [populate_members]
    rfl
  -- A kept occurrence is walked after the element; what is returned is walked in its place.
  cases followed with
  | kept declined =>
    have kept : (includeOne context element declared true occurrence).kept = true := by
      simp only [includeOne, unmapped, Bool.false_eq_true, if_false]
      exact replace_kept (transformers _) (reading ▸ declined)
    refine List.mem_append_right _ (List.mem_map.mpr
      ⟨_, List.mem_filter.mpr ⟨listed, ?_⟩, ?_⟩)
    · rw [includeOne_name, kept, root]
      rfl
    · rw [includeOne_name]
  | @replaced remap annotations returned single registered outcome returnedListed bare =>
    refine List.mem_append_left _ (List.mem_flatMap.mpr ⟨_, listed, ?_⟩)
    simp only [includeOne, unmapped, Bool.false_eq_true, if_false]
    refine List.mem_append_right _ (mem_replace_of_returned single registered
      (reading ▸ outcome) returnedListed ?_)
    rw [isRoot, Bool.and_eq_true, Bool.not_eq_true'] at root
    simp [ofReturned, recorded, root.1, bare, known, Placement.parents]

private theorem write_mem_stereotypes {owner : String} {carried : Annotation} {declared : Bool}
    (carries : CarriesUnmoved context owner carried) :
    (Placement.stereotype [owner]).writeIn declared (context.model.containerOf? carried.name)
        (context.model.reading true carried) ∈
      stereotypes context (budget context) { ancestors := [], owner, declared } := by
  have unmapped : (populate context (.annotationType owner) declared true [owner] carried).mapped =
      false := by
    simp only [populate, mappers]
  have read : Step.record ((Placement.stereotype [owner]).writeIn declared
      (context.model.containerOf? carried.name) (context.model.reading true carried)) ∈
        (readMeta context declared [owner] owner carried).plan := by
    simp only [readMeta, unmapped, carries.unbound, Bool.or_false, decide_false,
      Bool.false_eq_true, if_false]
    refine List.mem_append_right _ ?_
    simp only [replace, carries.unmoved, transformers, populate_members]
    exact List.mem_singleton_self _
  have walked : isWalked context.config [owner] owner [] carried.name := by
    simp [isWalked, carries.other, carries.recorded, carries.unbound]
  have planned : Step.record ((Placement.stereotype [owner]).writeIn declared
      (context.model.containerOf? carried.name) (context.model.reading true carried)) ∈
        level context { ancestors := [], owner, declared } :=
    List.mem_append_left _ (List.mem_append_left _ (List.mem_flatMap.mpr
      ⟨_, mem_readMetas_iff.mpr ⟨carried, carries.written, walked, rfl⟩, read⟩))
  obtain ⟨levels, enough⟩ : ∃ levels, budget context = levels + 1 :=
    Nat.exists_eq_succ_of_ne_zero (Nat.ne_of_gt (Nat.pow_pos (by omega)))
  rw [enough]
  exact List.mem_flatMap.mpr ⟨_, planned, List.mem_singleton_self _⟩

private theorem write_mem_elementTrace {target current : Element} {occurrence carried : Annotation}
    {name : String} (given : occurrence ∈ context.model.occurrencesOn current)
    (included : context.config.isInternal occurrence.name = false)
    (followed : Followed context occurrence name)
    (recorded : context.config.isInternal name = false)
    (root : isRoot context.config name = true) (carries : CarriesUnmoved context name carried) :
    (Placement.stereotype [name]).writeIn (current == target)
        (context.model.containerOf? carried.name) (context.model.reading true carried) ∈
      elementTrace context target true current := by
  have known := Model.annotationType?_isSome_of_mem_occurrencesOn carries.written
  exact List.mem_flatMap.mpr
    ⟨_, descend_mem_occurrences mappers transformers given included followed known recorded root,
      write_mem_stereotypes mappers transformers carries⟩

end Remappers

end Walk

/-- The stereotype is recorded by itself, or in the group of its container if it has one. -/
def RecordsStereotype (model : Model) (metadata : Metadata) (name : String) : Prop :=
  match model.containerOf? name with
  | none => name ∈ metadata.stereotypeNames
  | some container =>
    ∃ occurrence, occurrence ∈ Store.groupedIn metadata.snapshot.stereotypes container name

private theorem recordsStereotype_of_write {target : Element} {hierarchy : List Element}
    {parents : List String} {declared : Bool} {carried : Annotation}
    (recorded : (Placement.stereotype parents).writeIn declared
        (context.model.containerOf? carried.name) carried ∈
      hierarchy.flatMap (Walk.elementTrace context target true)) :
    RecordsStereotype context.model (.ofStore (hierarchyStore context target hierarchy))
      carried.name := by
  have unpromoted : Recording.promoteScope ∉
      hierarchy.flatMap (Walk.elementTrace context target true) := Walk.promoteScope_not_mem_flatMap
  unfold RecordsStereotype
  cases grouped : context.model.containerOf? carried.name with
  | none =>
    rw [grouped] at recorded
    rw [Metadata.mem_stereotypeNames_ofStore, hierarchyStore, Store.stereotypeNames,
      (Store.promoteDefaultScope_keeps _).1, ← Store.stereotypeNames,
      Store.mem_stereotypeNames_recordAll unpromoted]
    exact ⟨parents, _, recorded, rfl⟩
  | some container =>
    rw [grouped] at recorded
    rw [Metadata.stereotypes_snapshot_ofStore, hierarchyStore,
      (Store.promoteDefaultScope_keeps _).1]
    exact Store.exists_mem_groupedIn_recordAll unpromoted recorded

/-- With remappers alone, the meta-annotations of an annotation on an element are recorded
when all remappers decline it; and those of what a remapper puts in its place, unless it
is repeatable. -/
theorem stereotypes_of_followed {session : Session} {element : Element} {metadata : Metadata}
    (mappers : ∀ name, session.context.registry.mappers name = [])
    (transformers : ∀ name, session.context.registry.transformers name = [])
    (unregistered : session.mutation? (session.model.declaringType element) element = none)
    (built : (session.serve (.build element)).1 = some (.ok metadata))
    (readable : ¬ (ElementBuild.all.walk session.context element).HasDefect) :
    ∃ hierarchy, session.model.hierarchy element true false = .ok hierarchy ∧
      ∀ current ∈ hierarchy, ∀ occurrence ∈ session.model.occurrencesOn current,
        session.context.config.isInternal occurrence.name = false →
        ∀ name, Walk.Followed session.context occurrence name →
          session.context.config.isInternal name = false →
          Walk.isRoot session.context.config name = true →
          ∀ carried, Walk.CarriesUnmoved session.context name carried →
            RecordsStereotype session.model metadata carried.name := by
  obtain ⟨hierarchy, listed, rfl⟩ := exists_hierarchyStore_of_build unregistered built readable
  refine ⟨hierarchy, listed, ?_⟩
  intro current member occurrence given included name followed recorded root carried carries
  have written : (Placement.stereotype [name]).writeIn (current == element)
      (session.model.containerOf? (session.model.reading true carried).name)
        (session.model.reading true carried) ∈
          Walk.elementTrace session.context element true current :=
    Walk.write_mem_elementTrace mappers transformers given included followed recorded root carries
  have records := recordsStereotype_of_write
    (List.mem_flatMap.mpr ⟨current, List.mem_reverse.mpr member, written⟩)
  exact records

/-- A package is moved. Its two annotations, one of them repeatable, become annotations
that carry another one. -/
def movedContext : Context where
  registry := .ofExtensions [.movePackage "old" "new"]
  model :=
    { document :=
        { annotations :=
            [("old.Tag", { annotations := [{ name := "meta.Old" }] }),
              ("old.Mark", { container := some "old.Marks" }),
              ("new.Tag", { annotations := [{ name := "meta.New" }] }),
              ("new.Mark", { annotations := [{ name := "meta.New" }] })]
          elements :=
            [("bean.tagged", { kind := .field, annotations := [{ name := "old.Tag" }] }),
              ("bean.marked", { kind := .field, annotations := [{ name := "old.Mark" }] })] } }

/-- Another remapper of the package declines. -/
def halfMovedContext : Context :=
  { movedContext with
    registry := movedContext.registry.register (.remapper "old" .decline) }

theorem movedContext_tagged :
    ∃ metadata : Metadata,
      ((Session.fresh movedContext).serve (.build (.declaration "bean.tagged"))).1 =
        some (.ok metadata) ∧
      RecordsStereotype movedContext.model metadata "meta.New" := by
  have built : ((Session.fresh movedContext).serve (.build (.declaration "bean.tagged"))).1 =
      some (.ok _) := rfl
  refine ⟨_, built, ?_⟩
  have returned : ({ name := "new.Tag" } : Annotation) ∈ [({ name := "new.Tag" } : Annotation)] :=
    List.mem_singleton_self _
  have followed : Walk.Followed movedContext { name := "old.Tag" } "new.Tag" :=
    .replaced rfl (List.mem_singleton_self _) rfl returned rfl
  obtain ⟨hierarchy, listed, recorded⟩ :=
    stereotypes_of_followed (by intro; rfl) (by intro; rfl) (by rfl) built
      (fun ⟨_, defect⟩ => nomatch defect)
  cases listed
  exact recorded (.declaration "bean.tagged") (List.mem_singleton_self _) { name := "old.Tag" }
    (List.mem_singleton_self _) rfl "new.Tag" followed rfl rfl { name := "meta.New" }
    ⟨List.mem_singleton_self _, by decide, rfl, by decide, rfl⟩

/-- What takes the place of the repeatable annotation loses its stereotype, and so does the
other annotation when one of two remappers declines it. -/
theorem movedContext_lost :
    ∃ marked tagged : Metadata,
      ((Session.fresh movedContext).serve (.build (.declaration "bean.marked"))).1 =
        some (.ok marked) ∧
      ((Session.fresh halfMovedContext).serve (.build (.declaration "bean.tagged"))).1 =
        some (.ok tagged) ∧
      (Store.groupedIn marked.snapshot.annotations "new.Marks" "new.Mark").map Annotation.name =
        ["new.Mark"] ∧
      Walk.CarriesUnmoved movedContext "new.Mark" { name := "meta.New" } ∧
      ¬ RecordsStereotype movedContext.model marked "meta.New" ∧
      tagged.annotationNames = ["new.Tag", "old.Tag"] ∧
      Walk.CarriesUnmoved halfMovedContext "old.Tag" { name := "meta.Old" } ∧
      ¬ RecordsStereotype halfMovedContext.model tagged "meta.Old" := by
  refine ⟨_, _, rfl, rfl, rfl, ⟨List.mem_singleton_self _, by decide, rfl, by decide, rfl⟩, ?_, rfl,
    ⟨List.mem_singleton_self _, by decide, rfl, by decide, rfl⟩, ?_⟩
  · exact (by decide : ¬ "meta.New" ∈ ([] : List String))
  · exact (by decide : ¬ "meta.Old" ∈ ["meta.New"])

end AnnotationMetadata
