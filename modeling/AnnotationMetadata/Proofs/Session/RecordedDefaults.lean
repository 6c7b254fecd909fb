import AnnotationMetadata.Proofs.Session.RecordedParents
import AnnotationMetadata.Proofs.Store.Defaults
import AnnotationMetadata.Proofs.Walk.Outputs

set_option autoImplicit false

/-!
# Defaults of recorded annotations

Built metadata answers with the declared defaults of annotations that it records and of
annotations that an extension has replaced. What stands on the hierarchy of the element
without an extension has its defaults, and so has what mappers return for it.
-/

namespace AnnotationMetadata

variable {context : Context}

/-- A layer of the metadata records the annotation. -/
def Metadata.Records (metadata : Metadata) (name : String) : Prop :=
  ∃ layer ∈ metadata.layers, layer.Records name

/-- The metadata answers with recorded values first and with declared defaults last. -/
def Metadata.AnswersDefaults (metadata : Metadata) (model : Model) (name : String) : Prop :=
  ∀ member, metadata.value? name member =
    ((metadata.values? name).bind (Dict.get? · member)).or
      (Dict.get? (model.defaultsOf name) member)

namespace Metadata

theorem value?_store (data : Store) (name member : String) :
    (Metadata.store data).value? name member = data.value? name member := by
  simp [value?, layers]

private theorem values?_store (data : Store) (name : String) :
    (Metadata.store data).values? name = data.values? name := by
  simp [values?, layers]

end Metadata

theorem Walk.hierarchy_givesDeclared (target : Element) (aliases : Bool)
    (hierarchy : List Element) :
    Trace.GivesDeclared context.model
      (hierarchy.flatMap (elementTrace context target aliases)) :=
  fun _ _ recorded => (hierarchy_grounded target aliases hierarchy _ recorded).2

theorem defaultValue?_hierarchyStore (target : Element) (hierarchy : List Element)
    (name member : String) :
    (hierarchyStore context target hierarchy).defaultValue? name member =
      (Store.empty.recordAll
        (hierarchy.flatMap (Walk.elementTrace context target true))).defaultValue? name member := by
  rw [Store.defaultValue?, Store.defaultValues?, hierarchyStore,
    Store.promoteDefaultScope_defaults]
  rfl

theorem hierarchyStore_isEmpty {target : Element} {hierarchy : List Element} {write : Store.Write}
    {name : String}
    (written : .write write ∈ hierarchy.flatMap (Walk.elementTrace context target true))
    (named : write.key? = some name) :
    (hierarchyStore context target hierarchy).isEmpty = false := by
  have present : (Store.empty.recordAll (hierarchy.flatMap
      (Walk.elementTrace context target true))).hasStereotype name = true :=
    (Store.hasStereotype_recordAll Walk.promoteScope_not_mem_flatMap).mpr
      (.inr ⟨write, written, named⟩)
  exact Store.isEmpty_eq_false (Store.hasStereotype_promoteDefaultScope present)

private theorem records_or_extended_of_value? {target : Element} {hierarchy : List Element}
    {name member : String} {value : Value}
    (found : (hierarchyStore context target hierarchy).value? name member = some value) :
    (hierarchyStore context target hierarchy).Records name ∨
      Extended context.registry name ∧
        Dict.get? (context.model.defaultsOf name) member = some value := by
  rcases Option.or_eq_some_iff.mp found with set | ⟨_, default⟩
  · obtain ⟨members, listed, _⟩ := Option.bind_eq_some_iff.mp set
    exact .inl (Store.records_of_values? listed)
  · rw [defaultValue?_hierarchyStore] at default
    obtain ⟨⟨members, given⟩, declares⟩ := Store.exists_of_defaultValue?_recordAll
      Walk.promoteScope_not_mem_flatMap (Walk.hierarchy_givesDeclared target true hierarchy) default
    rcases (Walk.hierarchy_grounded target true hierarchy _ given).1 with records | extended
    · refine .inl (Store.Records.promoteDefaultScope ?_)
      exact (Store.records_recordAll Walk.promoteScope_not_mem_flatMap).mpr (.inr records)
    · exact .inr ⟨extended, declares⟩

private theorem records_or_extended_of_ofStore {target : Element} {hierarchy : List Element}
    (name member : String) (value : Value)
    (found : (Metadata.ofStore (hierarchyStore context target hierarchy)).value? name member =
      some value) :
    (Metadata.ofStore (hierarchyStore context target hierarchy)).Records name ∨
      Extended context.registry name ∧
        Dict.get? (context.model.defaultsOf name) member = some value := by
  unfold Metadata.ofStore at found ⊢
  split at found
  · cases found
  · next full =>
    rw [Metadata.value?_store] at found
    rw [if_neg full]
    exact (records_or_extended_of_value? found).imp_left fun recorded =>
      ⟨_, List.mem_singleton_self _, recorded⟩

section Hierarchy

variable {target current : Element} {hierarchy : List Element} {occurrence : Annotation}
  (inside : current ∈ hierarchy) (listed : occurrence ∈ Walk.recordedOn context current)

include inside listed

/-- Once an annotation is written and its defaults are given, metadata answers with both. -/
theorem answersDefaults_of_planned {name : String}
    (recorded : (Walk.includeOne context current (current == target) true
      occurrence).plan.Records name)
    (given : Walk.Step.record (context.defaults name) ∈
      (Walk.includeOne context current (current == target) true occurrence).plan) :
    (Metadata.ofStore (hierarchyStore context target hierarchy)).AnswersDefaults context.model
      name := by
  have walked : ∀ recording, Walk.Step.record recording ∈
      (Walk.includeOne context current (current == target) true occurrence).plan →
      recording ∈ hierarchy.flatMap (Walk.elementTrace context target true) := by
    intro recording planned
    exact List.mem_flatMap.mpr ⟨current, inside, Walk.mem_elementTrace_of_planned listed planned⟩
  have full : (hierarchyStore context target hierarchy).isEmpty = false := by
    obtain ⟨write, planned, records⟩ := recorded
    obtain ⟨key, named⟩ := records.exists_key?
    exact hierarchyStore_isEmpty (walked _ planned) named
  intro member
  rw [Metadata.ofStore_eq_store full, Metadata.value?_store, Metadata.values?_store, Store.value?,
    defaultValue?_hierarchyStore]
  congr 1
  exact Store.defaultValue?_recordAll_of_mem Walk.promoteScope_not_mem_flatMap
    (Walk.hierarchy_givesDeclared target true hierarchy) (walked _ given) member

private theorem answersDefaults_of_occurrence
    (kept : context.model.retentionOf occurrence.name = .runtime)
    (unextended : ¬ Extended context.registry occurrence.name) :
    (Metadata.ofStore (hierarchyStore context target hierarchy)).AnswersDefaults context.model
      occurrence.name := by
  have given : Walk.Step.record (context.defaults occurrence.name) ∈
      Walk.runtimeDefaults context occurrence.name := by
    rw [Walk.runtimeDefaults, if_pos kept]
    exact List.mem_singleton_self _
  exact answersDefaults_of_planned inside listed (Walk.includeOne_settles.resolve_right unextended)
    (Walk.runtimeDefaults_subset_includeOne given)

private theorem answersDefaults_of_mapped {mapped : Annotation}
    (returned : mapped ∈ Walk.mappedBy context occurrence)
    (known : (context.model.annotationType? mapped.name).isSome)
    (kept : mapped.retention = .runtime) :
    (Metadata.ofStore (hierarchyStore context target hierarchy)).AnswersDefaults context.model
      mapped.name :=
  answersDefaults_of_planned inside listed
    (Walk.writeMapped_records.of_subset (Walk.writeMapped_subset_includeOne returned))
    (Walk.writeMapped_subset_includeOne returned (Walk.defaults_mem_writeMapped known kept))

end Hierarchy

/-- What built metadata answers for a member belongs to an annotation that it records, or is
the declared default of an annotation that an extension is registered for. Annotations on the
hierarchy that no extension is registered for, and annotations that mappers return for those
on the hierarchy, have their declared defaults. -/
theorem defaults_of_build {session : Session} {element : Element} {metadata : Metadata}
    (unregistered : session.mutation? (session.model.declaringType element) element = none)
    (built : (session.serve (.build element)).1 = some (.ok metadata)) :
    (∀ name member value, metadata.value? name member = some value →
      metadata.Records name ∨ Extended session.context.registry name ∧
        Dict.get? (session.model.defaultsOf name) member = some value) ∧
    (¬ (ElementBuild.all.walk session.context element).HasDefect →
      ∃ hierarchy, session.model.hierarchy element true false = .ok hierarchy ∧
        ∀ current ∈ hierarchy, ∀ occurrence ∈ Walk.recordedOn session.context current,
          (session.model.retentionOf occurrence.name = .runtime →
            ¬ Extended session.context.registry occurrence.name →
              metadata.AnswersDefaults session.model occurrence.name) ∧
          ∀ mapped ∈ Walk.mappedBy session.context occurrence,
            (session.model.annotationType? mapped.name).isSome → mapped.retention = .runtime →
              metadata.AnswersDefaults session.model mapped.name) := by
  by_cases defect : (ElementBuild.all.walk session.context element).HasDefect
  · rw [eq_empty_of_build unregistered built defect]
    exact ⟨fun _ _ _ none => (nomatch none), fun complete => absurd defect complete⟩
  · obtain ⟨hierarchy, found, rfl⟩ := exists_hierarchyStore_of_build unregistered built defect
    refine ⟨?_, fun _ => ⟨hierarchy, found, ?_⟩⟩
    · exact records_or_extended_of_ofStore
    · intro current inside occurrence listed
      have reached := List.mem_reverse.mpr inside
      exact ⟨answersDefaults_of_occurrence reached listed,
        fun _ => answersDefaults_of_mapped reached listed⟩

/-- An annotation that is renamed, one that a mapper replaces and one that stays; all declare a
default, and so does what takes their place. -/
def leveledContext : Context where
  registry := .ofExtensions
    [.rename "old.Tag" "new.Tag", .mapper "old.Mark" fun _ _ => [{ name := "new.Mark" }]]
  model :=
    { document :=
        { annotations :=
            ["old.Tag", "new.Tag", "old.Mark", "new.Mark", "kept.Mark"].map fun name =>
              (name, { members := [("level", { default := some (.string "low") })] })
          elements :=
            [("bean.tagged", { kind := .field, annotations := [{ name := "old.Tag" }] }),
              ("bean.marked",
                { kind := .field
                  annotations := [{ name := "old.Mark" }, { name := "kept.Mark" }] })] } }

theorem leveledContext_marked :
    ∃ metadata : Metadata,
      ((Session.fresh leveledContext).serve (.build (.declaration "bean.marked"))).1 =
        some (.ok metadata) ∧
      metadata.AnswersDefaults leveledContext.model "new.Mark" ∧
      metadata.AnswersDefaults leveledContext.model "kept.Mark" := by
  have built : ((Session.fresh leveledContext).serve
      (.build (.declaration "bean.marked"))).1 = some (.ok _) := rfl
  obtain ⟨_, complete⟩ := defaults_of_build (by rfl) built
  obtain ⟨hierarchy, found, answers⟩ := complete (fun ⟨_, defect⟩ => nomatch defect)
  cases found
  have own := answers (.declaration "bean.marked") List.mem_cons_self
  refine ⟨_, rfl, ?_, ?_⟩
  · exact (own { name := "old.Mark" } List.mem_cons_self).2 { name := "new.Mark" }
      List.mem_cons_self rfl rfl
  · refine (own { name := "kept.Mark" } (List.mem_cons_of_mem _ List.mem_cons_self)).1 rfl ?_
    rintro (mappers | remappers | transformers)
    · exact mappers rfl
    · exact remappers rfl
    · exact transformers rfl

/-- The defaults of an annotation that was replaced stay, and what took its place has none. -/
theorem leveledContext_tagged :
    ∃ metadata : Metadata,
      ((Session.fresh leveledContext).serve (.build (.declaration "bean.tagged"))).1 =
        some (.ok metadata) ∧
      metadata.value? "old.Tag" "level" = some (.string "low") ∧ ¬ metadata.Records "old.Tag" ∧
      Walk.transformedBy leveledContext { name := "old.Tag" } = [{ name := "new.Tag" }] ∧
      metadata.Records "new.Tag" ∧ leveledContext.model.retentionOf "new.Tag" = .runtime ∧
      metadata.values? "new.Tag" = some [] ∧ metadata.value? "new.Tag" "level" = none := by
  refine ⟨_, rfl, rfl, ?_, rfl, ⟨_, List.mem_cons_self, .inl rfl⟩, rfl, rfl, rfl⟩
  rintro ⟨layer, listed, recorded⟩
  cases List.mem_singleton.mp listed
  rcases recorded with present | grouped
  · cases present
  · cases grouped

end AnnotationMetadata
