import AnnotationMetadata.Proofs.Session.RecordedParents
import AnnotationMetadata.Proofs.Store.Repeated

set_option autoImplicit false

/-!
# Annotating again

What annotating writes does not depend on the metadata that it is written to. Metadata
to which an annotation has been added takes in the same trace once more, which its
declared part has recorded already. Only an occurrence that does not agree with itself is
added to its group again.
-/

namespace AnnotationMetadata

variable {trace : Trace}

/-- A trace that leaves one store without annotations and stereotypes writes none. -/
private theorem Store.isEmpty_recordAll (unpromoted : Recording.promoteScope ∉ trace)
    {store other : Store} (emptied : (store.recordAll trace).isEmpty = true)
    (empty : other.isEmpty = true) : (other.recordAll trace).isEmpty = true := by
  have annotations := recordAll_changeTable (fun store write => (store.write_annotations write).1)
    unpromoted
  have stereotypes := recordAll_changeTable (fun store write => (store.write_stereotypes write).1)
    unpromoted
  rw [isEmpty, Bool.and_eq_true, List.isEmpty_iff, List.isEmpty_iff] at emptied empty ⊢
  rw [annotations, stereotypes] at emptied ⊢
  have unannotated :=
    not_imp_comm.mp (changeTable_ne_nil store.annotations) (not_not.mpr emptied.1)
  have unstereotyped :=
    not_imp_comm.mp (changeTable_ne_nil store.stereotypes) (not_not.mpr emptied.2)
  rw [unannotated, unstereotyped]
  exact empty

namespace Metadata

theorem declaring_ofStore (unpromoted : Recording.promoteScope ∉ trace)
    (own : trace.SelfAgreeing) (store : Store) :
    (ofStore (store.recordAll trace)).declaring trace = ofStore (store.recordAll trace) := by
  cases recorded : (store.recordAll trace).isEmpty with
  | true =>
    have nothing : (Store.empty.recordAll trace).isEmpty = true :=
      Store.isEmpty_recordAll unpromoted recorded rfl
    simp only [ofStore, recorded, if_true, declaring, nothing]
  | false =>
    rw [ofStore_eq_store recorded, declaring, Store.recordAll_twice unpromoted store own,
      ofStore_eq_store recorded]

private theorem declaring_twice (unpromoted : Recording.promoteScope ∉ trace)
    (own : trace.SelfAgreeing) (metadata : Metadata) :
    (metadata.declaring trace).declaring trace = metadata.declaring trace := by
  induction metadata with
  | empty => exact declaring_ofStore unpromoted own .empty
  | store data => exact declaring_ofStore unpromoted own data
  | hierarchy parent declared _ declaredAgain =>
    exact congrArg (hierarchy parent) declaredAgain
  | reference className target =>
    exact congrArg (hierarchy (reference className target)) (declaring_ofStore unpromoted own .empty)

private theorem exists_declaredPart?_declaring (unpromoted : Recording.promoteScope ∉ trace)
    {write : Store.Write} (written : .write write ∈ trace) {name : String}
    (records : write.Records name) (metadata : Metadata) :
    ∃ part, (metadata.declaring trace).declaredPart? = some part ∧ part.Records name := by
  have stored : ∀ store : Store, ∃ part,
      (ofStore (store.recordAll trace)).declaredPart? = some part ∧ part.Records name := by
    intro store
    obtain ⟨key, named⟩ := records.exists_key?
    have present : (store.recordAll trace).hasStereotype key = true :=
      (Store.hasStereotype_recordAll unpromoted).mpr (.inr ⟨write, written, named⟩)
    rw [ofStore_eq_store (Store.isEmpty_eq_false present)]
    exact ⟨_, rfl, (Store.records_recordAll unpromoted).mpr (.inr ⟨write, written, records⟩)⟩
  induction metadata with
  | empty => exact stored .empty
  | store data => exact stored data
  | hierarchy _ _ _ declaredHere => exact declaredHere
  | reference => exact stored .empty

end Metadata

theorem Walk.exists_write_mem_added (context : Context) (occurrence : Annotation) :
    ∃ write, .write write ∈ added context occurrence ∧ write.Records occurrence.name := by
  have written : ∃ container retention, Step.record (Placement.direct.writeIn true container
      { occurrence with retention }) ∈ addition context occurrence := by
    simp only [addition]
    split
    · exact ⟨none, occurrence.retention, List.mem_singleton_self _⟩
    · exact ⟨_, _, List.mem_cons_self⟩
  obtain ⟨container, retention, planned⟩ := written
  obtain ⟨write, same, records⟩ :=
    Placement.exists_writeIn .direct true container { occurrence with retention }
  rw [same] at planned
  exact ⟨write, List.mem_flatMap.mpr ⟨_, planned, List.mem_singleton_self _⟩,
    (records occurrence.name).mpr (.inl rfl)⟩

/-- Annotating is answered with metadata that records the annotation as declared, and
annotating the answer with the same annotation gives the answer back, whatever the metadata
was that was annotated first. What the walk adds to groups has to agree with itself. The
second call may come from any builder of the context. Where there is a validator, the walks
that it asks for have to end as well. -/
theorem annotate_idempotent {context : Context} {occurrence : Annotation}
    (ends : Walk.Plan.Ends context (Walk.addition context occurrence))
    {session other : Session} (first : session.context = context)
    (second : other.context = context)
    (validationEnds : session.validator.isSome ∨ other.validator.isSome →
      ∀ read, .read read ∈ Walk.added context occurrence →
        Walk.Plan.Ends context (Walk.memberOccurrences context read.annotation read.member))
    (own : Trace.SelfAgreeing (Walk.added context occurrence)) (metadata : Metadata) :
    ∃ annotated, (session.serve (.annotate metadata occurrence)).1 = some (.ok annotated) ∧
      (other.serve (.annotate annotated occurrence)).1 = some (.ok annotated) ∧
      ∃ part, annotated.declaredPart? = some part ∧ part.Records occurrence.name := by
  have finished : Recording.unfinished ∉ Walk.added context occurrence :=
    (Walk.IsStart.addition occurrence).finished_of_ends ends
  have uncut : session.validator.isSome ∨ other.validator.isSome →
      ∀ read, .read read ∈ Walk.added context occurrence →
        Recording.unfinished ∉ Walk.annotationMember context read.annotation read.member :=
    fun validated read recorded =>
      Walk.annotationMember_finished (validationEnds validated read recorded)
  have answered : ∀ asked, asked = session ∨ asked = other → ∀ given,
      (asked.serve (.annotate given occurrence)).1 =
        some (.ok (given.declaring (Walk.added context occurrence))) := by
    rintro asked (rfl | rfl) given
    · subst first
      exact Session.serve_annotate_of_finished (fun validated => uncut (.inl validated)) finished
        given
    · subst second
      exact Session.serve_annotate_of_finished (fun validated => uncut (.inr validated)) finished
        given
  refine ⟨_, answered session (.inl rfl) metadata, ?_⟩
  have unpromoted := Walk.promoteScope_not_mem_added context occurrence
  obtain ⟨write, written, records⟩ := Walk.exists_write_mem_added context occurrence
  refine ⟨?_, Metadata.exists_declaredPart?_declaring unpromoted written records metadata⟩
  rw [answered other (.inr rfl), Metadata.declaring_twice unpromoted own]

/-- A repeatable annotation, bound to an interceptor. One of its meta-annotations has a
member that is an alias, another one is renamed. -/
def auditedContext : Context where
  registry := .ofExtensions [.rename "old.Level" "audit.Level"]
  model :=
    { document :=
        { annotations :=
            [("audit.Audited",
                { container := "audit.Audits"
                  members := [("level", { default := some (.string "low") })]
                  annotations :=
                    [{ name := Name.around },
                      { name := "audit.Tag", members := [(Name.valueMember, .string "x")] },
                      { name := "old.Level" }] }),
              ("audit.Tag",
                { members :=
                    [(Name.valueMember,
                        { annotations :=
                            [{ name := Name.aliasFor
                               members :=
                                [("annotation", .string "audit.Named"),
                                  ("member", .string Name.valueMember)] }] })] })] } }

theorem auditedContext_annotated :
    ∃ annotated,
      ((Session.fresh auditedContext).serve
        (.annotate (.hierarchy .empty (.reference "audit.Base" .empty))
          { name := "audit.Audited" })).1 = some (.ok annotated) ∧
      ((Session.fresh auditedContext (some fun _ _ _ => ["rejected"])).serve
        (.annotate annotated { name := "audit.Audited" })).1 = some (.ok annotated) ∧
      annotated.hasStereotype "audit.Level" = true := by
  have walk : Walk.Plan.Ends auditedContext
      (Walk.addition auditedContext { name := "audit.Audited" }) :=
    Walk.Plan.ends_of_uncut 3 (by decide)
  have tagged : ∀ read, .read read ∈ Walk.added auditedContext { name := "audit.Audited" } →
      read.annotation = "audit.Tag" ∧ read.member = Name.valueMember :=
    fun _ recorded => Session.eq_of_readsOnly (by decide) recorded
  have validation : ∀ read,
      .read read ∈ Walk.added auditedContext { name := "audit.Audited" } →
        Walk.Plan.Ends auditedContext
          (Walk.memberOccurrences auditedContext read.annotation read.member) := by
    intro read recorded
    obtain ⟨owner, member⟩ := tagged read recorded
    rw [owner, member]
    exact Walk.Plan.ends_of_uncut 3 (by decide)
  have own : Trace.SelfAgreeing (Walk.added auditedContext { name := "audit.Audited" }) :=
    .of_numbers (by decide +kernel)
  have first : (Session.fresh auditedContext).context = auditedContext := rfl
  have second : (Session.fresh auditedContext (some fun _ _ _ => ["rejected"])).context =
      auditedContext := rfl
  obtain ⟨annotated, once, twice, _⟩ := annotate_idempotent walk first second
    (fun _ => validation) own (.hierarchy .empty (.reference "audit.Base" .empty))
  exact ⟨annotated, once, twice, by cases once; rfl⟩

/-- An occurrence that does not agree with itself is added to its group each time. -/
theorem numberlessContext_annotated :
    ∃ annotated again : Metadata,
      ((Session.fresh numberlessContext).serve
        (.annotate .empty numberlessContext.tag)).1 = some (.ok annotated) ∧
      ((Session.fresh numberlessContext).serve
        (.annotate annotated numberlessContext.tag)).1 = some (.ok again) ∧
      (annotated.occurrences "bean.Tag").length = 1 ∧ (again.occurrences "bean.Tag").length = 2 :=
  ⟨_, _, rfl, rfl, by decide +kernel, by decide +kernel⟩

end AnnotationMetadata
