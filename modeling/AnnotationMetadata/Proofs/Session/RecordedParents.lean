import AnnotationMetadata.Proofs.Session.HierarchyStore
import AnnotationMetadata.Proofs.Session.History
import AnnotationMetadata.Proofs.Session.Termination
import AnnotationMetadata.Proofs.Store.WellFormed
import AnnotationMetadata.Proofs.Walk.Grounded

set_option autoImplicit false

/-!
# Recorded parents

Stereotypes are indexed under the annotations above them before these are written. Without
extensions, all of them are recorded once a build or an addition is complete.
-/

namespace AnnotationMetadata

namespace Store

/-- All annotations in the index of stereotypes have a property. -/
def IndexedBy (store : Store) (P : String → Prop) : Prop :=
  ∀ entry ∈ store.parents, ∀ parent ∈ entry.2, P parent

variable {store : Store} {P : String → Prop}

private theorem forall_addParents {parents other : Dict (List String)}
    (held : ∀ entry ∈ parents, ∀ parent ∈ entry.2, P parent)
    (layered : ∀ entry ∈ other, ∀ parent ∈ entry.2, P parent) :
    ∀ entry ∈ addParents parents other, ∀ parent ∈ entry.2, P parent := by
  induction other generalizing parents with
  | nil => exact held
  | cons first rest ih =>
    refine ih (fun entry member parent listed => ?_)
      fun later member => layered later (List.mem_cons_of_mem _ member)
    rcases Dict.mem_of_mem_alter member with old | ⟨present, known, rfl⟩
    · exact held entry old parent listed
    · rcases mem_unionInOrder.mp listed with before | new
      · rcases known with rfl | known
        · cases before
        · exact held _ known parent before
      · exact layered first List.mem_cons_self parent new

theorem IndexedBy.empty : Store.empty.IndexedBy P :=
  fun _ none => nomatch none

theorem IndexedBy.write (indexed : store.IndexedBy P) {write : Write}
    (given : ∀ parents name, write.index? = some (parents, name) → ∀ parent ∈ parents, P parent) :
    (store.write write).IndexedBy P := by
  rw [IndexedBy, parents_write]
  refine forall_addParents indexed fun entry listed => ?_
  exact given entry.2 entry.1 (Write.index?_of_mem_indexed listed).1

theorem IndexedBy.promoteDefaultScope (indexed : store.IndexedBy P) :
    store.promoteDefaultScope.IndexedBy P := by
  rwa [IndexedBy, (promoteDefaultScope_keeps store).2]

theorem IndexedBy.recordAll (indexed : store.IndexedBy P) {trace : Trace}
    (only : ∀ recording ∈ trace, recording.IndexesOnly P) :
    (store.recordAll trace).IndexedBy P := by
  induction trace generalizing store with
  | nil => exact indexed
  | cons recording rest ih =>
    refine ih ?_ fun later member => only later (List.mem_cons_of_mem _ member)
    have first := only recording List.mem_cons_self
    cases recording with
    | write write =>
      refine indexed.write fun parents name found => ?_
      cases write with
      | stereotype => cases found; exact first
      | stereotypeOccurrence => cases found; exact first
      | direct => cases found
      | occurrence => cases found
      | defaults => cases found
    | promoteScope => exact indexed.promoteDefaultScope
    | warning => exact indexed
    | read => exact indexed
    | unfinished => exact indexed

/-- A grounded trace without extensions indexes stereotypes under what it records. -/
theorem indexedBy_records_recordAll {context : Context} (empty : context.registry = .empty)
    {trace : Trace} (unpromoted : Recording.promoteScope ∉ trace)
    (grounded : Trace.Grounded context trace) :
    (Store.empty.recordAll trace).IndexedBy (Store.empty.recordAll trace).Records := by
  refine IndexedBy.empty.recordAll fun recording recorded =>
    ((grounded recording recorded).mono ?_).indexesOnly
  rintro name (records | mappers | replaces)
  · exact (records_recordAll unpromoted).mpr (.inr records)
  · exact absurd (Walk.mappers_of_empty empty name) mappers
  · exact absurd replaces (Walk.not_replaces_of_empty empty name)

end Store

/-- In every layer, the annotations that a stereotype is indexed under are recorded. -/
def Metadata.RecordsParents (metadata : Metadata) : Prop :=
  ∀ layer ∈ metadata.layers, layer.IndexedBy layer.Records

theorem Metadata.recordsParents_ofStore {store : Store}
    (indexed : store.IndexedBy store.Records) : (Metadata.ofStore store).RecordsParents := by
  unfold Metadata.ofStore
  split
  · exact fun _ none => nomatch none
  · intro layer listed
    cases List.mem_singleton.mp listed
    exact indexed

/-- A walk that a known defect ended gives empty metadata. -/
theorem Session.eq_empty_of_hasDefect {session : Session} {element : Element} {seed : Store}
    {walk : ElementWalk} {metadata : Metadata} (defect : walk.HasDefect)
    (built : (session.conclude element seed walk).1 = .ok metadata) : metadata = .empty := by
  obtain ⟨reason, failed⟩ := defect
  simp only [conclude, failed] at built
  split at built
  · cases built
  · exact (Except.ok.inj built).symm

theorem eq_empty_of_build {session : Session} {element : Element} {metadata : Metadata}
    (unregistered : session.mutation? (session.model.declaringType element) element = none)
    (built : (session.serve (.build element)).1 = some (.ok metadata))
    (defect : (ElementBuild.all.walk session.context element).HasDefect) : metadata = .empty := by
  have answer : (session.serve (ElementBuild.all.request element)).1 = some (.ok metadata) := built
  rw [ElementBuild.serve_request unregistered] at answer
  exact Session.eq_empty_of_hasDefect defect (Option.some.inj answer)

theorem Walk.promoteScope_not_mem_added (context : Context) (occurrence : Annotation) :
    Recording.promoteScope ∉ added context occurrence := by
  intro recorded
  rcases Plan.declaredAs_of_mem_carryOut
    (fun step planned => (additionStep_of_mem_addition planned).declaredAs)
    (fun _ _ below => declaredAs_of_mem_stereotypes below) recorded with same | declared
  · cases same
  · cases declared

private theorem hierarchyStore_indexedBy {context : Context} (empty : context.registry = .empty)
    (target : Element) (hierarchy : List Element) :
    (hierarchyStore context target hierarchy).IndexedBy
      (hierarchyStore context target hierarchy).Records := by
  have indexed := Store.indexedBy_records_recordAll empty Walk.promoteScope_not_mem_flatMap
    (Walk.hierarchy_grounded target true hierarchy)
  intro entry member parent listed
  exact (indexed.promoteDefaultScope entry member parent listed).promoteDefaultScope

theorem Session.serve_annotate_of_finished {session : Session} {occurrence : Annotation}
    (reads : session.ReadsEnd (Walk.added session.context occurrence))
    (finished : Recording.unfinished ∉ Walk.added session.context occurrence)
    (metadata : Metadata) :
    (session.serve (.annotate metadata occurrence)).1 =
      some (.ok (metadata.declaring (Walk.added session.context occurrence))) := by
  have complete := observeAll_cutOff_eq_false session reads finished
  simp [serve, answered, annotate_fst, complete]

theorem Session.serve_annotate {session : Session} (finish : Walk.AllFinish session.context)
    (metadata : Metadata) (occurrence : Annotation) :
    (session.serve (.annotate metadata occurrence)).1 =
      some (.ok (metadata.declaring (Walk.added session.context occurrence))) :=
  serve_annotate_of_finished (finish.readsEnd _) (finish.added occurrence) metadata

/-- Without extensions, every annotation that the stereotypes of built metadata are indexed
under is recorded in it, and so it is when an annotation is added to empty metadata. -/
theorem parents_recorded {session : Session} (empty : session.context.registry = .empty) :
    (∀ element metadata,
      session.mutation? (session.model.declaringType element) element = none →
      (session.serve (.build element)).1 = some (.ok metadata) → metadata.RecordsParents) ∧
    ∀ occurrence, ∃ metadata,
      (session.serve (.annotate .empty occurrence)).1 = some (.ok metadata) ∧
        metadata.RecordsParents := by
  refine ⟨?_, ?_⟩
  · intro element metadata unregistered built
    by_cases defect : (ElementBuild.all.walk session.context element).HasDefect
    · rw [eq_empty_of_build unregistered built defect]
      exact fun _ none => nomatch none
    · obtain ⟨hierarchy, _, rfl⟩ := exists_hierarchyStore_of_build unregistered built defect
      exact Metadata.recordsParents_ofStore (hierarchyStore_indexedBy empty element _)
  · intro occurrence
    refine ⟨_, session.serve_annotate (.of_empty empty) .empty occurrence, ?_⟩
    refine Metadata.recordsParents_ofStore ?_
    exact Store.indexedBy_records_recordAll empty
      (Walk.promoteScope_not_mem_added session.context occurrence)
      (Walk.added_grounded occurrence)

/-- A repeatable annotation that leads to an interceptor binding with a meta-annotation. -/
def tracedContext : Context where
  model :=
    { document :=
        { annotations :=
            [("bean.Traced",
                { container := "bean.Traces", annotations := [{ name := "bean.Level" }] }),
              ("bean.Level", { annotations := [{ name := Name.interceptorBinding }] }),
              (Name.interceptorBinding, { annotations := [{ name := "bean.Meta" }] })]
          elements :=
            [("bean.field", { kind := .field, annotations := [{ name := "bean.Traced" }] })] } }

theorem tracedContext_parents :
    tracedContext.registry = .empty ∧
      ∃ metadata : Metadata,
        ((Session.fresh tracedContext).serve (.build (.declaration "bean.field"))).1 =
          some (.ok metadata) ∧
        metadata.namesByStereotype "bean.Meta" =
          ["bean.Traced", "bean.Level", Name.interceptorBinding] ∧
        metadata.RecordsParents := by
  have empty : (Session.fresh tracedContext).context.registry = .empty := rfl
  exact ⟨rfl, _, rfl, rfl, (parents_recorded empty).1 (.declaration "bean.field") _ rfl rfl⟩

end AnnotationMetadata
