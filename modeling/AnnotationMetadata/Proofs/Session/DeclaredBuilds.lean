import AnnotationMetadata.Proofs.Session.AddedAnnotation
import AnnotationMetadata.Proofs.Session.InheritedAnnotations

set_option autoImplicit false

/-!
# Builds of what an element declares

Without extensions, an element that can be read has its declared metadata built, and
the walk of the element alone makes its declared tables. A scope that is promoted comes
last among the annotations and has no members.
-/

namespace AnnotationMetadata

variable {context : Context}

namespace Session

theorem exists_declared_of_buildDeclared {session : Session}
    (empty : session.context.registry = .empty) {element : Element}
    {annotations : List Annotation} (read : session.model.read element = .ok annotations) :
    ∃ metadata, (session.serve (.buildDeclared element)).1 = some (.ok metadata) ∧
      metadata.declaredStereotypes =
        Store.changeTable []
          (Walk.declaredChanges session.context element true Store.Write.stereotype?) ∧
      ∃ added, metadata.declaredAnnotations =
        Store.changeTable []
            (Walk.declaredChanges session.context element true Store.Write.annotation?) ++
          Store.promotion added := by
  have served := session.serve_buildDeclared (.of_empty empty) read
  have walk := Walk.element_declaredOnly read
  have complete : (Walk.element session.context none element
      ElementBuild.declared.options).failure = none := by rw [walk]
  have lists : (Store.empty.recordAll (Walk.element session.context none element
      ElementBuild.declared.options).trace).ListsDeclared :=
    Store.ListsDeclared.recordAll ⟨fun _ => rfl, fun _ => rfl⟩ _
  have declared := Walk.declared_of_element complete fun hierarchy combined again => by
    have twice : ElementBuild.declared.WalksTwice session.context.model element :=
      ElementBuild.walksTwice_of_count combined again
    exact absurd twice (ElementBuild.not_walksTwice rfl)
  rw [walk, Store.recordAll_append] at lists declared
  obtain ⟨annotations, stereotypes⟩ := Metadata.declared_ofStore lists
  refine ⟨_, served, stereotypes.trans declared.1, ?_⟩
  obtain ⟨added, same⟩ := declared.2
  exact ⟨added, annotations.trans same⟩

end Session

/-! ## One member of a table -/

/-- In the walk of the element itself everything is declared. -/
private theorem Walk.declaredChanges_eq {changed : Store.Write → Option (Bool × Store.TableChange)}
    (all : ∀ recording : Recording, recording.DeclaredAs true →
      recording.changes true changed = recording.changes false changed) (element : Element) :
    declaredChanges context element true changed =
      (elementTrace context element true element).flatMap (Recording.changes false changed) := by
  refine List.flatMap_congr fun recording recorded => ?_
  rw [elementTrace, beq_self_eq_true] at recorded
  rcases declaredAs_of_mem_occurrences recorded with rfl | declared
  · rfl
  · exact all recording declared

/-- What the element declares for a member is what its own walk makes of nothing. -/
theorem Walk.memberOf?_declaredTable {changed : Store.Write → Option (Bool × Store.TableChange)}
    (all : ∀ recording : Recording, recording.DeclaredAs true →
      recording.changes true changed = recording.changes false changed) (element : Element)
    (name member : String) :
    Store.memberOf? (Store.changeTable [] (declaredChanges context element true changed)) name
        member =
      Store.changedMember (memberChanges context element changed name member element) none := by
  rw [declaredChanges_eq all, Store.memberOf?_changeTable, Store.memberChanges_flatMap]
  rfl

theorem Walk.memberOf?_declaredStereotypes (element : Element) (name member : String) :
    Store.memberOf?
        (Store.changeTable [] (declaredChanges context element true Store.Write.stereotype?))
        name member =
      Store.changedMember
        (memberChanges context element Store.Write.stereotype? name member element) none :=
  memberOf?_declaredTable (fun _ declared => by cases declared <;> rfl) element name member

/-! ## One annotation of a table -/

namespace Store

/-- What a table holds for an annotation depends on the changes of that annotation. -/
theorem get?_changeTable_filter (table : Dict Members) (changes : List TableChange)
    (name : String) :
    Dict.get? (changeTable table changes) name =
      Dict.get? (changeTable table (changes.filter fun entry => entry.1 = name)) name := by
  rw [changeTable, Dict.get?_changeAll, changedAt_eq, changeTable, Dict.get?_changeAll,
    changedAt_eq]
  simp only [List.any_filter, Bool.and_self, List.filter_filter]

private theorem get?_setMembers_nil {name : String} {members : Members}
    (distinct : (Dict.keys members).Nodup) :
    Dict.get? (setMembers [] name members) name = some members := by
  rw [setMembers, Dict.alter, Dict.get?_insert, if_pos rfl]
  exact congrArg some (Dict.ofEntries_eq_self distinct)

end Store

/-- What a recording changes in one annotation of a declared table. -/
def Recording.changesAt (name : String)
    (changed : Store.Write → Option (Bool × Store.TableChange)) (recording : Recording) :
    List Store.TableChange :=
  (recording.changes true changed).filter fun entry => entry.1 = name

theorem Recording.changesAt_write {changed : Store.Write → Option (Bool × Store.TableChange)}
    {write : Store.Write} {entry : Store.TableChange} (changes : changed write = some (true, entry))
    (name : String) :
    (Recording.write write).changesAt name changed = if entry.1 = name then [entry] else [] := by
  have single : (Recording.write write).changes true changed = [entry] := by
    simp [Recording.changes, Store.changesOf, changes, Option.filter]
  rw [changesAt, single]
  split
  · next named => simp [named]
  · next other => simp [other]

namespace Walk

variable {name : String} (alone : context.WrittenAlone name)

include alone

private theorem changesAt_occurrenceWrite (occurrence : Annotation) :
    (occurrenceWrite context true true occurrence).changesAt name Store.Write.annotation? =
      if occurrence.name == name then
        [(name, (context.model.reading true occurrence).members.map fun entry =>
          (entry.1, .set entry.2))]
      else [] := by
  cases grouped : context.model.containerOf? occurrence.name with
  | none =>
    rw [occurrenceWrite, grouped, Placement.writeIn, Placement.write,
      Recording.changesAt_write rfl, Model.reading]
    by_cases named : occurrence.name = name
    · simp [named]
    · simp [named]
  | some container =>
    -- A repeatable occurrence is written to its group, which is another annotation.
    have other : occurrence.name ≠ name := by
      rintro rfl
      cases grouped.symm.trans alone.ungrouped
    have elsewhere : container ≠ name := by
      rintro rfl
      cases (Model.isContainer_of_containerOf? grouped).symm.trans alone.groupless
    rw [occurrenceWrite, grouped, Placement.writeIn, Placement.writeOccurrence,
      Recording.changesAt_write rfl, if_neg elsewhere, if_neg (by simpa using other)]

private theorem changesAt_of_ofMeta {recording : Recording}
    (ofMeta : recording.OfMeta context.model) :
    recording.changesAt name Store.Write.annotation? = [] := by
  cases ofMeta with
  | @binding declared =>
    cases declared with
    | false => rfl
    | true => rw [Recording.changesAt_write rfl, if_neg alone.unbound.symm]
  | defaults => rfl
  | stereotype => rfl
  | grouped => rfl
  | read => rfl
  | unfinished => rfl

/-- An annotation that occurs once has the members that are read from the occurrence. -/
theorem get?_declaredChanges_of_writtenAlone {element : Element} {occurrence : Annotation}
    (single : (recordedOn context element).filter (fun other => other.name == name) =
      [occurrence]) :
    Dict.get? (Store.changeTable []
        (declaredChanges context element true Store.Write.annotation?)) name =
      some (context.model.reading true occurrence).members := by
  have changes : (elementTrace context element true element).flatMap
      (Recording.changesAt name Store.Write.annotation?) = _ :=
    flatMap_elementTrace alone.registry (fun _ _ => rfl)
      (fun _ ofMeta => changesAt_of_ofMeta alone ofMeta) element element true
  rw [beq_self_eq_true, List.flatMap_congr (fun other _ => changesAt_occurrenceWrite alone other),
    flatMap_if_eq_map_filter, single] at changes
  rw [Store.get?_changeTable_filter, declaredChanges, List.filter_flatMap]
  refine (congrArg (fun made => Dict.get? (Store.changeTable [] made) name) changes).trans ?_
  rw [List.map_singleton, ← Store.setMembers_eq]
  exact Store.get?_setMembers_nil (Model.nodup_reading _ true occurrence)

end Walk

end AnnotationMetadata
