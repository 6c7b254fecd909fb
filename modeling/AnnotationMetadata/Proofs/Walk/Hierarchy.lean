import AnnotationMetadata.Proofs.Model.Exploration
import AnnotationMetadata.Proofs.Walk.Declaration

set_option autoImplicit false

/-!
# Walks of hierarchies

A hierarchy starts with the element itself. When all of its elements can be read, a
walk of the hierarchy is the walks of its elements one after the other, and then
promotes a default scope.
-/

namespace AnnotationMetadata

namespace Model

variable {model : Model}

/-! ## Members of a hierarchy -/

theorem exists_of_bind_eq_ok {α β : Type} {first : Except ModelError α}
    {next : α → Except ModelError β} {result : β} (ended : first.bind next = .ok result) :
    ∃ value, first = .ok value ∧ next value = .ok result := by
  cases first with
  | error failure => cases ended
  | ok value => exact ⟨value, rfl, ended⟩

private theorem declaredHierarchy_eq_cons {name : String} {declaration : ElementDeclaration}
    {inheritTypes : Bool} {listed : List String}
    (found : model.declaredHierarchy name declaration inheritTypes = .ok listed) :
    ∃ above, listed = name :: above := by
  have cons : [name] <+: listed := by
    unfold declaredHierarchy at found
    split at found
    · exact (explored_of_explore found).concat_isPrefix List.not_mem_nil
    · cases found
      exact List.prefix_rfl
    · split at found
      · obtain ⟨above, types, overridden⟩ := exists_of_bind_eq_ok found
        exact (explored_of_explore types).isPrefix.trans (explored_of_explore overridden).isPrefix
      · exact (explored_of_explore found).isPrefix
  obtain ⟨above, same⟩ := cons
  exact ⟨above, same.symm⟩

/-- The hierarchy of an element starts with the element. -/
theorem hierarchy_eq_cons {element : Element} {inheritTypes declaredOnly : Bool}
    {listed : List Element}
    (found : model.hierarchy element inheritTypes declaredOnly = .ok listed) :
    ∃ above, listed = element :: above := by
  cases element with
  | declaration name =>
    simp only [hierarchy] at found
    split at found
    · cases found
    · split at found
      · cases found
        exact ⟨[], rfl⟩
      · next declaration _ _ =>
        cases names : model.declaredHierarchy name declaration inheritTypes with
        | error failure => rw [names] at found; cases found
        | ok members =>
          rw [names] at found
          cases found
          obtain ⟨above, rfl⟩ := declaredHierarchy_eq_cons names
          exact ⟨above.map .declaration, rfl⟩
  | annotationType name =>
    cases found
    exact ⟨[], rfl⟩
  | member owner name =>
    cases found
    exact ⟨[], rfl⟩

/-- Reading an element gives its occurrences. -/
theorem eq_occurrencesOn_of_read {element : Element} {annotations : List Annotation}
    (found : model.read element = .ok annotations) :
    annotations = model.occurrencesOn element := by
  unfold read at found
  split at found
  · split at found
    · cases found
    · split at found
      · cases found
      · cases found
        rfl
  · cases found
    rfl

end Model

namespace Walk

variable {context : Context}

/-! ## Walks of the elements -/

/-- What is recorded for one element of the hierarchy of a target. -/
def elementTrace (context : Context) (target : Element) (aliases : Bool) (current : Element) :
    Trace :=
  carryOut context
    (occurrences context current (current == target) aliases (context.model.occurrencesOn current))

theorem elements_trace {target : Element} {aliases : Bool} {hierarchy : List Element}
    (complete : (elements context target aliases hierarchy).failure = none) :
    (elements context target aliases hierarchy).trace =
      hierarchy.flatMap (elementTrace context target aliases) ++ [.promoteScope] := by
  induction hierarchy with
  | nil => rfl
  | cons current rest ih =>
    simp only [elements] at complete ⊢
    cases found : context.model.read current with
    | error failure => rw [found] at complete; cases complete
    | ok annotations =>
      simp only [found] at complete
      rw [List.flatMap_cons, List.append_assoc, ← ih complete, elementTrace,
        ← Model.eq_occurrencesOn_of_read found]

theorem mem_combinedHierarchy {model : Model} {parent : Option Element} {target : Element}
    {options : BuildOptions} {hierarchy : List Element}
    (combined : combinedHierarchy model parent target options = .ok hierarchy) :
    target ∈ hierarchy := by
  unfold combinedHierarchy at combined
  obtain ⟨own, found, combined⟩ := Model.exists_of_bind_eq_ok combined
  obtain ⟨above, same⟩ := Model.hierarchy_eq_cons found
  have listed : target ∈ own := same ▸ List.mem_cons_self
  cases parent with
  | none =>
    cases combined
    exact listed
  | some parent =>
    obtain ⟨inherited, _, combined⟩ := Model.exists_of_bind_eq_ok combined
    cases combined
    exact List.mem_append_right _ listed

/-- A walk without a failure is the walks of a whole hierarchy, its target last. -/
theorem element_trace {parent : Option Element} {target : Element} {options : BuildOptions}
    (complete : (element context parent target options).failure = none) :
    ∃ hierarchy, combinedHierarchy context.model parent target options = .ok hierarchy ∧
      (element context parent target options).trace =
        hierarchy.reverse.flatMap (elementTrace context target options.aliases) ++
          [.promoteScope] := by
  simp only [element] at complete ⊢
  cases combined : combinedHierarchy context.model parent target options with
  | error failure => rw [combined] at complete; cases complete
  | ok hierarchy =>
    simp only [combined] at complete
    exact ⟨hierarchy, rfl, elements_trace complete⟩

theorem promoteScope_not_mem_elementTrace {target current : Element} {aliases : Bool} :
    Recording.promoteScope ∉ elementTrace context target aliases current := by
  intro recorded
  rcases declaredAs_of_mem_occurrences recorded with same | declared
  · cases same
  · cases declared

theorem promoteScope_not_mem_flatMap {target : Element} {aliases : Bool}
    {hierarchy : List Element} :
    Recording.promoteScope ∉ hierarchy.flatMap (elementTrace context target aliases) := by
  intro recorded
  obtain ⟨current, _, recorded⟩ := List.mem_flatMap.mp recorded
  exact promoteScope_not_mem_elementTrace recorded

/-! ## Walks of any elements -/

/-- What is recorded for occurrences on some element, or when a hierarchy is complete. -/
inductive OfElements (context : Context) : Recording → Prop where
  | walked {element : Element} {declared aliases : Bool} {annotations : List Annotation}
      {recording : Recording}
      (recorded : recording ∈
        carryOut context (occurrences context element declared aliases annotations)) :
      OfElements context recording
  | promoteScope : OfElements context .promoteScope

private theorem ofElements_of_mem_elements {target : Element} {aliases : Bool}
    {hierarchy : List Element} {recording : Recording}
    (recorded : recording ∈ (elements context target aliases hierarchy).trace) :
    OfElements context recording := by
  induction hierarchy with
  | nil =>
    cases List.mem_singleton.mp recorded
    exact .promoteScope
  | cons current rest ih =>
    simp only [elements] at recorded
    split at recorded
    · cases recorded
    · rcases List.mem_append.mp recorded with own | others
      · exact .walked own
      · exact ih others

theorem ofElements_of_mem_element {parent : Option Element} {target : Element}
    {options : BuildOptions} {recording : Recording}
    (recorded : recording ∈ (element context parent target options).trace) :
    OfElements context recording := by
  unfold element at recorded
  split at recorded
  · cases recorded
  · exact ofElements_of_mem_elements recorded

theorem ofElements_of_mem_annotationMember {owner member : String} {recording : Recording}
    (recorded : recording ∈ annotationMember context owner member) :
    OfElements context recording := by
  rcases List.mem_append.mp recorded with own | promoted
  · exact .walked own
  · cases List.mem_singleton.mp promoted
    exact .promoteScope

end Walk

end AnnotationMetadata
