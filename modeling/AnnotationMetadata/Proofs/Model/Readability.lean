import AnnotationMetadata.Proofs.Walk.Hierarchy

set_option autoImplicit false

/-!
# Readable hierarchies

A hierarchy depends on how declarations refer to each other, not on the annotations that
stand on them nor on what breaks off. It fails over a name that is not declared, and every
element that it lists can be read unless the element itself breaks off.
-/

namespace AnnotationMetadata

namespace ElementDeclaration

/-- The declaration as if it could always be read. -/
def unaborted (declaration : ElementDeclaration) : ElementDeclaration :=
  { declaration with abort := none }

/-- The declaration without the annotations that stand on the element. -/
def unannotated (declaration : ElementDeclaration) : ElementDeclaration :=
  { declaration with annotations := [] }

/-- What a declaration says about other elements. -/
def bare (declaration : ElementDeclaration) : ElementDeclaration :=
  declaration.unannotated.unaborted

end ElementDeclaration

namespace Model

variable {model other : Model}

/-! ## What a hierarchy depends on -/

/-- The models declare the same elements, and relate them to each other alike. -/
def RelatesAlike (model other : Model) : Prop :=
  ∀ name, (other.declaration? name).map ElementDeclaration.bare =
    (model.declaration? name).map ElementDeclaration.bare

theorem RelatesAlike.of_unaborted
    (same : ∀ name, (other.declaration? name).map ElementDeclaration.unaborted =
      (model.declaration? name).map ElementDeclaration.unaborted) : model.RelatesAlike other := by
  intro name
  have further := congrArg (Option.map ElementDeclaration.unannotated) (same name)
  rw [Option.map_map, Option.map_map] at further
  exact further

theorem RelatesAlike.of_unannotated
    (same : ∀ name, (other.declaration? name).map ElementDeclaration.unannotated =
      (model.declaration? name).map ElementDeclaration.unannotated) :
    model.RelatesAlike other := by
  intro name
  have further := congrArg (Option.map ElementDeclaration.unaborted) (same name)
  rw [Option.map_map, Option.map_map] at further
  exact further

theorem explore_congr (alike : model.RelatesAlike other)
    (links : String → ElementDeclaration → List Link)
    (bare : ∀ name declaration, links name declaration.bare = links name declaration)
    (pending : List Link) (listed : List String) :
    other.explore links pending listed = model.explore links pending listed := by
  induction pending, listed using explore.induct model links with
  | case1 listed => rw [explore, explore]
  | case2 listed link rest member ih =>
    rw [explore_of_listed member, explore_of_listed member, ih]
  | case3 listed link rest unlisted unknown =>
    have there := alike link.name
    rw [unknown, Option.map_none, Option.map_eq_none_iff] at there
    rw [explore_of_unknown unlisted unknown, explore_of_unknown unlisted there]
  | case4 listed link rest unlisted declaration found ih =>
    have there := alike link.name
    rw [found, Option.map_some, Option.map_eq_some_iff] at there
    obtain ⟨twin, foundThere, same⟩ := there
    have linked : links link.name twin = links link.name declaration := by
      rw [← bare, same, bare]
    rw [explore_of_found unlisted found, explore_of_found unlisted foundThere, linked, ih]

/-- Elements that are related alike have the same hierarchy, or fail alike. -/
theorem hierarchy_congr (alike : model.RelatesAlike other) (element : Element)
    (inheritTypes declaredOnly : Bool) :
    other.hierarchy element inheritTypes declaredOnly =
      model.hierarchy element inheritTypes declaredOnly := by
  have declared : ∀ name declaration,
      other.declaredHierarchy name declaration inheritTypes =
        model.declaredHierarchy name declaration inheritTypes := by
    intro name declaration
    have types := explore_congr alike supertypeLinks fun _ _ => rfl
    have overridden := explore_congr alike overrideLinks fun _ _ => rfl
    simp only [declaredHierarchy, withTypes, withOverridden, types, overridden]
  cases element with
  | annotationType name => rfl
  | member owner name => rfl
  | declaration name =>
    have there := alike name
    unfold hierarchy
    dsimp only
    cases found : model.declaration? name with
    | none =>
      rw [found, Option.map_none, Option.map_eq_none_iff] at there
      rw [there]
    | some declaration =>
      rw [found, Option.map_some, Option.map_eq_some_iff] at there
      obtain ⟨twin, foundThere, same⟩ := there
      -- Only what the declarations say about other elements is looked at.
      have names : model.declaredHierarchy name twin inheritTypes =
          model.declaredHierarchy name declaration inheritTypes := by
        have bare := congrArg (model.declaredHierarchy name · inheritTypes) same
        exact bare
      rw [foundThere]
      dsimp only
      rw [declared, names]

/-! ## Failures -/

theorem exists_failure_of_explore {links : String → ElementDeclaration → List Link}
    {pending : List Link} {listed : List String} {cause : ModelError}
    (failed : model.explore links pending listed = .error cause) :
    ∃ message, cause = .failure message := by
  induction pending, listed using explore.induct model links with
  | case1 listed =>
    rw [explore] at failed
    cases failed
  | case2 listed link rest member ih => exact ih ((explore_of_listed member).symm.trans failed)
  | case3 listed link rest unlisted unknown =>
    cases (explore_of_unknown unlisted unknown).symm.trans failed
    exact ⟨_, rfl⟩
  | case4 listed link rest unlisted declaration found ih =>
    exact ih ((explore_of_found unlisted found).symm.trans failed)

/-- A hierarchy of names is explored along supertypes and then along what is overridden,
starting with at most the element itself. -/
theorem declaredHierarchy_eq_bind (model : Model) (name : String)
    (declaration : ElementDeclaration) (inheritTypes : Bool) :
    ∃ types listed overridden, listed ⊆ [name] ∧
      model.declaredHierarchy name declaration inheritTypes =
        (model.explore supertypeLinks types listed).bind
          (model.explore overrideLinks overridden) := by
  have done : ∀ links listed, model.explore links [] listed = .ok listed :=
    fun _ _ => by rw [explore]
  unfold declaredHierarchy
  split
  · refine ⟨[unknownElement name], [], [], List.nil_subset _, ?_⟩
    rw [withTypes]
    cases model.explore supertypeLinks [unknownElement name] [] with
    | error cause => rfl
    | ok listed => exact (done overrideLinks listed).symm
  · refine ⟨[], [name], [], List.Subset.refl _, ?_⟩
    rw [done]
    exact (done overrideLinks [name]).symm
  · split
    · exact ⟨_, [name], _, List.Subset.refl _, rfl⟩
    · refine ⟨[], [name], overrideLinks name declaration, List.Subset.refl _, ?_⟩
      rw [done]
      rfl

/-- A hierarchy does not break off, it fails. -/
theorem exists_failure_of_hierarchy {element : Element} {inheritTypes declaredOnly : Bool}
    {cause : ModelError}
    (failed : model.hierarchy element inheritTypes declaredOnly = .error cause) :
    ∃ message, cause = .failure message := by
  cases element with
  | annotationType name => cases failed
  | member owner name => cases failed
  | declaration name =>
    simp only [hierarchy] at failed
    split at failed
    · cases failed
      exact ⟨_, rfl⟩
    · next declaration _ =>
      split at failed
      · cases failed
      · obtain ⟨types, start, overridden, _, phases⟩ :=
          declaredHierarchy_eq_bind model name declaration inheritTypes
        rw [phases] at failed
        cases first : model.explore supertypeLinks types start with
        | error early =>
          rw [first] at failed
          cases failed
          exact exists_failure_of_explore first
        | ok listed =>
          rw [first, Except.bind] at failed
          cases second : model.explore overrideLinks overridden listed with
          | error late =>
            rw [second] at failed
            cases failed
            exact exists_failure_of_explore second
          | ok result =>
            rw [second] at failed
            cases failed

/-! ## Reading the elements -/

/-- Whether reading the element is known to be possible, unless it breaks off. -/
def Declares (model : Model) : Element → Prop
  | .declaration name => (model.declaration? name).isSome
  | _ => True

/-- Why the element breaks off, if it does. -/
def abort? (model : Model) : Element → Option String
  | .declaration name => (model.declaration? name).bind ElementDeclaration.abort
  | _ => none

theorem abort?_of_read {element : Element} {annotations : List Annotation}
    (found : model.read element = .ok annotations) : model.abort? element = none := by
  cases element with
  | annotationType name => rfl
  | member owner name => rfl
  | declaration name =>
    cases declared : model.declaration? name with
    | none => rw [abort?, declared]; rfl
    | some declaration =>
      cases broken : declaration.abort with
      | none => rw [abort?, declared, Option.bind_some, broken]
      | some reason =>
        simp only [read, declared, broken] at found
        cases found

theorem read_of_declares {element : Element} (declared : model.Declares element) :
    model.read element =
      match model.abort? element with
      | some reason => .error (.environmentDefect reason)
      | none => .ok (model.occurrencesOn element) := by
  cases element with
  | annotationType name => rfl
  | member owner name => rfl
  | declaration name =>
    obtain ⟨declaration, found⟩ := Option.isSome_iff_exists.mp declared
    rw [read, abort?, found]
    rfl

theorem declares_of_mem_hierarchy {element : Element} {inheritTypes declaredOnly : Bool}
    {hierarchy : List Element}
    (listed : model.hierarchy element inheritTypes declaredOnly = .ok hierarchy) :
    ∀ current ∈ hierarchy, model.Declares current := by
  cases element with
  | annotationType name =>
    cases listed
    exact fun current same => List.mem_singleton.mp same ▸ trivial
  | member owner name =>
    cases listed
    exact fun current same => List.mem_singleton.mp same ▸ trivial
  | declaration name =>
    simp only [Model.hierarchy] at listed
    split at listed
    · cases listed
    · next declaration found =>
      have itself : (model.declaration? name).isSome := found ▸ rfl
      split at listed
      · cases listed
        exact fun current same => List.mem_singleton.mp same ▸ itself
      · obtain ⟨types, start, overridden, own, phases⟩ :=
          declaredHierarchy_eq_bind model name declaration inheritTypes
        rw [phases] at listed
        cases ended : (model.explore supertypeLinks types start).bind
            (model.explore overrideLinks overridden) with
        | error cause => rw [ended] at listed; cases listed
        | ok names =>
          rw [ended] at listed
          cases listed
          obtain ⟨between, first, second⟩ := exists_of_bind_eq_ok ended
          have declared := (explored_of_explore second).declared
            ((explored_of_explore first).declared fun other member =>
              List.mem_singleton.mp (own member) ▸ itself)
          intro current among
          obtain ⟨other, member, rfl⟩ := List.mem_map.mp among
          exact declared other member

end Model

end AnnotationMetadata
