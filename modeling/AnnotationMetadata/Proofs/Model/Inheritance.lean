import AnnotationMetadata.Proofs.Model.Readability
import AnnotationMetadata.Proofs.Model.Supertypes

set_option autoImplicit false

/-!
# What an element inherits from

The hierarchy of a class lists what can be reached along supertypes, that of a method or
constructor what can be reached along overrides and, if asked for, the supertypes of its
declaring type. Both walks add to one list and skip what is on it. As long as they do not
come to the same elements, each of them lists what it would list alone.
-/

namespace AnnotationMetadata.Model

variable {model : Model}

def Overrides (model : Model) (name overridden : String) : Prop :=
  ∃ declaration, model.declaration? name = some declaration ∧ overridden ∈ declaration.overrides

theorem linksTo_overrideLinks : model.LinksTo overrideLinks = model.Overrides := by
  funext name overridden
  refine propext ⟨?_, ?_⟩
  · rintro ⟨declaration, found, link, listed, rfl⟩
    obtain ⟨other, written, rfl⟩ := List.mem_map.mp listed
    exact ⟨declaration, found, written⟩
  · rintro ⟨declaration, found, written⟩
    exact ⟨declaration, found, _, List.mem_map.mpr ⟨overridden, written, rfl⟩, rfl⟩

/-! ## Explorations side by side -/

section Explorations

variable {links : String → ElementDeclaration → List Link}

/-- What an exploration adds to a list depends on which elements that it can come to are on
the list already. -/
theorem exists_added {pending : List Link} {first second : List String}
    (same : ∀ link ∈ pending, ∀ other,
      Relation.ReflTransGen (model.LinksTo links) link.name other →
        (other ∈ first ↔ other ∈ second)) :
    ∃ added : Except ModelError (List String),
      model.explore links pending first = added.map (first ++ ·) ∧
        model.explore links pending second = added.map (second ++ ·) := by
  induction pending, first using explore.induct model links generalizing second with
  | case1 first =>
    refine ⟨.ok [], ?_, ?_⟩
    · rw [explore, Except.map, List.append_nil]
    · rw [explore, Except.map, List.append_nil]
  | case2 first link rest member ih =>
    have there := (same link List.mem_cons_self link.name .refl).mp member
    rw [explore_of_listed member, explore_of_listed there]
    exact ih fun later pending => same later (List.mem_cons_of_mem _ pending)
  | case3 first link rest unlisted unknown =>
    have there := mt (same link List.mem_cons_self link.name .refl).mpr unlisted
    exact ⟨.error (.failure link.complaint), explore_of_unknown unlisted unknown,
      explore_of_unknown there unknown⟩
  | case4 first link rest unlisted declaration found ih =>
    have there := mt (same link List.mem_cons_self link.name .refl).mpr unlisted
    have below : ∀ next ∈ links link.name declaration ++ rest, ∀ other,
        Relation.ReflTransGen (model.LinksTo links) next.name other →
          (other ∈ first ++ [link.name] ↔ other ∈ second ++ [link.name]) := by
      intro next pending other reached
      rw [List.mem_append, List.mem_append]
      refine or_congr_left ?_
      rcases List.mem_append.mp pending with linked | later
      · have step : model.LinksTo links link.name next.name :=
          ⟨declaration, found, next, linked, rfl⟩
        exact same link List.mem_cons_self other (.head step reached)
      · exact same next (List.mem_cons_of_mem _ later) other reached
    obtain ⟨added, here, alike⟩ := ih below
    refine ⟨added.map (link.name :: ·), ?_, ?_⟩
    · rw [explore_of_found unlisted found, here]
      cases added <;> simp [Except.map]
    · rw [explore_of_found there found, alike]
      cases added <;> simp [Except.map]

/-- An exploration fails when it can come to something that is not declared. -/
theorem exists_explore_eq_error_iff (model : Model)
    (links : String → ElementDeclaration → List Link) (start : Link) :
    (∃ cause, model.explore links [start] [] = .error cause) ↔
      ∃ other, Relation.ReflTransGen (model.LinksTo links) start.name other ∧
        model.declaration? other = none := by
  constructor
  · rintro ⟨cause, failed⟩
    by_contra none
    have resolved : ∀ link ∈ [start], ∀ other,
        Relation.ReflTransGen (model.LinksTo links) link.name other →
          (model.declaration? other).isSome := by
      intro link pending other reached
      cases List.mem_singleton.mp pending
      exact Option.isSome_iff_ne_none.mpr fun unknown => none ⟨other, reached, unknown⟩
    obtain ⟨result, ended⟩ := exists_explore_eq_ok [] resolved
    cases failed.symm.trans ended
  · rintro ⟨other, reached, unknown⟩
    cases ended : model.explore links [start] [] with
    | error cause => exact ⟨cause, rfl⟩
    | ok result =>
      have explored := explored_of_explore ended
      have known := explored.declared (by simp) other (explored.mem_iff.mpr reached)
      rw [unknown] at known
      cases known

theorem mem_explore_iff {start : Link} {result : List String}
    (ended : model.explore links [start] [] = .ok result) (other : String) :
    other ∈ result ↔ Relation.ReflTransGen (model.LinksTo links) start.name other :=
  (explored_of_explore ended).mem_iff

end Explorations

/-! ## The hierarchies of members -/

section Members

variable {name owner : String} {declaration : ElementDeclaration}

theorem explore_overrideLinks_singleton (found : model.declaration? name = some declaration) :
    model.explore overrideLinks (overrideLinks name declaration) [name] =
      model.explore overrideLinks [unknownElement name] [] := by
  have unlisted : (unknownElement name).name ∉ ([] : List String) := List.not_mem_nil
  rw [explore_of_found unlisted found, List.append_nil]
  rfl

private theorem declaredHierarchy_of_untyped (found : model.declaration? name = some declaration)
    (notClass : declaration.kind ≠ .classType) (notField : declaration.kind ≠ .field)
    {inheritTypes : Bool} (untyped : inheritTypes = false ∨ declaration.declaringType = none) :
    model.declaredHierarchy name declaration inheritTypes =
      model.explore overrideLinks [unknownElement name] [] := by
  rw [← explore_overrideLinks_singleton found]
  unfold declaredHierarchy
  split
  · next isClass => exact absurd isClass notClass
  · next isField => exact absurd isField notField
  · split
    · next asked declared =>
      rcases untyped with notAsked | undeclared
      · cases notAsked
      · rw [declared] at undeclared
        cases undeclared
    · rfl

private theorem declaredHierarchy_of_typed (notClass : declaration.kind ≠ .classType)
    (notField : declaration.kind ≠ .field) (declared : declaration.declaringType = some owner) :
    model.declaredHierarchy name declaration true =
      (model.explore supertypeLinks [unknownElement owner] [name]).bind
        (model.explore overrideLinks (overrideLinks name declaration)) := by
  unfold declaredHierarchy
  split
  · next isClass => exact absurd isClass notClass
  · next isField => exact absurd isField notField
  · split
    · next typed =>
      cases declared.symm.trans typed
      rfl
    · next untyped => exact absurd declared (untyped owner rfl)

/-- A member that overrides nothing of the hierarchy of its declaring type, and is not part of
it, inherits that hierarchy and what it overrides. -/
private theorem declaredHierarchy_eq_append (found : model.declaration? name = some declaration)
    (notClass : declaration.kind ≠ .classType) (notField : declaration.kind ≠ .field)
    (declared : declaration.declaringType = some owner)
    (apart : ∀ other, Relation.ReflTransGen model.Overrides name other →
      Relation.ReflTransGen model.Extends owner other → model.declaration? other = none) :
    ∃ overridden : Except ModelError (List String),
      model.explore overrideLinks [unknownElement name] [] = overridden.map (name :: ·) ∧
        model.declaredHierarchy name declaration true =
          (model.explore supertypeLinks [unknownElement owner] []).bind fun types =>
            overridden.map (name :: types ++ ·) := by
  -- The member is listed first. The walk along supertypes does not come to it.
  have typesApart : ∀ link ∈ [unknownElement owner], ∀ other,
      Relation.ReflTransGen (model.LinksTo supertypeLinks) link.name other →
        (other ∈ [name] ↔ other ∈ []) := by
    intro link pending other reached
    cases List.mem_singleton.mp pending
    rw [linksTo_supertypeLinks] at reached
    refine iff_of_false (fun listed => ?_) List.not_mem_nil
    cases List.mem_singleton.mp listed
    cases found.symm.trans (apart name .refl reached)
  obtain ⟨types, after, alone⟩ := exists_added typesApart
  rw [declaredHierarchy_of_typed notClass notField declared, after, alone,
    ← explore_overrideLinks_singleton found]
  cases types with
  | error cause =>
    have same : ∀ link ∈ overrideLinks name declaration, ∀ other,
        Relation.ReflTransGen (model.LinksTo overrideLinks) link.name other →
          (other ∈ [name] ↔ other ∈ [name]) := fun _ _ _ _ => .rfl
    obtain ⟨overridden, listed, -⟩ := exists_added same
    exact ⟨overridden, listed, rfl⟩
  | ok types =>
    have explored := explored_of_explore alone
    have overriddenApart : ∀ link ∈ overrideLinks name declaration, ∀ other,
        Relation.ReflTransGen (model.LinksTo overrideLinks) link.name other →
          (other ∈ [name] ↔ other ∈ [name] ++ types) := by
      intro link pending other reached
      rw [List.mem_append]
      refine ⟨.inl, fun listed => listed.resolve_right fun typed => ?_⟩
      have linked : model.LinksTo overrideLinks name link.name :=
        ⟨declaration, found, link, pending, rfl⟩
      have known := explored.declared (by simp) other typed
      rw [apart other (linksTo_overrideLinks ▸ .head linked reached)
        (linksTo_supertypeLinks ▸ explored.mem_iff.mp typed)] at known
      cases known
    obtain ⟨overridden, listed, further⟩ := exists_added overriddenApart
    exact ⟨overridden, listed, further⟩

end Members

/-! ## Hierarchies -/

private theorem nodup_of_declaredHierarchy {name : String} {declaration : ElementDeclaration}
    {inheritTypes : Bool} {names : List String}
    (ended : model.declaredHierarchy name declaration inheritTypes = .ok names) :
    names.Nodup := by
  unfold declaredHierarchy at ended
  split at ended
  · exact (explored_of_explore ended).nodup List.nodup_nil
  · cases ended
    exact List.nodup_singleton name
  · split at ended
    · obtain ⟨types, typed, overridden⟩ := exists_of_bind_eq_ok ended
      exact (explored_of_explore overridden).nodup
        ((explored_of_explore typed).nodup (List.nodup_singleton name))
    · exact (explored_of_explore ended).nodup (List.nodup_singleton name)

theorem nodup_of_hierarchy {element : Element} {inheritTypes declaredOnly : Bool}
    {elements : List Element}
    (ended : model.hierarchy element inheritTypes declaredOnly = .ok elements) :
    elements.Nodup := by
  unfold hierarchy at ended
  split at ended
  · split at ended
    · cases ended
    · split at ended
      · cases ended
        exact List.nodup_singleton _
      · next name _ declaration _ _ =>
        cases names : model.declaredHierarchy name declaration inheritTypes with
        | error cause =>
          rw [names] at ended
          cases ended
        | ok listed =>
          rw [names] at ended
          rw [← Except.ok.inj ended]
          exact (nodup_of_declaredHierarchy names).map fun _ _ => Element.declaration.inj
  · cases ended
    exact List.nodup_singleton _

/-- The hierarchy of an element lists exactly what it inherits from, and fails when one of
these is not declared. -/
structure ListsInherited (model : Model) (name : String) (inheritTypes : Bool)
    (inherited : String → Prop) : Prop where
  fails_iff : (∃ cause, model.hierarchy (.declaration name) inheritTypes false = .error cause) ↔
    ∃ other, inherited other ∧ model.declaration? other = none
  mem_iff : ∀ elements, model.hierarchy (.declaration name) inheritTypes false = .ok elements →
    ∀ element, element ∈ elements ↔ ∃ other, inherited other ∧ element = .declaration other

section Hierarchies

variable {name owner : String} {declaration : ElementDeclaration} {inheritTypes : Bool}

theorem hierarchy_of_found (found : model.declaration? name = some declaration) :
    model.hierarchy (.declaration name) inheritTypes false =
      (model.declaredHierarchy name declaration inheritTypes).map (·.map .declaration) := by
  rw [hierarchy, found]
  rfl

theorem ListsInherited.of_names (found : model.declaration? name = some declaration)
    {inherited : String → Prop}
    (fails_iff : (∃ cause, model.declaredHierarchy name declaration inheritTypes = .error cause) ↔
      ∃ other, inherited other ∧ model.declaration? other = none)
    (mem_iff : ∀ names, model.declaredHierarchy name declaration inheritTypes = .ok names →
      ∀ other, other ∈ names ↔ inherited other) :
    model.ListsInherited name inheritTypes inherited := by
  constructor
  · rw [hierarchy_of_found found, ← fails_iff]
    cases model.declaredHierarchy name declaration inheritTypes with
    | error cause => exact iff_of_true ⟨cause, rfl⟩ ⟨cause, rfl⟩
    | ok names =>
      refine iff_of_false ?_ ?_
      · rintro ⟨cause, failed⟩
        cases failed
      · rintro ⟨cause, failed⟩
        cases failed
  · rw [hierarchy_of_found found]
    cases names : model.declaredHierarchy name declaration inheritTypes with
    | error cause =>
      intro elements ended
      cases ended
    | ok listed =>
      intro elements ended element
      cases ended
      simp only [List.mem_map, mem_iff listed names, eq_comm]

/-- A hierarchy that is one exploration lists what that comes to. -/
theorem ListsInherited.of_explore (found : model.declaration? name = some declaration)
    {links : String → ElementDeclaration → List Link}
    (explored : model.declaredHierarchy name declaration inheritTypes =
      model.explore links [unknownElement name] []) :
    model.ListsInherited name inheritTypes (Relation.ReflTransGen (model.LinksTo links) name) := by
  refine .of_names found ?_ ?_
  · rw [explored]
    exact model.exists_explore_eq_error_iff links (unknownElement name)
  · intro names ended other
    exact mem_explore_iff (explored.symm.trans ended) other

private theorem listsInherited_of_typed (found : model.declaration? name = some declaration)
    (notClass : declaration.kind ≠ .classType) (notField : declaration.kind ≠ .field)
    (declared : declaration.declaringType = some owner)
    (apart : ∀ other, Relation.ReflTransGen model.Overrides name other →
      Relation.ReflTransGen model.Extends owner other → model.declaration? other = none) :
    model.ListsInherited name true fun other => Relation.ReflTransGen model.Overrides name other ∨
      Relation.ReflTransGen model.Extends owner other := by
  obtain ⟨overridden, alone, both⟩ :=
    declaredHierarchy_eq_append found notClass notField declared apart
  have typesFail := model.exists_explore_eq_error_iff supertypeLinks (unknownElement owner)
  have overriddenFail := model.exists_explore_eq_error_iff overrideLinks (unknownElement name)
  rw [linksTo_supertypeLinks] at typesFail
  rw [linksTo_overrideLinks] at overriddenFail
  refine .of_names found ?_ ?_
  · simp only [or_and_right, exists_or]
    refine Iff.trans ?_ (or_congr overriddenFail typesFail)
    rw [both, alone]
    cases model.explore supertypeLinks [unknownElement owner] [] with
    | error cause => exact iff_of_true ⟨cause, rfl⟩ (.inr ⟨cause, rfl⟩)
    | ok types =>
      cases overridden with
      | error cause => exact iff_of_true ⟨cause, rfl⟩ (.inl ⟨cause, rfl⟩)
      | ok listed =>
        refine iff_of_false ?_ ?_
        · rintro ⟨cause, failed⟩
          cases failed
        · rintro (⟨cause, failed⟩ | ⟨cause, failed⟩)
          · cases failed
          · cases failed
  · rw [both]
    intro names ended other
    obtain ⟨types, explored, ended⟩ := exists_of_bind_eq_ok ended
    cases overridden with
    | error cause => cases ended
    | ok listed =>
      cases ended
      have overridden := mem_explore_iff alone other
      have typed := mem_explore_iff explored other
      rw [linksTo_overrideLinks] at overridden
      rw [linksTo_supertypeLinks] at typed
      refine Iff.trans ?_ (or_congr overridden typed)
      simp only [List.mem_append, List.mem_cons]
      exact or_right_comm

/-- A hierarchy starts with the element and lists nothing twice. That of a class holds what can
be reached along supertypes. That of a method or constructor holds what can be reached along
overrides and, with type annotations, the hierarchy of the declaring type, unless it comes to
a class of that in another way. -/
theorem hierarchy_exact (found : model.declaration? name = some declaration) :
    (∀ elements, model.hierarchy (.declaration name) inheritTypes false = .ok elements →
      elements.head? = some (.declaration name) ∧ elements.Nodup) ∧
    (declaration.kind = .classType →
      model.ListsInherited name inheritTypes (Relation.ReflTransGen model.Extends name)) ∧
    (declaration.kind = .method ∨ declaration.kind = .constructor →
      (inheritTypes = false ∨ declaration.declaringType = none →
        model.ListsInherited name inheritTypes (Relation.ReflTransGen model.Overrides name)) ∧
      ∀ owner, inheritTypes = true → declaration.declaringType = some owner →
        (∀ other, Relation.ReflTransGen model.Overrides name other →
          Relation.ReflTransGen model.Extends owner other → model.declaration? other = none) →
        model.ListsInherited name inheritTypes fun other =>
          Relation.ReflTransGen model.Overrides name other ∨
            Relation.ReflTransGen model.Extends owner other) := by
  refine ⟨?_, ?_, ?_⟩
  · intro elements ended
    obtain ⟨above, rfl⟩ := hierarchy_eq_cons ended
    exact ⟨rfl, nodup_of_hierarchy ended⟩
  · intro isClass
    rw [← linksTo_supertypeLinks]
    refine .of_explore found ?_
    rw [declaredHierarchy, isClass]
    rfl
  · intro isMember
    have notClass : declaration.kind ≠ .classType := by
      rcases isMember with kind | kind <;> rw [kind] <;> decide
    have notField : declaration.kind ≠ .field := by
      rcases isMember with kind | kind <;> rw [kind] <;> decide
    refine ⟨fun untyped => ?_, fun owner asked declared apart => ?_⟩
    · rw [← linksTo_overrideLinks]
      exact .of_explore found (declaredHierarchy_of_untyped found notClass notField untyped)
    · subst asked
      exact listsInherited_of_typed found notClass notField declared apart

end Hierarchies

/-! ## Elements in a circle -/

/-- Two classes that extend each other, with methods that override each other. -/
def circularModel : Model where
  document := { elements := [
    ("shape.Square", { kind := .classType, supertypes := ["shape.Rhombus"] }),
    ("shape.Rhombus", { kind := .classType, supertypes := ["shape.Square"] }),
    ("shape.Square#area", { kind := .method, declaringType := some "shape.Square",
                            overrides := ["shape.Rhombus#area"] }),
    ("shape.Rhombus#area", { kind := .method, declaringType := some "shape.Rhombus",
                             overrides := ["shape.Square#area"] })] }

private theorem extends_circular {name other : String}
    (member : name ∈ ["shape.Square", "shape.Rhombus"])
    (extended : circularModel.Extends name other) : other ∈ ["shape.Square", "shape.Rhombus"] := by
  obtain ⟨declaration, found, written⟩ := extended
  rcases List.mem_pair.mp member with rfl | rfl
  · cases found
    simp_all
  · cases found
    simp_all

private theorem overrides_circular {name other : String}
    (member : name ∈ ["shape.Square#area", "shape.Rhombus#area"])
    (overridden : circularModel.Overrides name other) :
    other ∈ ["shape.Square#area", "shape.Rhombus#area"] := by
  obtain ⟨declaration, found, written⟩ := overridden
  rcases List.mem_pair.mp member with rfl | rfl
  · cases found
    simp_all
  · cases found
    simp_all

theorem mem_of_reachable {link : String → String → Prop} {names : List String}
    (closed : ∀ {name other}, name ∈ names → link name other → other ∈ names)
    {name other : String} (member : name ∈ names)
    (reached : Relation.ReflTransGen link name other) : other ∈ names := by
  induction reached with
  | refl => exact member
  | tail _ linked ih => exact closed ih linked

theorem hierarchy_exact_circular :
    ∃ elements, circularModel.hierarchy (.declaration "shape.Square#area") true false =
        .ok elements ∧
      elements.head? = some (.declaration "shape.Square#area") ∧ elements.Nodup ∧
      ∀ element, element ∈ elements ↔ ∃ other,
        (Relation.ReflTransGen circularModel.Overrides "shape.Square#area" other ∨
          Relation.ReflTransGen circularModel.Extends "shape.Square" other) ∧
        element = .declaration other := by
  have overridden := fun other (reached : Relation.ReflTransGen circularModel.Overrides _ other) =>
    mem_of_reachable overrides_circular (List.mem_cons_self : "shape.Square#area" ∈ _) reached
  have typed := fun other (reached : Relation.ReflTransGen circularModel.Extends _ other) =>
    mem_of_reachable extends_circular (List.mem_cons_self : "shape.Square" ∈ _) reached
  have found : circularModel.declaration? "shape.Square#area" = some _ := rfl
  obtain ⟨listed, -, member⟩ : (∀ elements, circularModel.hierarchy
      (.declaration "shape.Square#area") true false = .ok elements → _) ∧ _ := hierarchy_exact found
  obtain ⟨fails_iff, mem_iff⟩ := (member (.inl rfl)).2 "shape.Square" rfl rfl <| by
    intro other first second
    rcases List.mem_pair.mp (overridden other first) with rfl | rfl
    · exact absurd (typed _ second) (by decide)
    · exact absurd (typed _ second) (by decide)
  cases ended : circularModel.hierarchy (.declaration "shape.Square#area") true false with
  | error cause =>
    obtain ⟨other, inherited, undeclared⟩ := fails_iff.mp ⟨cause, ended⟩
    rcases inherited with first | second
    · rcases List.mem_pair.mp (overridden other first) with rfl | rfl
      · cases undeclared
      · cases undeclared
    · rcases List.mem_pair.mp (typed other second) with rfl | rfl
      · cases undeclared
      · cases undeclared
  | ok elements =>
    exact ⟨elements, rfl, (listed elements ended).1, (listed elements ended).2,
      mem_iff elements ended⟩

end AnnotationMetadata.Model
