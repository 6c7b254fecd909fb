import AnnotationMetadata.Proofs.Model.Exploration

set_option autoImplicit false

/-!
# The hierarchy of a class

A class is listed with all its supertypes, depth first. Every supertype comes after
one of the classes that extend it. It comes after all of them when classes share no
supertypes; a shared one may be listed between the classes that extend it.
-/

namespace AnnotationMetadata.Model

variable {model : Model}

def Extends (model : Model) (name supertype : String) : Prop :=
  ∃ declaration, model.declaration? name = some declaration ∧ supertype ∈ declaration.supertypes

theorem linksTo_supertypeLinks_iff {name supertype : String} :
    model.LinksTo supertypeLinks name supertype ↔ model.Extends name supertype := by
  constructor
  · rintro ⟨declaration, found, link, listed, rfl⟩
    obtain ⟨named, written, rfl⟩ := List.mem_map.mp listed
    exact ⟨declaration, found, written⟩
  · rintro ⟨declaration, found, written⟩
    exact ⟨declaration, found, _, List.mem_map.mpr ⟨supertype, written, rfl⟩, rfl⟩

theorem linksTo_supertypeLinks : model.LinksTo supertypeLinks = model.Extends :=
  funext fun _ => funext fun _ => propext linksTo_supertypeLinks_iff

/-! ## Lists of supertypes -/

/-- The names are those of a class and everything it extends, each once, and each
one after some class that extends it. -/
structure ListsSupertypes (model : Model) (name : String) (names : List String) : Prop where
  head : names.head? = some name
  nodup : names.Nodup
  mem_iff : ∀ other, other ∈ names ↔ Relation.ReflTransGen model.Extends name other
  led : ∀ other ∈ names, other = name ∨
    ∃ subtype, model.Extends subtype other ∧ names.idxOf subtype < names.idxOf other

/-- Every class comes before everything that it extends, directly or not. -/
def MostDerivedFirst (model : Model) (names : List String) : Prop :=
  ∀ subtype ∈ names, ∀ supertype, Relation.TransGen model.Extends subtype supertype →
    names.idxOf subtype < names.idxOf supertype

namespace ListsSupertypes

variable {name : String} {names : List String}

theorem subtype_mem (lists : model.ListsSupertypes name names) {subtype supertype : String}
    (member : subtype ∈ names) (linked : Relation.TransGen model.Extends subtype supertype) :
    supertype ∈ names :=
  (lists.mem_iff supertype).mpr (((lists.mem_iff subtype).mp member).trans linked.to_reflTransGen)

/-- Without cycles and shared supertypes, a hierarchy is listed most derived first. -/
theorem mostDerivedFirst (lists : model.ListsSupertypes name names)
    (acyclic : ∀ other ∈ names, ¬ Relation.TransGen model.Extends other other)
    (unshared : ∀ first ∈ names, ∀ second ∈ names, ∀ supertype,
      model.Extends first supertype → model.Extends second supertype → first = second) :
    model.MostDerivedFirst names := by
  have direct : ∀ subtype ∈ names, ∀ supertype, model.Extends subtype supertype →
      names.idxOf subtype < names.idxOf supertype := by
    intro subtype member supertype extended
    rcases lists.led supertype (lists.subtype_mem member (.single extended)) with
      rfl | ⟨leader, leads, earlier⟩
    · exact absurd (Relation.TransGen.tail' ((lists.mem_iff subtype).mp member) extended)
        (acyclic supertype ((lists.mem_iff supertype).mpr .refl))
    · have listed : leader ∈ names :=
        List.idxOf_lt_length_iff.mp (earlier.trans_le List.idxOf_le_length)
      -- The list has some class that extends the supertype before it; there is only one.
      exact unshared leader listed subtype member supertype leads extended ▸ earlier
  intro subtype member supertype linked
  induction linked with
  | single extended => exact direct subtype member _ extended
  | tail linked extended ih =>
    exact ih.trans (direct _ (lists.subtype_mem member linked) _ extended)

end ListsSupertypes

/-! ## Hierarchies -/

private theorem Explored.listsSupertypes {start : Link} {result : List String}
    (explored : Explored model supertypeLinks [start] [] result) :
    model.ListsSupertypes start.name result where
  head := by
    obtain ⟨rest, rfl⟩ := explored.concat_isPrefix (List.not_mem_nil)
    rfl
  nodup := explored.nodup List.nodup_nil
  mem_iff := fun _ => linksTo_supertypeLinks ▸ explored.mem_iff
  led := by
    have led : model.Led supertypeLinks [start.name] result :=
      explored.led (by simp [Led]) (by simp)
    intro other member
    rcases led other member with first | ⟨subtype, linked, earlier⟩
    · exact .inl (List.mem_singleton.mp first)
    · exact .inr ⟨subtype, linksTo_supertypeLinks_iff.mp linked, earlier⟩

theorem hierarchy_of_explored {name : String} {declaration : ElementDeclaration}
    {names : List String} (found : model.declaration? name = some declaration)
    (isClass : declaration.kind = .classType)
    (explored : Explored model supertypeLinks [unknownElement name] [] names)
    (inheritTypes : Bool) :
    model.hierarchy (.declaration name) inheritTypes false = .ok (names.map .declaration) := by
  simp only [hierarchy, found, declaredHierarchy, isClass, withTypes, explored.explore_eq]
  rfl

/-- The hierarchy of a class lists its supertypes. There is one when all of them are
declared. -/
theorem exists_listsSupertypes {name : String} {declaration : ElementDeclaration}
    (found : model.declaration? name = some declaration) (isClass : declaration.kind = .classType)
    (resolved : ∀ supertype, Relation.ReflTransGen model.Extends name supertype →
      (model.declaration? supertype).isSome) (inheritTypes : Bool) :
    ∃ names, model.hierarchy (.declaration name) inheritTypes false =
        .ok (names.map .declaration) ∧ model.ListsSupertypes name names := by
  have reachable : ∀ link ∈ [unknownElement name], ∀ other,
      Relation.ReflTransGen (model.LinksTo supertypeLinks) link.name other →
        (model.declaration? other).isSome := by
    intro link pending other linked
    cases List.mem_singleton.mp pending
    exact resolved other (linksTo_supertypeLinks ▸ linked)
  obtain ⟨names, ended⟩ := exists_explore_eq_ok [] reachable
  have explored := explored_of_explore ended
  exact ⟨names, hierarchy_of_explored found isClass explored inheritTypes,
    explored.listsSupertypes⟩

/-! ## Documents -/

/-- When every supertype in a document is declared, a declared class has no others. -/
theorem declared_of_reachable {name supertype : String}
    (closed : ∀ entry ∈ model.document.elements, ∀ supertype ∈ entry.2.supertypes,
      (model.declaration? supertype).isSome)
    (declared : (model.declaration? name).isSome)
    (reached : Relation.ReflTransGen model.Extends name supertype) :
    (model.declaration? supertype).isSome := by
  cases reached with
  | refl => exact declared
  | tail _ extended =>
    obtain ⟨declaration, found, written⟩ := extended
    exact closed _ (Dict.mem_of_get?_eq_some found) supertype written

/-- When every class ranks above its supertypes, none extends itself. -/
theorem not_extends_self (rank : String → Nat)
    (ranked : ∀ entry ∈ model.document.elements, ∀ supertype ∈ entry.2.supertypes,
      rank supertype < rank entry.1) (name : String) :
    ¬ Relation.TransGen model.Extends name name := by
  have lower : ∀ supertype, Relation.TransGen model.Extends name supertype →
      rank supertype < rank name := by
    intro supertype extended
    induction extended with
    | single extended =>
      obtain ⟨declaration, found, written⟩ := extended
      exact ranked _ (Dict.mem_of_get?_eq_some found) _ written
    | tail _ extended ih =>
      obtain ⟨declaration, found, written⟩ := extended
      exact (ranked _ (Dict.mem_of_get?_eq_some found) _ written).trans ih
  exact fun cycle => Nat.lt_irrefl _ (lower name cycle)

end AnnotationMetadata.Model
