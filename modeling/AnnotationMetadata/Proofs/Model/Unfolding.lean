import AnnotationMetadata.Dict.Lemmas
import AnnotationMetadata.Model.Query
import Mathlib.Logic.Relation
import Mathlib.Tactic.Choose

set_option autoImplicit false

/-!
# Unfolded annotations

An annotation can bring its meta-annotations along instead of leaving them to the declaration
of its type. One that brings along everything that is declared is unfolded. Where the
meta-annotations of a type do not go round in a circle, they go down a bounded number of
levels, and the type has an unfolding.
-/

namespace AnnotationMetadata

/-- The annotation without what it brings along. -/
def Annotation.alone (given : Annotation) : Annotation :=
  { given with stereotypes := [] }

namespace Model

variable {model : Model}

/-- The annotation type is written with a meta-annotation of the name. -/
def Bears (model : Model) (owner name : String) : Prop :=
  ∃ written ∈ model.writtenOn (.annotationType owner), written.name = name

/-- The meta-annotations of a type as they are written, with their declared retentions. -/
def metasOf (model : Model) (owner : String) : List Annotation :=
  (model.writtenOn (.annotationType owner)).map fun written =>
    { name := written.name, members := written.members
      retention := model.retentionOf written.name }

/-- The annotation brings along all meta-annotations of its type in order, and each of them
those of its own. -/
inductive Unfolds (model : Model) : Annotation → Prop where
  | intro {given : Annotation}
      (along : given.stereotypes.map Annotation.alone = model.metasOf given.name)
      (below : ∀ stereotype ∈ given.stereotypes, Unfolds model stereotype) : Unfolds model given

theorem Unfolds.of_bare {given : Annotation} (bare : given.stereotypes = [])
    (none : model.metasOf given.name = []) : model.Unfolds given := by
  constructor
  · rw [bare, none]
    rfl
  · rw [bare]
    exact fun _ listed => absurd listed List.not_mem_nil

/-- The meta-annotations of the type go down less than the given number of levels. -/
inductive Shallow (model : Model) : Nat → String → Prop where
  | intro {levels : Nat} {name : String}
      (below : ∀ other, model.Bears name other → Shallow model levels other) :
      Shallow model (levels + 1) name

/-- By induction on the levels: what the meta-annotations of a type unfold to is put together. -/
theorem Shallow.exists_unfolding {levels : Nat} {name : String}
    (shallow : model.Shallow levels name) (members : Members) (retention : Retention) :
    ∃ stereotypes, model.Unfolds ⟨name, members, retention, stereotypes⟩ := by
  induction shallow generalizing members retention with
  | @intro levels name _ ih =>
    have each : ∀ found ∈ model.metasOf name,
        ∃ stereotypes, model.Unfolds { found with stereotypes } := by
      intro found listed
      obtain ⟨written, carried, rfl⟩ := List.mem_map.mp listed
      exact ih written.name ⟨written, carried, rfl⟩ _ _
    choose! along unfolds using each
    refine ⟨(model.metasOf name).map fun found => { found with stereotypes := along found },
      .intro ?_ ?_⟩
    · rw [List.map_map, metasOf, List.map_map]
      rfl
    · intro stereotype listed
      obtain ⟨found, present, rfl⟩ := List.mem_map.mp listed
      exact unfolds found present

theorem exists_declaration_of_written {owner : String} {written : Annotation}
    (carried : written ∈ model.writtenOn (.annotationType owner)) :
    ∃ declaration, model.annotationType? owner = some declaration ∧
      written ∈ declaration.annotations := by
  cases known : model.annotationType? owner with
  | none => simp [writtenOn, known] at carried
  | some declaration => exact ⟨declaration, rfl, by simpa [writtenOn, known] using carried⟩

theorem declared_of_bears {owner name : String} (bears : model.Bears owner name) :
    (model.annotationType? owner).isSome = true := by
  obtain ⟨written, carried, -⟩ := bears
  obtain ⟨declaration, known, -⟩ := exists_declaration_of_written carried
  exact Option.isSome_of_eq_some known

/-- No type that can be reached from the given one leads back to itself. -/
def AcyclicFrom (model : Model) (root : String) : Prop :=
  ∀ name, Relation.ReflTransGen model.Bears root name →
    ¬ Relation.TransGen model.Bears name name

/-- By induction on the names that declared types below can have. The type itself is none of
those below it. -/
private theorem shallow_of_acyclic {levels : Nat} {names : List String} {root : String}
    (short : names.length ≤ levels) (listed : ∀ name, Relation.ReflTransGen model.Bears root name →
      (model.annotationType? name).isSome = true → name ∈ names)
    (acyclic : model.AcyclicFrom root) : model.Shallow (levels + 1) root := by
  induction levels generalizing names root with
  | zero =>
    constructor
    intro other bears
    have present := listed root .refl (declared_of_bears bears)
    rw [List.length_eq_zero_iff.mp (Nat.le_zero.mp short)] at present
    cases present
  | succ levels ih =>
    constructor
    intro other bears
    have present := listed root .refl (declared_of_bears bears)
    have fewer : (names.filter (· != root)).length < names.length :=
      List.length_filter_lt_length_iff_exists.mpr ⟨root, present, by simp⟩
    have below : ∀ name, Relation.ReflTransGen model.Bears other name →
        (model.annotationType? name).isSome = true → name ∈ names.filter (· != root) := by
      intro name reached declared
      refine List.mem_filter.mpr ⟨listed name (.head bears reached) declared, ?_⟩
      rw [bne_iff_ne]
      rintro rfl
      exact acyclic name .refl (.head' bears reached)
    exact ih (by omega) below fun name reached => acyclic name (.head bears reached)

theorem AcyclicFrom.shallow {root : String} (acyclic : model.AcyclicFrom root) :
    model.Shallow (model.document.annotations.length + 1) root := by
  have short : (Dict.keys model.document.annotations).length ≤
      model.document.annotations.length := Nat.le_of_eq (List.length_map _)
  refine shallow_of_acyclic short (fun name _ declared => ?_) acyclic
  exact Dict.mem_keys_iff.mpr (Option.isSome_iff_exists.mp declared)

/-- Meta-annotations that lead to smaller and smaller ranks do not lead back. -/
theorem acyclicFrom_of_rank (rank : String → Nat)
    (falls : ∀ entry ∈ model.document.annotations, ∀ written ∈ entry.2.annotations,
      rank written.name < rank entry.1) (root : String) : model.AcyclicFrom root := by
  have down : ∀ owner name, model.Bears owner name → rank owner > rank name := by
    rintro owner _ ⟨written, carried, rfl⟩
    obtain ⟨declaration, known, listed⟩ := exists_declaration_of_written carried
    exact falls _ (Dict.mem_of_get?_eq_some known) written listed
  intro name _ circle
  have falling : Relation.TransGen (· > ·) (rank name) (rank name) := circle.lift rank down
  rw [Relation.transGen_eq_self] at falling
  exact Nat.lt_irrefl _ falling

end Model

end AnnotationMetadata
