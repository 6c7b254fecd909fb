import AnnotationMetadata.Proofs.Walk.Recordings
import Mathlib.Data.List.Chain

set_option autoImplicit false

/-!
# The graph of stereotypes

Without extensions, member aliases and repeatable annotations, a walk follows the
graph of meta-annotations. It has no list of what it has visited, only the chain
above, so it follows every path that repeats no annotation, and no other one.
-/

namespace AnnotationMetadata

/-- No extensions, no member aliases and no repeatable annotations. -/
structure Context.Plain (context : Context) : Prop where
  registry : context.registry = .empty
  unaliased : ∀ owner member, ∀ written ∈ context.model.writtenOn (.member owner member),
    written.name ≠ Name.aliasFor ∧ written.name ≠ Name.aliases
  ungrouped : ∀ entry ∈ context.model.document.annotations, entry.2.container = none

/-- The first annotation type carries the second one, in a way that counts for a
walk. -/
structure Carries (context : Context) (owner name : String) : Prop where
  written : ∃ occurrence ∈ context.model.writtenOn (.annotationType owner), occurrence.name = name
  other : name ≠ owner
  recorded : context.config.isInternal name = false
  allowed : ¬ (Name.isInterceptionKind owner ∧ name = Name.interceptorBinding)

/-- Annotations that each carry the next one, without repetition. -/
structure SimplePath (context : Context) (names : List String) : Prop where
  chain : names.IsChain (Carries context)
  nodup : names.Nodup

variable {context : Context}

/-! ## Paths -/

theorem SimplePath.single (context : Context) (name : String) : SimplePath context [name] :=
  ⟨.singleton name, List.nodup_singleton name⟩

/-- A path is extended by what its last annotation carries, if it is new. -/
theorem SimplePath.concat {above : List String} {owner name : String}
    (path : SimplePath context (above ++ [owner])) (carries : Carries context owner name)
    (fresh : name ∉ above ++ [owner]) : SimplePath context (above ++ [owner] ++ [name]) := by
  refine ⟨?_, ?_⟩
  · rw [List.append_assoc, List.singleton_append, List.isChain_append_cons_cons]
    exact ⟨path.chain, carries, .singleton name⟩
  · refine List.nodup_append.mpr ⟨path.nodup, List.nodup_singleton name, ?_⟩
    intro upper member last same
    exact fun equal => fresh (List.mem_singleton.mp same ▸ equal ▸ member)

/-- A path goes on from each of its annotations with one that this carries. -/
theorem SimplePath.carries {above below : List String} {owner name : String}
    (path : SimplePath context (above ++ [owner] ++ name :: below)) :
    Carries context owner name ∧ name ∉ above ++ [owner] := by
  refine ⟨?_, ?_⟩
  · have chain := path.chain
    rw [List.append_assoc, List.singleton_append, List.isChain_append_cons_cons] at chain
    exact chain.2.1
  · intro member
    exact (List.nodup_append.mp path.nodup).2.2 name member name List.mem_cons_self rfl

/-- All annotations on a path but the last one are declared. -/
theorem SimplePath.proper {names : List String} (path : SimplePath context names) :
    Walk.ProperChain context.model names := by
  refine ⟨path.nodup, ?_⟩
  have chain := path.chain
  clear path
  induction names with
  | nil => intro name none; cases none
  | cons owner rest ih =>
    cases rest with
    | nil => intro name none; cases none
    | cons next below =>
      obtain ⟨carries, further⟩ := List.isChain_cons_cons.mp chain
      intro name member
      rcases List.mem_cons.mp member with same | later
      · obtain ⟨occurrence, written, _⟩ := carries.written
        rw [same]
        cases known : context.model.annotationType? owner with
        | none => simp [Model.writtenOn, known] at written
        | some declaration => rfl
      · exact ih further name later

/-- What can be reached can be reached without repetition. -/
theorem exists_simplePath_of_reachable {root name : String}
    (reachable : Relation.ReflTransGen (Carries context) root name) :
    ∃ path : List String, SimplePath context path ∧
      path.head? = some root ∧ path.getLast? = some name := by
  induction reachable using Relation.ReflTransGen.head_induction_on with
  | refl => exact ⟨[name], .single context name, rfl, rfl⟩
  | @head first second carries _ ih =>
    obtain ⟨path, simple, starts, ends⟩ := ih
    by_cases visited : first ∈ path
    · -- the path comes back to where it started, so its end is already a path
      obtain ⟨before, after, rfl⟩ := List.append_of_mem visited
      refine ⟨first :: after, ⟨?_, ?_⟩, rfl, ?_⟩
      · exact (List.isChain_split.mp simple.chain).2
      · exact (List.nodup_append.mp simple.nodup).2.1
      · rw [List.getLast?_append_of_ne_nil _ (List.cons_ne_nil _ _)] at ends
        exact ends
    · obtain ⟨rest, rfl⟩ : ∃ rest, path = second :: rest := by
        cases path with
        | nil => cases starts
        | cons next rest => exact ⟨rest, by rw [Option.some.inj starts]⟩
      refine ⟨first :: second :: rest, ⟨?_, ?_⟩, rfl, ?_⟩
      · exact List.isChain_cons_cons.mpr ⟨carries, simple.chain⟩
      · exact List.nodup_cons.mpr ⟨visited, simple.nodup⟩
      · rw [List.getLast?_cons_cons]
        exact ends

/-! ## Plain contexts -/

namespace Context.Plain

theorem containerOf?_eq_none (plain : context.Plain) (name : String) :
    context.model.containerOf? name = none := by
  unfold Model.containerOf?
  cases found : context.model.annotationType? name with
  | none => rfl
  | some declaration => exact plain.ungrouped (name, declaration) (Dict.mem_of_get?_eq_some found)

theorem occurrencesOn_eq (plain : context.Plain) (element : Element) :
    context.model.occurrencesOn element = context.model.writtenOn element := by
  have uncontained : ∀ name, context.model.isContainer name = false := by
    intro name
    refine List.any_eq_false.mpr fun entry declared => ?_
    rw [plain.ungrouped entry declared]
    simp
  have itself : context.model.unwrap = fun occurrence => [occurrence] := by
    funext occurrence
    simp [Model.unwrap, uncontained]
  rw [Model.occurrencesOn, itself, List.flatMap_singleton']

theorem aliasesOf_eq_nil (plain : context.Plain) (owner member : String) :
    context.model.aliasesOf (.member owner member) = [] :=
  Model.Unaliased.aliasesOf_eq_nil plain.unaliased owner member

end Context.Plain

namespace Walk

/-- Reading an occurrence writes nothing but defaults and walks nothing. -/
theorem ReadStep.of_plain (plain : context.Plain) {source : Source} {step : Step}
    (taken : ReadStep context source step) :
    ∃ recording, step = .record recording ∧
      ∀ write, recording = .write write → ∃ name members, write = .defaults name members := by
  cases taken with
  | defaults => exact ⟨_, rfl, fun write same => by cases same; exact ⟨_, _, rfl⟩⟩
  | read => exact ⟨_, rfl, fun write same => by cases same⟩
  | aliased listed =>
    rw [plain.aliasesOf_eq_nil] at listed
    cases listed

/-- An occurrence is written as itself. -/
theorem ReplacementStep.of_plain (plain : context.Plain) {declared : Bool}
    {placement : Placement} {name : String} {step : Step}
    (taken : ReplacementStep context declared placement name step) :
    ∃ members retention, step = .record (placement.write declared name members retention) := by
  obtain ⟨members, rfl⟩ := taken.eq_itself plain.registry
  rw [plain.containerOf?_eq_none]
  exact ⟨_, _, rfl⟩

theorem replace_of_plain (plain : context.Plain) (declared : Bool) (placement : Placement)
    (name : String) (members : Members) :
    replace context declared placement name members =
      ⟨[.record (placement.write declared name members (context.model.retentionOf name))],
        true⟩ := by
  rw [replace_of_empty plain.registry, plain.containerOf?_eq_none]
  rfl

/-! ## Walks of annotation types -/

theorem isWalked_iff_carries {descent : Descent} (excludes : descent.excludes = [])
    {occurrence : Annotation}
    (written : occurrence ∈ context.model.writtenOn (.annotationType descent.owner)) :
    isWalked context.config descent.chain descent.owner descent.excludes occurrence.name ↔
      Carries context descent.owner occurrence.name ∧ occurrence.name ∉ descent.chain := by
  have spelled :
      isWalked context.config descent.chain descent.owner descent.excludes occurrence.name ↔
        (occurrence.name ∉ descent.chain ∧ context.config.isInternal occurrence.name = false) ∧
          ¬ (Name.isInterceptionKind descent.owner ∧
            occurrence.name = Name.interceptorBinding) := by
    cases kind : Name.isInterceptionKind descent.owner <;> simp [isWalked, excludes, kind]
  rw [spelled]
  constructor
  · rintro ⟨⟨fresh, recorded⟩, allowed⟩
    refine ⟨⟨⟨occurrence, written, rfl⟩, ?_, recorded, allowed⟩, fresh⟩
    intro same
    exact fresh (same ▸ List.mem_append_right _ (List.mem_singleton_self _))
  · rintro ⟨carries, fresh⟩
    exact ⟨⟨fresh, carries.recorded⟩, carries.allowed⟩

/-- What a walk below a chain writes. -/
inductive BelowWrite (context : Context) (chain : List String) : Store.Write → Prop where
  | defaults {name : String} {members : Members} : BelowWrite context chain (.defaults name members)
  | stereotype {more : List String} {declared : Bool} {name : String} {members : Members}
      {retention : Retention} (path : SimplePath context (chain ++ more ++ [name])) :
      BelowWrite context chain (.stereotype declared (chain ++ more) name members retention)
  | binding {declared : Bool} {binding : Annotation} :
      BelowWrite context chain (.occurrence declared Name.interceptorBindings binding)

private theorem BelowWrite.of_concat {chain : List String} {name : String} {write : Store.Write}
    (below : BelowWrite context (chain ++ [name]) write) : BelowWrite context chain write := by
  cases below with
  | defaults => exact .defaults
  | stereotype path =>
    rw [List.append_assoc chain] at path ⊢
    exact .stereotype path
  | binding => exact .binding

/-- A walk writes stereotypes along paths only. -/
private theorem belowWrite_of_mem_stereotypes (plain : context.Plain) {levels : Nat}
    {descent : Descent} (excludes : descent.excludes = []) (path : SimplePath context descent.chain)
    {write : Store.Write} (recorded : .write write ∈ stereotypes context levels descent) :
    BelowWrite context descent.chain write := by
  induction levels generalizing descent with
  | zero => cases List.mem_singleton.mp recorded
  | succ levels ih =>
    obtain ⟨step, planned, recorded⟩ := List.mem_flatMap.mp recorded
    cases levelStep_of_mem_level planned with
    | read _ _ read =>
      obtain ⟨recording, rfl, defaults⟩ := read.of_plain plain
      obtain ⟨name, members, rfl⟩ := defaults write (List.mem_singleton.mp recorded).symm
      exact .defaults
    | mapped _ registered => exact absurd (mappers_of_empty plain.registry _) registered
    | @replaced occurrence _ carried walked replaced =>
      rw [plain.occurrencesOn_eq] at carried
      obtain ⟨carries, fresh⟩ := (isWalked_iff_carries excludes carried).mp walked
      obtain ⟨members, retention, rfl⟩ := replaced.of_plain plain
      cases List.mem_singleton.mp recorded
      have longer := path.concat carries fresh
      rw [← List.append_nil (descent.ancestors ++ [descent.owner])] at longer
      have written : BelowWrite context descent.chain
          (.stereotype descent.declared (descent.chain ++ []) occurrence.name members
            retention) := .stereotype longer
      rwa [List.append_nil] at written
    | @descend occurrence carried walked =>
      rw [plain.occurrencesOn_eq] at carried
      obtain ⟨carries, fresh⟩ := (isWalked_iff_carries excludes carried).mp walked
      have longer : SimplePath context
          (Descent.chain ⟨descent.chain, occurrence.name, descent.declared, []⟩) :=
        path.concat carries fresh
      exact (ih rfl longer recorded).of_concat
    | binding =>
      cases List.mem_singleton.mp recorded
      exact .binding

private theorem readMeta_of_plain (plain : context.Plain) (declared : Bool) (chain : List String)
    (owner : String) (occurrence : Annotation) :
    (readMeta context declared chain owner occurrence).kept = true ∧
      (occurrence.name ≠ Name.interceptorBinding → ∃ members retention,
        Step.record (.write (.stereotype declared chain occurrence.name members retention)) ∈
          (readMeta context declared chain owner occurrence).plan) := by
  simp only [readMeta, populate_mapped_of_empty plain.registry, replace_of_plain plain,
    Bool.or_false, decide_eq_true_eq]
  split
  · next binding => exact ⟨rfl, fun other => absurd binding other⟩
  · exact ⟨rfl, fun _ =>
      ⟨_, _, List.mem_append_right _ (List.mem_singleton_self _)⟩⟩

/-- What an annotation type carries is written, unless it is a binding, and walked. -/
theorem mem_level_of_carries (plain : context.Plain) {descent : Descent}
    (excludes : descent.excludes = []) {name : String}
    (carries : Carries context descent.owner name) (fresh : name ∉ descent.chain) :
    Step.descend ⟨descent.chain, name, descent.declared, []⟩ ∈ level context descent ∧
      (name ≠ Name.interceptorBinding → ∃ members retention,
        Step.record (.write (.stereotype descent.declared descent.chain name members retention)) ∈
          level context descent) := by
  obtain ⟨occurrence, written, rfl⟩ := carries.written
  have walked := (isWalked_iff_carries excludes written).mpr ⟨carries, fresh⟩
  rw [← plain.occurrencesOn_eq] at written
  have listed : readMeta context descent.declared descent.chain descent.owner occurrence ∈
      readMetas context descent := mem_readMetas_iff.mpr ⟨occurrence, written, walked, rfl⟩
  obtain ⟨kept, recorded⟩ :=
    readMeta_of_plain plain descent.declared descent.chain descent.owner occurrence
  refine ⟨?_, fun other => ?_⟩
  · refine List.mem_append_left _ (List.mem_append_right _ (List.mem_map.mpr
      ⟨readMeta context descent.declared descent.chain descent.owner occurrence,
        List.mem_filter.mpr ⟨listed, kept⟩, ?_⟩))
    rw [readMeta_name]
  · obtain ⟨members, retention, planned⟩ := recorded other
    exact ⟨members, retention, List.mem_append_left _
      (List.mem_append_left _ (List.mem_flatMap.mpr ⟨_, listed, planned⟩))⟩

/-- A walk with enough levels follows every path. -/
private theorem mem_stereotypes_of_path (plain : context.Plain) {descent : Descent}
    (excludes : descent.excludes = []) {more : List String} {name : String}
    (path : SimplePath context (descent.chain ++ more ++ [name]))
    (other : name ≠ Name.interceptorBinding) {levels : Nat} (enough : more.length < levels) :
    ∃ members retention,
      Recording.write
          (.stereotype descent.declared (descent.chain ++ more) name members retention) ∈
        stereotypes context levels descent := by
  induction more generalizing descent levels with
  | nil =>
    obtain ⟨fewer, rfl⟩ := Nat.exists_eq_succ_of_ne_zero (Nat.ne_of_gt enough)
    rw [List.append_nil] at path
    obtain ⟨carries, fresh⟩ := path.carries
    obtain ⟨members, retention, planned⟩ := (mem_level_of_carries plain excludes carries fresh).2 other
    refine ⟨members, retention, List.mem_flatMap.mpr ⟨_, planned, ?_⟩⟩
    rw [List.append_nil]
    exact List.mem_singleton_self _
  | cons next rest ih =>
    obtain ⟨fewer, rfl⟩ := Nat.exists_eq_succ_of_ne_zero (Nat.ne_of_gt (Nat.zero_lt_of_lt enough))
    rw [List.length_cons, Nat.succ_lt_succ_iff] at enough
    have first : SimplePath context
        (descent.ancestors ++ [descent.owner] ++ next :: (rest ++ [name])) := by
      simpa [Descent.chain] using path
    obtain ⟨carries, fresh⟩ := first.carries
    have below : SimplePath context
        (Descent.chain ⟨descent.chain, next, descent.declared, []⟩ ++ rest ++ [name]) := by
      simpa [Descent.chain] using path
    obtain ⟨members, retention, recorded⟩ := ih rfl below enough
    refine ⟨members, retention, List.mem_flatMap.mpr
      ⟨_, (mem_level_of_carries plain excludes carries fresh).1, ?_⟩⟩
    simpa [Descent.chain, Step.carryOut] using recorded

end Walk

/-! ## Walks of elements -/

/-- The element carries an annotation of the name that is recorded. -/
structure Annotates (context : Context) (element : Element) (name : String) : Prop where
  written : ∃ occurrence ∈ context.model.writtenOn element, occurrence.name = name
  recorded : context.config.isInternal name = false

/-- An annotation on the element whose meta-annotations are walked. -/
structure Roots (context : Context) (element : Element) (name : String) : Prop
    extends Annotates context element name where
  included : context.config.isStereotypeExcluded (Name.packageOf name) = false
  nullability : Name.isNullability name = false

namespace Walk

/-- What the walk of an element writes. -/
inductive ElementWrite (context : Context) (element : Element) : Store.Write → Prop where
  | defaults {name : String} {members : Members} :
      ElementWrite context element (.defaults name members)
  | direct {declared : Bool} {name : String} {members : Members} {retention : Retention}
      (annotates : Annotates context element name) :
      ElementWrite context element (.direct declared name members retention)
  | below {root : String} {write : Store.Write} (roots : Roots context element root)
      (written : BelowWrite context [root] write) : ElementWrite context element write

theorem elementWrite_of_mem_elementTrace (plain : context.Plain) {target current : Element}
    {aliases : Bool} {write : Store.Write}
    (recorded : .write write ∈ elementTrace context target aliases current) :
    ElementWrite context current write := by
  obtain ⟨step, planned, recorded⟩ := List.mem_flatMap.mp recorded
  cases elementStep_of_mem_occurrences planned with
  | warning => cases List.mem_singleton.mp recorded
  | read _ _ read =>
    obtain ⟨recording, rfl, defaults⟩ := read.of_plain plain
    obtain ⟨name, members, rfl⟩ := defaults write (List.mem_singleton.mp recorded).symm
    exact .defaults
  | mapped _ registered => exact absurd (mappers_of_empty plain.registry _) registered
  | @replaced occurrence _ given internal replaced =>
    rw [plain.occurrencesOn_eq] at given
    obtain ⟨members, retention, rfl⟩ := replaced.of_plain plain
    cases List.mem_singleton.mp recorded
    exact .direct ⟨⟨occurrence, given, rfl⟩, internal⟩
  | @descend occurrence given internal root =>
    rw [plain.occurrencesOn_eq] at given
    rw [isRoot, Bool.and_eq_true, Bool.not_eq_true', Bool.not_eq_true'] at root
    have path : SimplePath context (Descent.chain ⟨[], occurrence.name, current == target, []⟩) :=
      .single context occurrence.name
    exact .below ⟨⟨⟨occurrence, given, rfl⟩, internal⟩, root.1, root.2⟩
      (belowWrite_of_mem_stereotypes plain rfl path recorded)

theorem includeOne_of_plain (plain : context.Plain) (element : Element)
    (declared aliases : Bool) (occurrence : Annotation) :
    (includeOne context element declared aliases occurrence).kept = true ∧
      ∃ members retention,
        Step.record (.write (.direct declared occurrence.name members retention)) ∈
          (includeOne context element declared aliases occurrence).plan := by
  simp only [includeOne, populate_mapped_of_empty plain.registry, replace_of_plain plain,
    Bool.false_eq_true, if_false]
  exact ⟨trivial, _, _, List.mem_append_right _ (List.mem_singleton_self _)⟩

/-- Every recorded annotation of an element is written. -/
theorem mem_elementTrace_of_annotates (plain : context.Plain) (target : Element) (aliases : Bool)
    {current : Element} {name : String} (annotates : Annotates context current name) :
    ∃ declared members retention,
      Recording.write (.direct declared name members retention) ∈
        elementTrace context target aliases current := by
  obtain ⟨⟨occurrence, written, rfl⟩, recorded⟩ := annotates
  rw [← plain.occurrencesOn_eq] at written
  obtain ⟨_, members, retention, planned⟩ :=
    includeOne_of_plain plain current (current == target) aliases occurrence
  refine ⟨current == target, members, retention,
    List.mem_flatMap.mpr ⟨_, List.mem_append_left _ (List.mem_flatMap.mpr
      ⟨_, List.mem_map.mpr ⟨occurrence, List.mem_filter.mpr ⟨written, ?_⟩, rfl⟩, planned⟩),
      List.mem_singleton_self _⟩⟩
  rw [recorded]
  rfl

/-- Every path from an annotation whose meta-annotations are walked is followed. -/
theorem mem_elementTrace_of_path (plain : context.Plain) (target : Element) (aliases : Bool)
    {current : Element} {root : String} (roots : Roots context current root) {more : List String}
    {name : String} (path : SimplePath context ([root] ++ more ++ [name]))
    (other : name ≠ Name.interceptorBinding) :
    ∃ declared members retention,
      Recording.write (.stereotype declared ([root] ++ more) name members retention) ∈
        elementTrace context target aliases current := by
  obtain ⟨⟨⟨occurrence, written, rfl⟩, recorded⟩, included, nullability⟩ := roots
  rw [← plain.occurrencesOn_eq] at written
  have planned : Step.descend ⟨[], occurrence.name, current == target, []⟩ ∈
      occurrences context current (current == target) aliases
        (context.model.occurrencesOn current) := by
    refine List.mem_append_right _ (List.mem_map.mpr
      ⟨includeOne context current (current == target) aliases occurrence, ?_, ?_⟩)
    · refine List.mem_filter.mpr ⟨List.mem_map.mpr
        ⟨occurrence, List.mem_filter.mpr ⟨written, by rw [recorded]; rfl⟩, rfl⟩, ?_⟩
      rw [(includeOne_of_plain plain current _ aliases occurrence).1, includeOne_name, isRoot,
        included, nullability]
      rfl
    · rw [includeOne_name]
  have enough : more.length < budget context := by
    have keys := path.proper.length_le fun _ => Model.mem_keys_of_annotationType?
    have large : context.model.document.annotations.length + 2 ≤ budget context :=
      Nat.le_self_pow (by decide) _
    rw [Dict.keys, List.length_map] at keys
    simp only [List.length_append, List.length_singleton] at keys
    omega
  have below : SimplePath context
      (Descent.chain ⟨[], occurrence.name, current == target, []⟩ ++ more ++ [name]) := path
  obtain ⟨members, retention, recorded⟩ := mem_stereotypes_of_path plain rfl below other enough
  exact ⟨_, members, retention, List.mem_flatMap.mpr ⟨_, planned, recorded⟩⟩

end Walk

end AnnotationMetadata
