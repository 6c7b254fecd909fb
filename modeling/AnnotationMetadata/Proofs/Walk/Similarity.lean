import AnnotationMetadata.Proofs.Walk.Steps

set_option autoImplicit false

/-!
# What a walk takes from its chain

A level asks only whether names are on the chain above it. Two walks of one type
under chains of the same names therefore go on alike, whatever extensions do.
-/

namespace AnnotationMetadata.Walk

/-- The walks differ at most in the order and the repetition of names above. -/
structure Descent.Similar (descent other : Descent) : Prop where
  owner : descent.owner = other.owner
  declared : descent.declared = other.declared
  excludes : descent.excludes = other.excludes
  chain : ∀ name, name ∈ descent.chain ↔ name ∈ other.chain

namespace Descent.Similar

theorem refl (descent : Descent) : descent.Similar descent :=
  ⟨rfl, rfl, rfl, fun _ => Iff.rfl⟩

theorem symm {descent other : Descent} (similar : descent.Similar other) :
    other.Similar descent :=
  ⟨similar.owner.symm, similar.declared.symm, similar.excludes.symm,
    fun name => (similar.chain name).symm⟩

/-- Walks of one type below chains of the same names. -/
theorem below {above other : List String} (same : ∀ name, name ∈ above ↔ name ∈ other)
    (owner : String) (declared : Bool) (excludes : List String) :
    Descent.Similar ⟨above, owner, declared, excludes⟩ ⟨other, owner, declared, excludes⟩ := by
  refine ⟨rfl, rfl, rfl, ?_⟩
  intro name
  simp only [Descent.chain, List.mem_append, same]

end Descent.Similar

/-- For each walk that the plan goes on with, the other goes on with a similar
one. -/
def Plan.Covers (plan other : Plan) : Prop :=
  ∀ descent, .descend descent ∈ other → ∃ found, .descend found ∈ plan ∧ descent.Similar found

namespace Plan.Covers

theorem refl (plan : Plan) : Covers plan plan :=
  fun descent planned => ⟨descent, planned, .refl descent⟩

theorem append {first second left right : Plan} (before : Covers first left)
    (after : Covers second right) : Covers (first ++ second) (left ++ right) := by
  intro descent planned
  rcases List.mem_append.mp planned with member | member
  · obtain ⟨found, planned, similar⟩ := before descent member
    exact ⟨found, List.mem_append_left _ planned, similar⟩
  · obtain ⟨found, planned, similar⟩ := after descent member
    exact ⟨found, List.mem_append_right _ planned, similar⟩

/-- What is recorded makes no difference. -/
theorem record {first second : Plan} (recording other : Recording)
    (after : Covers first second) :
    Covers (.record recording :: first) (.record other :: second) := by
  intro descent planned
  rcases List.mem_cons.mp planned with same | member
  · cases same
  · obtain ⟨found, planned, similar⟩ := after descent member
    exact ⟨found, List.mem_cons_of_mem _ planned, similar⟩

theorem ofTrace (trace other : Trace) : Covers (Plan.ofTrace trace) (Plan.ofTrace other) := by
  intro descent planned
  obtain ⟨_, _, same⟩ := List.mem_map.mp planned
  cases same

theorem flatMap {α : Type} {items : List α} {plan other : α → Plan}
    (each : ∀ item ∈ items, Covers (plan item) (other item)) :
    Covers (items.flatMap plan) (items.flatMap other) := by
  intro descent planned
  obtain ⟨item, member, planned⟩ := List.mem_flatMap.mp planned
  obtain ⟨found, planned, similar⟩ := each item member descent planned
  exact ⟨found, List.mem_flatMap.mpr ⟨item, member, planned⟩, similar⟩

theorem descend {descent other : Descent} (similar : other.Similar descent) :
    Covers [.descend descent] [.descend other] := by
  intro below planned
  cases List.mem_singleton.mp planned
  exact ⟨descent, List.mem_singleton_self _, similar⟩

end Plan.Covers

/-! ## Reading -/

/-- Occurrences of one annotation below chains of the same names. -/
structure Source.Similar (source other : Source) : Prop where
  originating : source.originating = other.originating
  declared : source.declared = other.declared
  annotation : source.annotation = other.annotation
  chain : ∀ name, name ∈ source.chain ↔ name ∈ other.chain

/-- The same members are read, and the first covers the walks of the second. -/
structure Progress.Covers (progress other : Progress) : Prop where
  members : progress.members = other.members
  plan : Plan.Covers progress.plan other.plan

section Reading

variable (context : Context) {source other : Source}

private theorem contains_eq_of_similar (similar : source.Similar other) (name : String) :
    source.chain.contains name = other.chain.contains name := by
  rw [List.contains_eq_mem, List.contains_eq_mem, decide_eq_decide]
  exact similar.chain name

private theorem writeAliased_covers (similar : source.Similar other) (member : String)
    (value : Value) (target : Annotation) :
    Plan.Covers (writeAliased context source member value target)
      (writeAliased context other member value target) := by
  simp only [writeAliased, contains_eq_of_similar similar, similar.declared]
  refine .append (.refl _) (.record _ _ ?_)
  split
  · exact .refl _
  · split
    · exact .descend (.below (fun name => (similar.chain name).symm) _ _ _)
    · intro descent planned
      cases List.mem_singleton.mp planned

theorem readOwn_covers (member : String) (written : Value) {progress before : Progress}
    (covers : progress.Covers before) :
    (readOwn context source member written progress).Covers
      (readOwn context other member written before) := by
  unfold readOwn
  rw [covers.members]
  split
  · exact covers
  · exact ⟨rfl, covers.plan.append (.record _ _ (.refl _))⟩

private theorem followAlias_covers (similar : source.Similar other) (written : Value)
    {progress before : Progress} (found : MemberAlias) (covers : progress.Covers before) :
    (followAlias context source written progress found).Covers
      (followAlias context other written before found) := by
  unfold followAlias
  cases found.target with
  | none => exact ⟨by rw [covers.members], covers.plan⟩
  | some target =>
    exact ⟨covers.members,
      covers.plan.append (.flatMap fun target _ => writeAliased_covers context similar _ _ target)⟩

theorem Progress.Covers.foldl {α : Type} {read follow : Progress → α → Progress}
    (step : ∀ {progress before : Progress} (entry : α), progress.Covers before →
      (read progress entry).Covers (follow before entry))
    (entries : List α) {progress before : Progress} (covers : progress.Covers before) :
    (entries.foldl read progress).Covers (entries.foldl follow before) := by
  induction entries generalizing progress before with
  | nil => exact covers
  | cons entry rest ih => exact ih (step entry covers)

private theorem readAliased_covers (similar : source.Similar other) (entry : String × Value)
    {progress before : Progress} (covers : progress.Covers before) :
    (readAliased context source progress entry).Covers
      (readAliased context other before entry) := by
  unfold readAliased
  rw [similar.annotation]
  exact readOwn_covers context _ _
    (.foldl (fun found before => followAlias_covers context similar _ found before) _ covers)

private theorem markInstantiated_covers (similar : source.Similar other) (entry : String × Value)
    {progress before : Progress} (covers : progress.Covers before) :
    (markInstantiated context source progress entry).Covers
      (markInstantiated context other before entry) := by
  unfold markInstantiated
  rw [similar.annotation, covers.members]
  split
  · split
    · exact ⟨rfl, covers.plan⟩
    · exact covers
  · exact covers

private theorem readEntry_covers (similar : source.Similar other) (aliases : Bool)
    (entry : String × Value) {progress before : Progress} (covers : progress.Covers before) :
    (readEntry context source aliases progress entry).Covers
      (readEntry context other aliases before entry) := by
  have marked := markInstantiated_covers context similar entry covers
  unfold readEntry
  cases aliases with
  | true => exact readAliased_covers context similar entry marked
  | false => exact readOwn_covers context _ _ marked

private theorem readMembers_covers (similar : source.Similar other) (aliases : Bool)
    (members : Members) :
    (readMembers context source aliases members).Covers
      (readMembers context other aliases members) := by
  unfold readMembers
  rw [similar.annotation]
  exact .foldl (fun entry before => readEntry_covers context similar aliases entry before) members
    ⟨rfl, .refl _⟩

end Reading

section Levels

variable (context : Context) {chain other : List String}

private theorem populate_covers (same : ∀ name, name ∈ chain ↔ name ∈ other) (originating : Element)
    (declared aliases : Bool) (occurrence : Annotation) :
    (populate context originating declared aliases chain occurrence).members =
        (populate context originating declared aliases other occurrence).members ∧
      (populate context originating declared aliases chain occurrence).mapped =
        (populate context originating declared aliases other occurrence).mapped ∧
      Plan.Covers (populate context originating declared aliases chain occurrence).plan
        (populate context originating declared aliases other occurrence).plan := by
  have similar : Source.Similar
      ⟨originating, declared, occurrence.name, [occurrence.name], chain ++ [occurrence.name]⟩
      ⟨originating, declared, occurrence.name, [occurrence.name], other ++ [occurrence.name]⟩ :=
    ⟨rfl, rfl, rfl, fun name => by simp only [List.mem_append, same]⟩
  have read := readMembers_covers context similar aliases occurrence.members
  simp only [populate]
  split
  · exact ⟨read.members, rfl, read.plan⟩
  · refine ⟨read.members, rfl, read.plan.append ?_⟩
    rw [read.members]
    exact .refl _

theorem ofReturned_covers (same : ∀ name, name ∈ chain ↔ name ∈ other) (declared : Bool)
    (returned : Annotation) :
    Plan.Covers (ofReturned context declared chain returned)
      (ofReturned context declared other returned) := by
  simp only [ofReturned]
  split
  · exact .refl _
  · split
    · intro descent planned
      cases List.mem_singleton.mp planned
    · split
      · exact .descend (.below (fun name => (same name).symm) _ _ _)
      · exact .refl _

private theorem remapped_covers (same : ∀ name, name ∈ chain ↔ name ∈ other) (declared : Bool)
    (occurrence : Annotation) (kept : Bool) (outcomes : List RemapOutcome) :
    Plan.Covers (remapped context declared (.stereotype chain) occurrence kept outcomes)
      (remapped context declared (.stereotype other) occurrence kept outcomes) := by
  induction outcomes generalizing kept with
  | nil => exact .refl _
  | cons outcome rest ih =>
    cases outcome with
    | unchanged =>
      refine .append ?_ (ih true)
      split
      · exact .refl _
      · exact .record _ _ (.refl _)
    | replaced annotations =>
      exact .append
        (.flatMap fun returned _ => .record _ _ (ofReturned_covers context same declared returned))
        (ih kept)

private theorem replace_covers (same : ∀ name, name ∈ chain ↔ name ∈ other) (declared : Bool)
    (name : String) (members : Members) :
    (replace context declared (.stereotype chain) name members).kept =
        (replace context declared (.stereotype other) name members).kept ∧
      Plan.Covers (replace context declared (.stereotype chain) name members).plan
        (replace context declared (.stereotype other) name members).plan := by
  simp only [replace]
  split
  · exact ⟨rfl, .record _ _ (.refl _)⟩
  · split
    · refine ⟨rfl, .flatMap fun container _ => .flatMap fun returned _ => .record _ _ ?_⟩
      exact ofReturned_covers context same declared returned
    · refine ⟨rfl, .flatMap fun returned _ => .record _ _ ?_⟩
      exact ofReturned_covers context same declared returned
  · split
    · exact ⟨rfl, .ofTrace _ _⟩
    · exact ⟨rfl, remapped_covers context same declared _ _ _⟩

theorem readMeta_covers (same : ∀ name, name ∈ chain ↔ name ∈ other) (declared : Bool)
    (owner : String) (occurrence : Annotation) :
    (readMeta context declared chain owner occurrence).kept =
        (readMeta context declared other owner occurrence).kept ∧
      Plan.Covers (readMeta context declared chain owner occurrence).plan
        (readMeta context declared other owner occurrence).plan := by
  obtain ⟨members, mapped, read⟩ :=
    populate_covers context same (.annotationType owner) declared true occurrence
  simp only [readMeta, members, mapped]
  split
  · exact ⟨rfl, read⟩
  · obtain ⟨kept, replaced⟩ := replace_covers context same declared occurrence.name
      (populate context (.annotationType owner) declared true other occurrence).members
    exact ⟨kept, read.append replaced⟩

end Levels

theorem isWalked_eq_of_similar {config : Config} {descent other : Descent}
    (similar : descent.Similar other) (name : String) :
    isWalked config descent.chain descent.owner descent.excludes name =
      isWalked config other.chain other.owner other.excludes name := by
  have listed : descent.chain.contains name = other.chain.contains name := by
    rw [List.contains_eq_mem, List.contains_eq_mem, decide_eq_decide]
    exact similar.chain name
  rw [isWalked, isWalked, listed, similar.owner, similar.excludes]

/-- Similar walks go on with similar walks. -/
theorem level_covers {context : Context} {descent other : Descent}
    (similar : descent.Similar other) :
    Plan.Covers (level context descent) (level context other) := by
  intro below planned
  simp only [level, List.mem_append, List.mem_flatMap, List.mem_map, List.mem_filter,
    Plan.ofTrace] at planned
  rcases planned with (⟨_, listed, planned⟩ | ⟨_, ⟨listed, kept⟩, same⟩) | ⟨_, _, same⟩
  · obtain ⟨occurrence, carried, walked, rfl⟩ := mem_readMetas_iff.mp listed
    have read := (readMeta_covers context similar.chain descent.declared
      descent.owner occurrence).2
    rw [← similar.declared, ← similar.owner] at planned
    obtain ⟨found, planned, alike⟩ := read below planned
    refine ⟨found, ?_, alike⟩
    rw [← similar.owner] at carried
    rw [← isWalked_eq_of_similar similar] at walked
    refine List.mem_append_left _ (List.mem_append_left _ (List.mem_flatMap.mpr ⟨_, ?_, planned⟩))
    exact mem_readMetas_iff.mpr ⟨occurrence, carried, walked, rfl⟩
  · obtain ⟨occurrence, carried, walked, rfl⟩ := mem_readMetas_iff.mp listed
    have read := (readMeta_covers context similar.chain descent.declared
      descent.owner occurrence).1
    rw [← similar.declared, ← similar.owner, ← read] at kept
    cases same
    rw [← similar.owner] at carried
    rw [← isWalked_eq_of_similar similar] at walked
    refine ⟨⟨descent.chain, occurrence.name, descent.declared, []⟩, ?_, ?_⟩
    · refine List.mem_append_left _ (List.mem_append_right _ (List.mem_map.mpr
        ⟨readMeta context descent.declared descent.chain descent.owner occurrence, ?_, ?_⟩))
      · exact List.mem_filter.mpr
          ⟨mem_readMetas_iff.mpr ⟨occurrence, carried, walked, rfl⟩, kept⟩
      · rw [readMeta_name]
    · rw [readMeta_name, similar.declared]
      exact .below (fun name => (similar.chain name).symm) _ _ _
  · cases same

end AnnotationMetadata.Walk
