import AnnotationMetadata.Proofs.Walk.Reading

set_option autoImplicit false

/-!
# Aliases within an annotation

Reading goes through the written members in order. An alias within the annotation
replaces the value of its target, a member under its own name keeps what is there. So
the last written alias for a member decides its value, and the member itself counts
only where no alias is written.
-/

namespace AnnotationMetadata

/-! ## Closed form -/

namespace Model

/-- One of the aliases of a member is for a member of the same annotation. -/
def isOwnAlias (model : Model) (owner member target : String) : Bool :=
  (model.aliasesOf (.member owner member)).any fun found =>
    found.target.isNone && found.member == target

/-- The value of the last written member that is an alias for another member of the
same annotation. -/
def lastAliased? (model : Model) (owner target : String) (written : Members) : Option Value :=
  (written.reverse.find? fun entry => model.isOwnAlias owner entry.1 target).map Prod.snd

private theorem lastAliased?_cons (model : Model) (owner target : String) (entry : String × Value)
    (rest : Members) :
    model.lastAliased? owner target (entry :: rest) =
      (model.lastAliased? owner target rest).or
        (if model.isOwnAlias owner entry.1 target then some entry.2 else none) := by
  rw [lastAliased?, List.reverse_cons, List.find?_append, Option.map_or, lastAliased?]
  congr 1
  by_cases aliased : model.isOwnAlias owner entry.1 target = true
  · simp [aliased]
  · simp [aliased]

end Model

namespace Walk

variable {context : Context} {source : Source}

/-! ## One member -/

private theorem get?_followAliases (written : Value) (aliases : List MemberAlias)
    (progress : Progress) (member : String) :
    Dict.get? (aliases.foldl (followAlias context source written) progress).members member =
      if aliases.any fun found => found.target.isNone && found.member == member then
        some (context.model.resolve written)
      else Dict.get? progress.members member := by
  induction aliases generalizing progress with
  | nil => rfl
  | cons found rest ih =>
    rw [List.foldl_cons, ih, List.any_cons]
    cases target : found.target with
    | some other => simp [followAlias, target]
    | none =>
      by_cases named : found.member = member
      · simp [followAlias, target, named, Dict.get?_insert]
      · simp [followAlias, target, named, Dict.get?_insert]

private theorem get?_readOwn (member : String) (written : Value) (progress : Progress)
    (wanted : String) :
    Dict.get? (readOwn context source member written progress).members wanted =
      (Dict.get? progress.members wanted).or
        (if member = wanted then some (context.model.resolve written) else none) := by
  have added := Dict.get?_insertNew progress.members member (context.model.resolve written) wanted
  rw [← added, Dict.insertNew]
  unfold readOwn
  split <;> rfl

theorem markInstantiated_eq_self {progress : Progress} {entry : String × Value}
    (plain : context.model.hasAnnotation (.member source.annotation entry.1)
      Name.instantiatedMember = false) :
    markInstantiated context source progress entry = progress := by
  simp [markInstantiated, plain]

/-- A member is set by an alias for it, and otherwise keeps what it has. -/
private theorem get?_readEntry {progress : Progress} {entry : String × Value}
    (plain : context.model.hasAnnotation (.member source.annotation entry.1)
      Name.instantiatedMember = false) (member : String) :
    Dict.get? (readEntry context source true progress entry).members member =
      (if context.model.isOwnAlias source.annotation entry.1 member then
          some (context.model.resolve entry.2)
        else Dict.get? progress.members member).or
        (if entry.1 = member then some (context.model.resolve entry.2) else none) := by
  rw [readEntry, if_pos rfl, markInstantiated_eq_self plain, readAliased, get?_readOwn,
    get?_followAliases, Model.isOwnAlias]

/-! ## All members -/

private theorem get?_foldl_readEntry {written : Members}
    (plain : ∀ entry ∈ written, context.model.hasAnnotation (.member source.annotation entry.1)
      Name.instantiatedMember = false) (progress : Progress) (member : String) :
    Dict.get? (written.foldl (readEntry context source true) progress).members member =
      ((context.model.lastAliased? source.annotation member written).map
          context.model.resolve).or
        ((Dict.get? progress.members member).or
          ((Dict.get? written member).map context.model.resolve)) := by
  induction written generalizing progress with
  | nil => simp [Model.lastAliased?, Dict.get?]
  | cons entry rest ih =>
    have first := plain entry List.mem_cons_self
    rw [List.foldl_cons, ih fun later listed => plain later (List.mem_cons_of_mem _ listed),
      get?_readEntry first, Model.lastAliased?_cons, Option.map_or]
    simp only [Option.or_assoc]
    congr 1
    -- What remains is the entry itself: an alias for the member, the member, or neither.
    by_cases aliased : context.model.isOwnAlias source.annotation entry.1 member = true
    · simp only [aliased, if_true, Option.some_or, Option.map_some]
    · simp only [aliased, Bool.false_eq_true, if_false, Option.map_none, Option.none_or]
      congr 1
      by_cases named : entry.1 = member
      · simp only [named, if_true, Option.some_or, Dict.get?, Option.map_some]
      · simp only [named, if_false, Option.none_or, Dict.get?]

end Walk

namespace Model

variable {model : Model} {occurrence : Annotation}

/-- The members of an occurrence as they are read: the last written alias for a member
counts, or else the member itself. -/
theorem get?_reading
    (plain : ∀ entry ∈ occurrence.members, model.hasAnnotation (.member occurrence.name entry.1)
      Name.instantiatedMember = false) (member : String) :
    Dict.get? (model.reading true occurrence).members member =
      ((model.lastAliased? occurrence.name member occurrence.members).or
        (Dict.get? occurrence.members member)).map model.resolve := by
  unfold Model.reading Walk.readMembers
  rw [Option.map_or]
  exact Walk.get?_foldl_readEntry plain ⟨[], Walk.runtimeDefaults { model } occurrence.name⟩ member

theorem lastAliased?_isSome_iff {owner target : String} {written : Members} :
    (model.lastAliased? owner target written).isSome = true ↔
      ∃ entry ∈ written, model.isOwnAlias owner entry.1 target = true := by
  simp [lastAliased?]

end Model

end AnnotationMetadata
