import AnnotationMetadata.Dict.Lemmas
import AnnotationMetadata.Walk.Occurrence

set_option autoImplicit false

/-!
# Occurrences as they are read

The members that are read from an occurrence depend on the model alone. Neither the
place where it stands nor an extension makes a difference, and each member is read
once.
-/

namespace AnnotationMetadata

namespace Walk

variable {context other : Context} {source there : Source}

/-! ## What members depend on -/

section Members

variable (model : other.model = context.model) (named : there.annotation = source.annotation)

include model

theorem readOwn_members (member : String) (written : Value) {progress start : Progress}
    (same : start.members = progress.members) :
    (readOwn other there member written start).members =
      (readOwn context source member written progress).members := by
  unfold readOwn
  rw [same, model]
  split
  · exact same
  · rfl

private theorem followAliases_members (written : Value) (aliases : List MemberAlias)
    {progress start : Progress} (same : start.members = progress.members) :
    (aliases.foldl (followAlias other there written) start).members =
      (aliases.foldl (followAlias context source written) progress).members := by
  induction aliases generalizing progress start with
  | nil => exact same
  | cons found rest ih =>
    refine ih ?_
    unfold followAlias
    cases found.target with
    | none => simp only [same, model]
    | some target => exact same

include named

private theorem markInstantiated_members (entry : String × Value) {progress start : Progress}
    (same : start.members = progress.members) :
    (markInstantiated other there start entry).members =
      (markInstantiated context source progress entry).members := by
  unfold markInstantiated
  rw [model, named]
  split
  · split
    · simp only [same]
    · exact same
  · exact same

private theorem readEntry_members (aliases : Bool) (entry : String × Value)
    {progress start : Progress} (same : start.members = progress.members) :
    (readEntry other there aliases start entry).members =
      (readEntry context source aliases progress entry).members := by
  have marked := markInstantiated_members model named entry same
  unfold readEntry
  cases aliases with
  | true =>
    unfold readAliased
    rw [model, named]
    exact readOwn_members model _ _ (followAliases_members model _ _ marked)
  | false => exact readOwn_members model _ _ marked

private theorem readMembers_members (aliases : Bool) (members : Members) :
    (readMembers other there aliases members).members =
      (readMembers context source aliases members).members := by
  have entries : ∀ progress start : Progress, start.members = progress.members →
      (members.foldl (readEntry other there aliases) start).members =
        (members.foldl (readEntry context source aliases) progress).members := by
    induction members with
    | nil => exact fun _ _ same => same
    | cons entry rest ih =>
      exact fun _ _ same => ih _ _ (readEntry_members model named aliases entry same)
  exact entries _ _ rfl

end Members

/-! ## Each member once -/

theorem nodup_readOwn {member : String} {written : Value} {progress : Progress}
    (distinct : (Dict.keys progress.members).Nodup) :
    (Dict.keys (readOwn context source member written progress).members).Nodup := by
  unfold readOwn
  split
  · exact distinct
  · next missing =>
    have added := Dict.keys_insertNew progress.members member (context.model.resolve written)
    rw [Dict.insertNew, if_neg missing] at added
    exact added ▸ nodup_insertUnlisted distinct member

private theorem nodup_followAliases {written : Value} {aliases : List MemberAlias}
    {progress : Progress} (distinct : (Dict.keys progress.members).Nodup) :
    (Dict.keys (aliases.foldl (followAlias context source written) progress).members).Nodup := by
  induction aliases generalizing progress with
  | nil => exact distinct
  | cons found rest ih =>
    refine ih ?_
    unfold followAlias
    cases found.target with
    | none => exact Dict.nodup_keys_insert distinct _ _
    | some target => exact distinct

private theorem nodup_readEntry {aliases : Bool} {entry : String × Value} {progress : Progress}
    (distinct : (Dict.keys progress.members).Nodup) :
    (Dict.keys (readEntry context source aliases progress entry).members).Nodup := by
  have marked : (Dict.keys (markInstantiated context source progress entry).members).Nodup := by
    unfold markInstantiated
    split
    · split
      · exact Dict.nodup_keys_insert distinct _ _
      · exact distinct
    · exact distinct
  cases aliases with
  | true => exact nodup_readOwn (nodup_followAliases marked)
  | false => exact nodup_readOwn marked

private theorem nodup_readMembers (aliases : Bool) (members : Members) :
    (Dict.keys (readMembers context source aliases members).members).Nodup := by
  have entries : ∀ start : Progress, (Dict.keys start.members).Nodup →
      (Dict.keys (members.foldl (readEntry context source aliases) start).members).Nodup := by
    induction members with
    | nil => exact fun _ distinct => distinct
    | cons entry rest ih => exact fun _ distinct => ih _ (nodup_readEntry distinct)
  exact entries _ List.nodup_nil

end Walk

/-! ## Readings -/

/-- An occurrence with the members that are read from it, wherever it stands. -/
def Model.reading (model : Model) (aliases : Bool) (occurrence : Annotation) : Annotation where
  name := occurrence.name
  members := (Walk.readMembers { model } ⟨.annotationType occurrence.name, false, occurrence.name,
    [], []⟩ aliases occurrence.members).members
  retention := model.retentionOf occurrence.name

theorem Model.nodup_reading (model : Model) (aliases : Bool) (occurrence : Annotation) :
    (Dict.keys (model.reading aliases occurrence).members).Nodup :=
  Walk.nodup_readMembers aliases occurrence.members

theorem Walk.populate_members (context : Context) (originating : Element)
    (declared aliases : Bool) (enclosing : List String) (occurrence : Annotation) :
    (populate context originating declared aliases enclosing occurrence).members =
      (context.model.reading aliases occurrence).members := by
  have read : ∀ source : Source, source.annotation = occurrence.name →
      (readMembers context source aliases occurrence.members).members =
        (context.model.reading aliases occurrence).members := by
    intro source named
    unfold Model.reading
    refine readMembers_members ?_ ?_ aliases occurrence.members
    · rfl
    · exact named
  unfold populate
  dsimp only
  split <;> exact read _ rfl

theorem Walk.mappers_eq_nil_of_unmapped {context : Context} {originating : Element}
    {declared aliases : Bool} {enclosing : List String} {occurrence : Annotation}
    (unmapped : ¬ (populate context originating declared aliases enclosing occurrence).mapped) :
    context.registry.mappers occurrence.name = [] := by
  cases mappers : context.registry.mappers occurrence.name with
  | nil => rfl
  | cons first rest => exact absurd (by simp only [populate, mappers]) unmapped

end AnnotationMetadata
