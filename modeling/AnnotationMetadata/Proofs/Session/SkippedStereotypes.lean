import AnnotationMetadata.Proofs.Session.InternalNames
import AnnotationMetadata.Proofs.Walk.MetaGraph
import AnnotationMetadata.Proofs.Walk.StereotypeGraph

set_option autoImplicit false

/-!
# Skipped stereotypes

When an annotation is added, some of the meta-annotations that its type carries are skipped.
The walk asks this about occurrences on that type only: neither about what other types carry,
nor about the target of an alias, nor about the container that an occurrence is recorded
under.
-/

namespace AnnotationMetadata

namespace Walk

variable {context : Context} {root : String}

/-- A meta-annotation of the type has a member that is an alias for the annotation. -/
inductive AliasedBelow (context : Context) (owner name : String) : Prop where
  | intro {item member : String} {found : MemberAlias} (carried : Meta context owner item)
      (listed : found ∈ context.model.aliasesOf (.member item member))
      (named : found.target = some name) : AliasedBelow context owner name

/-- From the meta-annotations of one type, a walk goes on to those of the other. -/
inductive LeadsTo (context : Context) (owner name : String) : Prop where
  | carried (carried : Meta context owner name) : LeadsTo context owner name
  | aliased (aliased : AliasedBelow context owner name) : LeadsTo context owner name

/-- How an annotation that is added brings in a stereotype: its type carries what is recorded
under the name and is not to be skipped, or another type on the way carries it, whatever it
is, or some alias on the way is for it. -/
inductive BroughtBy (context : Context) (root name : String) : Prop where
  | own {item : String} (carried : Meta context root item)
      (unskipped : item ∉ context.config.annotateExcludes)
      (recorded : context.model.recordedAs item = name) : BroughtBy context root name
  | below {owner item : String} (reached : Relation.ReflTransGen (LeadsTo context) root owner)
      (other : owner ≠ root) (carried : Meta context owner item)
      (recorded : context.model.recordedAs item = name) : BroughtBy context root name
  | aliased {owner item : String} (reached : Relation.ReflTransGen (LeadsTo context) root owner)
      (aliased : AliasedBelow context owner item)
      (recorded : context.model.recordedAs item = name) : BroughtBy context root name

/-- What a walk from the annotation comes to. It does not come back to the annotation, and
there it skips what is to be skipped. -/
structure From (context : Context) (root : String) (descent : Descent) : Prop where
  reached : Relation.ReflTransGen (LeadsTo context) root descent.owner
  started : root ∈ descent.chain
  skips : descent.owner = root → descent.excludes = context.config.annotateExcludes

/-- What the walk from an annotation records. -/
abbrev NamesFrom (context : Context) (root : String) : Recording → Prop :=
  Recording.NamesOnly (fun _ => True) (BroughtBy context root)

/-! ## Steps -/

/-- Every further level is one of another annotation type. -/
theorem From.below {descent : Descent} (walked : From context root descent) {chain : List String}
    {name : String} {declared : Bool} (extended : descent.chain ⊆ chain)
    (leads : LeadsTo context descent.owner name) (fresh : name ∉ chain) :
    From context root { ancestors := chain, owner := name, declared } := by
  have started : root ∈ chain := extended walked.started
  refine ⟨walked.reached.tail leads, List.mem_append_left _ started, ?_⟩
  rintro rfl
  exact absurd started fresh

theorem BroughtBy.carried {descent : Descent} (walked : From context root descent) {name : String}
    (carried : Meta context descent.owner name) (unskipped : name ∉ descent.excludes) :
    BroughtBy context root (context.model.recordedAs name) := by
  by_cases same : descent.owner = root
  · exact .own (same ▸ carried) (walked.skips same ▸ unskipped) rfl
  · exact .below walked.reached same carried rfl

section Steps

variable (empty : context.registry = .empty)

include empty

theorem AliasStep.namesFrom {descent : Descent} (walked : From context root descent)
    {source : Source} (below : descent.chain ⊆ source.chain) {name : String} {target : Annotation}
    {step : Step} (aliased : AliasedBelow context descent.owner name)
    (remapped : target ∈ remapTarget context name) (taken : AliasStep context source target step) :
    step.Keeps context.config (NamesFrom context root) (From context root) := by
  rw [remapTarget_of_empty empty] at remapped
  cases List.mem_singleton.mp remapped
  have brought : BroughtBy context root (context.model.recordedAs name) :=
    .aliased walked.reached aliased rfl
  cases taken with
  | defaults => trivial
  | alone ungrouped => exact Model.recordedAs_of_ungrouped ungrouped ▸ brought
  | grouped grouped => exact Model.recordedAs_of_grouped grouped ▸ brought
  | descend _ fresh => exact walked.below below (.aliased aliased) fresh
  | expand =>
    intro recording recorded
    rw [inline_of_bare context.config source.declared source.chain rfl] at recorded
    cases recorded

theorem LevelStep.namesFrom {descent : Descent} (walked : From context root descent) {step : Step}
    (taken : LevelStep context descent step) :
    step.Keeps context.config (NamesFrom context root) (From context root) := by
  cases taken with
  | @read occurrence _ present walks read =>
    have carried : Meta context descent.owner occurrence.name :=
      (walkedMeta_of_isWalked present walks).toMeta
    cases read with
    | defaults => trivial
    | read => trivial
    | aliased listed named remapped taken =>
      exact taken.namesFrom empty walked (List.subset_append_left _ _) (.intro carried listed named)
        remapped
  | mapped _ registered => exact absurd (mappers_of_empty empty _) registered
  | @replaced occurrence _ present walks replaced =>
    have carried := (walkedMeta_of_isWalked present walks).toMeta
    refine replaced.namesOnly empty (fun _ => trivial) fun _ => ?_
    exact .carried walked carried (fresh_of_isWalked walks).2
  | @descend occurrence present walks =>
    have carried := (walkedMeta_of_isWalked present walks).toMeta
    exact walked.below (List.Subset.refl _) (.carried carried) (fresh_of_isWalked walks).1
  | binding => trivial

private theorem added_namesFrom {occurrence : Annotation} {recording : Recording}
    (recorded : recording ∈ added context occurrence) :
    NamesFrom context occurrence.name recording := by
  refine holds_of_mem_carryOut (Q := From context occurrence.name) trivial
    (fun _ walked _ taken => taken.namesFrom empty walked) (fun step planned => ?_) recorded
  cases additionStep_of_mem_addition planned with
  | @written container written _ =>
    cases container with
    | none => trivial
    | some => trivial
  | defaults => trivial
  | descend => exact ⟨.refl, List.mem_singleton_self _, fun _ => rfl⟩

end Steps

end Walk

/-- When an annotation is added to empty metadata, stereotypes that are to be skipped come in
only as the container of what its type carries, from another annotation type on the way, or
through an alias. -/
theorem skipped_stereotypes_of_annotate {session : Session}
    (empty : session.context.registry = .empty) (occurrence : Annotation) :
    ∃ metadata, (session.serve (.annotate .empty occurrence)).1 = some (.ok metadata) ∧
      ∀ name ∈ session.context.config.annotateExcludes,
        (name ∈ metadata.stereotypeNames ∨ name ∈ metadata.declaredStereotypeNames) →
          (∃ item, Walk.Meta session.context occurrence.name item ∧
            session.model.containerOf? item = some name) ∨
          ∃ owner item,
            Relation.ReflTransGen (Walk.LeadsTo session.context) occurrence.name owner ∧
            session.model.recordedAs item = name ∧
            (owner ≠ occurrence.name ∧ Walk.Meta session.context owner item ∨
              Walk.AliasedBelow session.context owner item) := by
  refine ⟨_, session.serve_annotate (.of_empty empty) .empty occurrence, ?_⟩
  intro name skipped listed
  have formed := (Store.Reachable.empty.recordAll
    (Walk.added session.context occurrence)).wellFormed
  have recorded := (Metadata.mem_names_of_ofStore formed).2 listed
  have brought := Store.stereotypes_of_namesOnly (fun _ => Walk.added_namesFrom empty)
    (Walk.promoteScope_not_mem_added _ _) recorded
  cases brought with
  | @own item carried unskipped named =>
    refine .inl ⟨item, carried, ?_⟩
    cases grouped : session.context.model.containerOf? item with
    | some container =>
      rw [Model.recordedAs_of_grouped grouped] at named
      exact named ▸ grouped
    | none =>
      rw [Model.recordedAs_of_ungrouped grouped] at named
      exact absurd (named ▸ skipped) unskipped
  | below reached other carried named => exact .inr ⟨_, _, reached, named, .inl ⟨other, carried⟩⟩
  | aliased reached aliased named => exact .inr ⟨_, _, reached, named, .inr aliased⟩

/-- An annotation that is to be skipped stands on two annotation types. One of them stands on
another one. -/
def secretContext : Context where
  config := { annotateExcludes := ["bean.Secret"] }
  model :=
    { document :=
        { annotations :=
            [("bean.Outer", { annotations := [{ name := "bean.Inner" }] }),
              ("bean.Inner", { annotations := [{ name := "bean.Secret" }] }),
              ("bean.Secret", {})] } }

theorem secretContext_plain : secretContext.Plain where
  registry := rfl
  unaliased := Model.unaliased_of_memberless (by decide)
  ungrouped := by decide

theorem secretContext_below :
    ∃ metadata : Metadata,
      ((Session.fresh secretContext).serve (.annotate .empty { name := "bean.Outer" })).1 =
        some (.ok metadata) ∧
      "bean.Secret" ∈ metadata.declaredStereotypeNames ∧
      ∃ owner, owner ≠ "bean.Outer" ∧ Walk.Meta secretContext owner "bean.Secret" := by
  have empty : (Session.fresh secretContext).context.registry = .empty := rfl
  obtain ⟨metadata, answered, skipped⟩ :=
    skipped_stereotypes_of_annotate empty { name := "bean.Outer" }
  cases answered
  refine ⟨_, rfl, by decide, ?_⟩
  have ungrouped := secretContext_plain.containerOf?_eq_none
  rcases skipped "bean.Secret" (by decide) (.inr (by decide)) with ⟨item, _, grouped⟩ |
    ⟨owner, item, _, recorded, ⟨other, carried⟩ | aliased⟩
  · cases (ungrouped item).symm.trans grouped
  · cases (Model.recordedAs_of_ungrouped (ungrouped item)).symm.trans recorded
    exact ⟨owner, other, carried⟩
  · obtain ⟨_, listed, _⟩ := aliased
    cases secretContext_plain.aliasesOf_eq_nil _ _ ▸ listed

/-- The annotation is skipped on the type that is added, and is a stereotype where another type
carries it. -/
theorem secretContext_recorded :
    secretContext.registry = .empty ∧ "bean.Secret" ∈ secretContext.config.annotateExcludes ∧
    (∃ metadata : Metadata,
      ((Session.fresh secretContext).serve (.annotate .empty { name := "bean.Inner" })).1 =
        some (.ok metadata) ∧
      metadata.stereotypeNames = []) ∧
    ∃ metadata : Metadata,
      ((Session.fresh secretContext).serve (.annotate .empty { name := "bean.Outer" })).1 =
        some (.ok metadata) ∧
      metadata.stereotypeNames = ["bean.Inner", "bean.Secret"] ∧
      metadata.declaredStereotypeNames = ["bean.Inner", "bean.Secret"] :=
  ⟨rfl, by decide, ⟨_, rfl, rfl⟩, _, rfl, rfl, rfl⟩

end AnnotationMetadata
