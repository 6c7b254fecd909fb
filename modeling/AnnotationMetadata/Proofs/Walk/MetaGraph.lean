import AnnotationMetadata.Proofs.Walk.Reached
import AnnotationMetadata.Proofs.Walk.Recordings

set_option autoImplicit false

/-!
# Types that a walk comes to

Without extensions and member aliases, a walk follows the meta-annotations of the types
that it comes to. As long as these do not go round in a circle, no type is left out for
leading to itself, and the walk comes to all types that can be reached.
-/

namespace AnnotationMetadata

variable {context : Context}

namespace Walk

/-! ## The graph of meta-annotations -/

/-- The annotation type carries a meta-annotation that is not internal. -/
structure Meta (context : Context) (owner name : String) : Prop where
  carried : ∃ occurrence ∈ context.model.occurrencesOn (.annotationType owner),
    occurrence.name = name
  recorded : context.config.isInternal name = false

/-- A walk goes on from the annotation type with the meta-annotation. A binding on an
interception kind is left out. -/
structure WalkedMeta (context : Context) (owner name : String) : Prop extends
    Meta context owner name where
  allowed : ¬ (Name.isInterceptionKind owner = true ∧ name = Name.interceptorBinding)

/-- The meta-annotations of types do not lead back to them. -/
def Acyclic (context : Context) : Prop :=
  ∀ name, ¬ Relation.TransGen (Meta context) name name

/-- Meta-annotations that lead to smaller and smaller ranks do not lead back. -/
theorem acyclic_of_rank (rank : String → Nat)
    (falls : ∀ entry ∈ context.model.document.annotations,
      ∀ occurrence ∈ entry.2.annotations.flatMap context.model.unwrap,
        rank occurrence.name < rank entry.1) : Acyclic context := by
  have down : ∀ {owner name}, Meta context owner name → rank name < rank owner := by
    rintro owner _ ⟨⟨occurrence, carried, rfl⟩, _⟩
    cases known : context.model.annotationType? owner with
    | none => simp [Model.occurrencesOn, Model.writtenOn, known] at carried
    | some declaration =>
      rw [Model.occurrencesOn, Model.writtenOn, known] at carried
      exact falls _ (Dict.mem_of_get?_eq_some known) occurrence carried
  intro name circle
  have falling : ∀ {last}, Relation.TransGen (Meta context) name last → rank last < rank name := by
    intro last path
    induction path with
    | single carries => exact down carries
    | tail _ carries ih => exact (down carries).trans ih
  exact Nat.lt_irrefl _ (falling circle)

theorem walkedMeta_of_isWalked {chain : List String} {owner : String} {excludes : List String}
    {occurrence : Annotation}
    (carried : occurrence ∈ context.model.occurrencesOn (.annotationType owner))
    (walked : isWalked context.config chain owner excludes occurrence.name = true) :
    WalkedMeta context owner occurrence.name := by
  simp only [isWalked, Bool.and_eq_true, Bool.not_eq_true'] at walked
  refine ⟨⟨⟨occurrence, carried, rfl⟩, walked.1.1.2⟩, ?_⟩
  rintro ⟨kind, same⟩
  simp [kind, same] at walked

/-- What a walk goes on with is decided by the type alone, unless it is on the chain. -/
theorem isWalked_eq {chain : List String} {owner name : String} (fresh : name ∉ chain) :
    isWalked context.config chain owner [] name =
      (!context.config.isInternal name &&
        !(Name.isInterceptionKind owner && name == Name.interceptorBinding)) := by
  simp [isWalked, fresh]

/-! ## One level -/

section Level

variable (empty : context.registry = .empty) (unaliased : context.model.Unaliased)

include unaliased in
theorem ReadStep.of_unaliased {source : Source} {step : Step}
    (taken : ReadStep context source step) :
    (∃ name members, step = .record (.write (.defaults name members))) ∨
      ∃ value, step = .record (.read value) := by
  cases taken with
  | defaults => exact .inl ⟨_, _, rfl⟩
  | read => exact .inr ⟨_, rfl⟩
  | aliased listed => rw [unaliased.aliasesOf_eq_nil] at listed; cases listed

/-- The meta-annotations of a type that a walk reads, with the members that are read. -/
def readNames (context : Context) (descent : Descent) : List (String × Members) :=
  ((context.model.occurrencesOn (.annotationType descent.owner)).filter fun occurrence =>
      isWalked context.config descent.chain descent.owner descent.excludes occurrence.name).map
    fun occurrence => (occurrence.name, (context.model.reading true occurrence).members)

/-- A step of a level without extensions and member aliases. -/
inductive BareStep (context : Context) (descent : Descent) : Step → Prop where
  | defaults {name : String} {members : Members} :
      BareStep context descent (.record (.write (.defaults name members)))
  | read {value : ReadValue} : BareStep context descent (.record (.read value))
  | stereotype {occurrence : Annotation} {members : Members}
      (carried : occurrence ∈ context.model.occurrencesOn (.annotationType descent.owner))
      (other : occurrence.name ≠ Name.interceptorBinding) :
      BareStep context descent
        (.record ((Placement.stereotype descent.chain).writeIn descent.declared
          (context.model.containerOf? occurrence.name)
          { name := occurrence.name, members
            retention := context.model.retentionOf occurrence.name }))
  | descend {occurrence : Annotation}
      (carried : occurrence ∈ context.model.occurrencesOn (.annotationType descent.owner))
      (walked : isWalked context.config descent.chain descent.owner descent.excludes
        occurrence.name) :
      BareStep context descent
        (.descend
          { ancestors := descent.chain, owner := occurrence.name, declared := descent.declared })
  | binding {binding : Annotation}
      (bound : Interception.binding? descent.owner (readNames context descent) = some binding) :
      BareStep context descent
        (.record (.write (.occurrence descent.declared Name.interceptorBindings binding)))

include empty

theorem readMeta_of_empty (declared : Bool) (chain : List String) (owner : String)
    (occurrence : Annotation) :
    (readMeta context declared chain owner occurrence).name = occurrence.name ∧
      (readMeta context declared chain owner occurrence).members =
        (context.model.reading true occurrence).members ∧
      (readMeta context declared chain owner occurrence).kept = true := by
  simp only [readMeta, populate_mapped_of_empty empty, replace_of_empty empty, Bool.or_false]
  split <;> exact ⟨rfl, populate_members _ _ _ _ _ _, rfl⟩

theorem readMetas_map (descent : Descent) :
    (readMetas context descent).map (fun reading => (reading.name, reading.members)) =
      readNames context descent := by
  rw [readMetas, readNames, List.map_map]
  refine List.map_congr_left fun occurrence _ => ?_
  obtain ⟨name, members, _⟩ :=
    readMeta_of_empty empty descent.declared descent.chain descent.owner occurrence
  rw [Function.comp_apply, name, members]

theorem mem_level_of_walkedMeta {descent : Descent} (excludes : descent.excludes = [])
    {name : String} (walked : WalkedMeta context descent.owner name)
    (fresh : name ∉ descent.chain) :
    Step.descend { ancestors := descent.chain, owner := name, declared := descent.declared } ∈
      level context descent := by
  obtain ⟨occurrence, carried, rfl⟩ := walked.carried
  have follows : isWalked context.config descent.chain descent.owner descent.excludes
      occurrence.name = true := by
    rw [excludes, isWalked_eq fresh, walked.recorded]
    by_cases kind : Name.isInterceptionKind descent.owner = true
    · have other : occurrence.name ≠ Name.interceptorBinding :=
        fun same => walked.allowed ⟨kind, same⟩
      simp [other]
    · simp [kind]
  obtain ⟨same, _, kept⟩ :=
    readMeta_of_empty empty descent.declared descent.chain descent.owner occurrence
  have listed : readMeta context descent.declared descent.chain descent.owner occurrence ∈
      readMetas context descent := mem_readMetas_iff.mpr ⟨occurrence, carried, follows, rfl⟩
  refine List.mem_append_left _ (List.mem_append_right _ (List.mem_map.mpr
    ⟨_, List.mem_filter.mpr ⟨listed, kept⟩, ?_⟩))
  rw [same]

theorem mem_level_of_binding {descent : Descent} {binding : Annotation}
    (bound : Interception.binding? descent.owner (readNames context descent) = some binding) :
    Step.record (.write (.occurrence descent.declared Name.interceptorBindings binding)) ∈
      level context descent := by
  refine List.mem_append_right _ (List.mem_map_of_mem ?_)
  rw [readMetas_map empty, bindingTrace, bound]
  exact List.mem_singleton_self _

include unaliased

private theorem bareStep_of_mem_readMeta {descent : Descent} {occurrence : Annotation}
    (carried : occurrence ∈ context.model.occurrencesOn (.annotationType descent.owner))
    {step : Step} (planned : step ∈ (readMeta context descent.declared descent.chain descent.owner
      occurrence).plan) : BareStep context descent step := by
  have populated : ∀ step ∈ (populate context (.annotationType descent.owner) descent.declared
      true descent.chain occurrence).plan, BareStep context descent step := by
    intro step read
    rcases step_of_mem_populate read with taken | ⟨registered, _⟩
    · rcases taken.of_unaliased unaliased with ⟨name, members, rfl⟩ | ⟨value, rfl⟩
      · exact .defaults
      · exact .read
    · exact absurd (mappers_of_empty empty _) registered
  simp only [readMeta, populate_mapped_of_empty empty, replace_of_empty empty, Bool.or_false,
    decide_eq_true_eq] at planned
  split at planned
  · exact populated step planned
  · next other =>
    rcases List.mem_append.mp planned with read | written
    · exact populated step read
    · cases List.mem_singleton.mp written
      exact .stereotype carried other

theorem bareStep_of_mem_level {descent : Descent} {step : Step}
    (planned : step ∈ level context descent) : BareStep context descent step := by
  simp only [level, List.mem_append, List.mem_flatMap, List.mem_map, List.mem_filter,
    Plan.ofTrace] at planned
  rcases planned with (⟨reading, listed, read⟩ | ⟨reading, ⟨listed, _⟩, rfl⟩) |
    ⟨recording, recorded, rfl⟩
  · obtain ⟨occurrence, carried, _, rfl⟩ := mem_readMetas_iff.mp listed
    exact bareStep_of_mem_readMeta empty unaliased carried read
  · obtain ⟨occurrence, carried, walked, rfl⟩ := mem_readMetas_iff.mp listed
    rw [readMeta_name]
    exact .descend carried walked
  · rw [readMetas_map empty] at recorded
    obtain ⟨binding, bound, rfl⟩ := List.mem_map.mp recorded
    exact .binding (Option.mem_toList.mp bound)

end Level

/-! ## All levels -/

/-- One of the annotations has its meta-annotations walked. -/
structure Starts (context : Context) (annotations : List Annotation) (name : String) : Prop where
  given : ∃ occurrence ∈ annotations, occurrence.name = name
  recorded : context.config.isInternal name = false
  root : isRoot context.config name = true

/-- A walk comes to the type from one of the annotations. -/
def Leads (context : Context) (annotations : List Annotation) (name : String) : Prop :=
  ∃ root, Starts context annotations root ∧ Relation.ReflTransGen (WalkedMeta context) root name

/-- What is known of a walk below annotations that an element declares. -/
structure Descent.LedBy (context : Context) (annotations : List Annotation) (descent : Descent) :
    Prop where
  leads : Leads context annotations descent.owner
  declared : descent.declared = true
  excludes : descent.excludes = []
  ancestors : ∀ above ∈ descent.ancestors,
    Relation.TransGen (WalkedMeta context) above descent.owner

/-- What a type carries is not on the chain that leads to the type. -/
theorem Descent.LedBy.fresh {annotations : List Annotation} {descent : Descent}
    (led : descent.LedBy context annotations) (acyclic : Acyclic context) {name : String}
    (carried : Meta context descent.owner name) : name ∉ descent.chain := by
  have up : ∀ {above}, Relation.TransGen (WalkedMeta context) above descent.owner →
      Relation.TransGen (Meta context) above descent.owner :=
    fun path => path.lift id fun _ _ walked => walked.toMeta
  intro listed
  rcases List.mem_append.mp listed with above | itself
  · exact acyclic name ((up (led.ancestors name above)).tail carried)
  · cases List.mem_singleton.mp itself
    exact acyclic _ (.single carried)

section Led

variable (empty : context.registry = .empty) (unaliased : context.model.Unaliased)
  {element : Element} {annotations : List Annotation}

include empty

private theorem includeOne_of_empty (occurrence : Annotation) :
    (includeOne context element true true occurrence).kept = true ∧
      (includeOne context element true true occurrence).name = occurrence.name := by
  simp only [includeOne, populate_mapped_of_empty empty, replace_of_empty empty,
    Bool.false_eq_true, if_false, and_self]

private theorem reached_of_starts {name : String} (starts : Starts context annotations name) :
    Reached context (occurrences context element true true annotations)
      (.descend { ancestors := [], owner := name, declared := true }) := by
  obtain ⟨occurrence, given, rfl⟩ := starts.given
  have included : (includeOne context element true true occurrence).kept = true ∧ _ :=
    includeOne_of_empty empty occurrence
  obtain ⟨kept, same⟩ := included
  refine .planned (List.mem_append_right _ (List.mem_map.mpr
    ⟨includeOne context element true true occurrence, List.mem_filter.mpr ⟨?_, ?_⟩, ?_⟩))
  · exact List.mem_map_of_mem (List.mem_filter.mpr ⟨given, by simp [starts.recorded]⟩)
  · rw [kept, same, starts.root]
    rfl
  · rw [same]

include unaliased

/-- By induction on how it is reached: every walk lies below the annotations. -/
theorem Reached.ledBy {descent : Descent}
    (reached : Reached context (occurrences context element true true annotations)
      (.descend descent)) : descent.LedBy context annotations := by
  generalize same : Step.descend descent = step at reached
  induction reached generalizing descent with
  | planned member =>
    subst same
    cases elementStep_of_mem_occurrences member with
    | read _ _ read =>
      rcases read.of_unaliased unaliased with ⟨_, _, same⟩ | ⟨_, same⟩ <;> cases same
    | mapped _ registered => exact absurd (mappers_of_empty empty _) registered
    | replaced _ _ replaced =>
      obtain ⟨_, same⟩ := replaced.eq_itself empty
      cases same
    | descend given recorded root =>
      exact ⟨⟨_, ⟨⟨_, given, rfl⟩, recorded, root⟩, .refl⟩, rfl, rfl, fun _ none => nomatch none⟩
  | deeper _ member ih =>
    subst same
    have above := ih rfl
    cases bareStep_of_mem_level empty unaliased member with
    | descend carried walked =>
      have follows := walkedMeta_of_isWalked carried walked
      obtain ⟨root, starts, path⟩ := above.leads
      refine ⟨⟨root, starts, path.tail follows⟩, above.declared, rfl, ?_⟩
      intro earlier listed
      rcases List.mem_append.mp listed with higher | itself
      · exact (above.ancestors earlier higher).tail follows
      · cases List.mem_singleton.mp itself
        exact .single follows

/-- A walk comes to everything that it leads to. -/
theorem exists_reached_of_leads (acyclic : Acyclic context) {name : String}
    (leads : Leads context annotations name) :
    ∃ descent, Reached context (occurrences context element true true annotations)
      (.descend descent) ∧ descent.owner = name := by
  obtain ⟨root, starts, path⟩ := leads
  induction path with
  | refl => exact ⟨_, reached_of_starts empty starts, rfl⟩
  | tail _ follows ih =>
    obtain ⟨descent, reached, rfl⟩ := ih
    have led := reached.ledBy empty unaliased
    exact ⟨_, .deeper reached (mem_level_of_walkedMeta empty led.excludes follows
      (led.fresh acyclic follows.toMeta)), rfl⟩

end Led

end Walk

end AnnotationMetadata
