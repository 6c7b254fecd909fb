import AnnotationMetadata.Proofs.Walk.Depth
import Mathlib.Data.List.Nodup
import Mathlib.Data.List.Perm.Subperm

set_option autoImplicit false

/-!
# Chains of annotations

Without extensions, the annotations that lead from an element to a walk are
distinct, and all but the last are declared: a meta-annotation that is on the
chain already is not walked, and neither is the target of an alias. Their number
is therefore bounded by the document, and so is the depth of every walk.
-/

namespace AnnotationMetadata

namespace Model

variable {model : Model}

/-! ## Names in a document -/

/-- The members of annotation types. -/
def memberElements (model : Model) : List Element :=
  model.document.annotations.flatMap fun entry =>
    (Dict.keys entry.2.members).map (Element.member entry.1)

/-- Everything in the document that can be annotated. -/
def annotatedElements (model : Model) : List Element :=
  (Dict.keys model.document.annotations).map .annotationType ++ model.memberElements ++
    model.elementNames.map .declaration

/-- The names of all annotations that are declared or written in the document and
of all targets of member aliases, each once. -/
def mentionedNames (model : Model) : List String :=
  (Dict.keys model.document.annotations ++
    model.annotatedElements.flatMap (fun element =>
      (model.writtenOn element ++ model.occurrencesOn element).map Annotation.name) ++
    model.memberElements.flatMap fun member =>
      (model.aliasesOf member).filterMap MemberAlias.target).eraseDups

theorem mem_keys_of_annotationType? {name : String}
    (known : (model.annotationType? name).isSome) :
    name ∈ Dict.keys model.document.annotations :=
  Dict.mem_keys_iff.mpr (Option.isSome_iff_exists.mp known)

theorem mem_mentionedNames_of_annotationType? {name : String}
    (known : (model.annotationType? name).isSome) : name ∈ model.mentionedNames := by
  rw [mentionedNames, List.mem_eraseDups]
  exact List.mem_append_left _ (List.mem_append_left _ (mem_keys_of_annotationType? known))

/-- Only a declared type carries meta-annotations. -/
theorem annotationType?_isSome_of_mem_occurrencesOn {owner : String} {occurrence : Annotation}
    (carried : occurrence ∈ model.occurrencesOn (.annotationType owner)) :
    (model.annotationType? owner).isSome := by
  cases found : model.annotationType? owner with
  | none => simp [occurrencesOn, writtenOn, found] at carried
  | some declaration => rfl

theorem mem_memberElements_of_memberDeclaration? {owner member : String}
    {declaration : MemberDeclaration}
    (found : model.memberDeclaration? owner member = some declaration) :
    .member owner member ∈ model.memberElements := by
  obtain ⟨type, known, declared⟩ := Option.bind_eq_some_iff.mp found
  exact List.mem_flatMap.mpr ⟨(owner, type), Dict.mem_of_get?_eq_some known,
    List.mem_map_of_mem (Dict.mem_keys_iff.mpr ⟨declaration, declared⟩)⟩

/-- Only a declared member has aliases. -/
theorem memberDeclaration?_isSome_of_mem_aliasesOf {owner member : String} {found : MemberAlias}
    (listed : found ∈ model.aliasesOf (.member owner member)) :
    (model.memberDeclaration? owner member).isSome := by
  cases known : model.memberDeclaration? owner member with
  | none =>
    have bare : ∀ name, model.membersOn (.member owner member) name = [] := by
      intro name
      simp [membersOn, writtenOn, known]
    simp [aliasesOf, alias?, bare, Dict.get?, MemberAlias.ofMembers?] at listed
  | some declaration => rfl

theorem annotationType?_isSome_of_mem_aliasesOf {owner member : String} {found : MemberAlias}
    (listed : found ∈ model.aliasesOf (.member owner member)) :
    (model.annotationType? owner).isSome :=
  Option.isSome_of_isSome_bind (memberDeclaration?_isSome_of_mem_aliasesOf listed)

/-- Only what the document declares carries annotations. -/
theorem mem_annotatedElements_of_mem_occurrencesOn {element : Element} {occurrence : Annotation}
    (carried : occurrence ∈ model.occurrencesOn element) : element ∈ model.annotatedElements := by
  cases element with
  | declaration name =>
    cases found : model.declaration? name with
    | none => simp [occurrencesOn, writtenOn, found] at carried
    | some declaration =>
      exact List.mem_append_right _ (List.mem_map_of_mem (Dict.mem_keys_iff.mpr ⟨_, found⟩))
  | annotationType name =>
    have known := annotationType?_isSome_of_mem_occurrencesOn carried
    exact List.mem_append_left _
      (List.mem_append_left _ (List.mem_map_of_mem (mem_keys_of_annotationType? known)))
  | member owner member =>
    cases found : model.memberDeclaration? owner member with
    | none => simp [occurrencesOn, writtenOn, found] at carried
    | some declaration =>
      exact List.mem_append_left _
        (List.mem_append_right _ (mem_memberElements_of_memberDeclaration? found))

/-- No member of an annotation type carries an alias. -/
def Unaliased (model : Model) : Prop :=
  ∀ owner member, ∀ written ∈ model.writtenOn (.member owner member),
    written.name ≠ Name.aliasFor ∧ written.name ≠ Name.aliases

theorem Unaliased.aliasesOf_eq_nil {model : Model} (unaliased : model.Unaliased)
    (owner member : String) : model.aliasesOf (.member owner member) = [] := by
  have unwritten : ∀ name, name = Name.aliasFor ∨ name = Name.aliases →
      model.membersOn (.member owner member) name = [] := by
    intro name either
    have missing : (model.writtenOn (.member owner member)).find?
        (fun written => written.name == name) = none := by
      refine List.find?_eq_none.mpr fun written member same => ?_
      obtain ⟨single, many⟩ := unaliased _ _ written member
      rcases either with rfl | rfl
      · exact single (beq_iff_eq.mp same)
      · exact many (beq_iff_eq.mp same)
    rw [membersOn, missing]
  rw [aliasesOf, unwritten _ (.inr rfl), alias?, unwritten _ (.inl rfl)]
  rfl

theorem unaliased_of_memberless
    (memberless : ∀ entry ∈ model.document.annotations, entry.2.members = []) :
    model.Unaliased := by
  intro owner member written listed
  cases found : model.annotationType? owner with
  | none => simp [writtenOn, memberDeclaration?, found] at listed
  | some declaration =>
    have none : declaration.members = [] := memberless _ (Dict.mem_of_get?_eq_some found)
    simp [writtenOn, memberDeclaration?, found, none, Dict.get?] at listed

end Model

namespace Walk

variable {context : Context}

/-! ## Proper chains -/

/-- The annotations that lead to what a step walks, the last one included. -/
def Step.chain? : Step → Option (List String)
  | .record _ => none
  | .descend descent => some descent.chain
  | .expand _ ancestors given => some (ancestors ++ [given.name])

/-- A chain without repetition on which only the last annotation can be unknown. -/
structure ProperChain (model : Model) (chain : List String) : Prop where
  nodup : chain.Nodup
  known : ∀ name ∈ chain.dropLast, (model.annotationType? name).isSome

theorem ProperChain.single (model : Model) (name : String) : ProperChain model [name] :=
  ⟨List.nodup_singleton name, by simp⟩

/-- A chain of known annotations can be continued by a new one. -/
theorem ProperChain.concat {model : Model} {chain : List String} {name : String}
    (nodup : chain.Nodup) (known : ∀ above ∈ chain, (model.annotationType? above).isSome)
    (fresh : name ∉ chain) : ProperChain model (chain ++ [name]) := by
  refine ⟨?_, ?_⟩
  · refine List.nodup_append.mpr ⟨nodup, List.nodup_singleton name, ?_⟩
    intro above listed last member same
    cases List.mem_singleton.mp member
    exact fresh (same ▸ listed)
  · rw [List.dropLast_concat]
    exact known

/-- A proper chain is at most one longer than any list of all known annotations. -/
theorem ProperChain.length_le {model : Model} {chain names : List String}
    (proper : ProperChain model chain)
    (listed : ∀ name, (model.annotationType? name).isSome → name ∈ names) :
    chain.length ≤ names.length + 1 := by
  have named : chain.dropLast ⊆ names := fun name member => listed name (proper.known name member)
  have nodup : chain.dropLast.Nodup := proper.nodup.sublist (List.dropLast_sublist chain)
  have bound := (nodup.subperm named).length_le
  rw [List.length_dropLast] at bound
  omega

/-! ## Without extensions -/

theorem mappers_of_empty (empty : context.registry = .empty) (name : String) :
    context.registry.mappers name = [] := by
  rw [empty]
  rfl

theorem not_replaces_of_empty (empty : context.registry = .empty) (name : String) :
    ¬ Replaces context.registry name := by
  rw [empty]
  rintro (remappers | transformers)
  · exact remappers rfl
  · exact transformers rfl

/-- What is walked from a member of an occurrence lies below the occurrence. -/
theorem ReadStep.chain_proper {source : Source} {step : Step}
    (taken : ReadStep context source step) (nodup : source.chain.Nodup)
    (above : ∀ name ∈ source.chain, name ≠ source.annotation →
      (context.model.annotationType? name).isSome)
    {chain : List String} (passed : step.chain? = some chain) :
    ProperChain context.model chain ∧ ∃ name, chain = source.chain ++ [name] := by
  cases taken with
  | defaults => cases passed
  | read => cases passed
  | @aliased member name found target _ listed named remapped written =>
    have own := Model.annotationType?_isSome_of_mem_aliasesOf listed
    have known : ∀ name ∈ source.chain, (context.model.annotationType? name).isSome := by
      intro name listed
      by_cases itself : name = source.annotation
      · exact itself ▸ own
      · exact above name listed itself
    cases written with
    | defaults => cases passed
    | alone => cases passed
    | grouped => cases passed
    | descend _ fresh =>
      cases passed
      exact ⟨.concat nodup known fresh, target.name, rfl⟩
    | expand _ fresh =>
      cases passed
      exact ⟨.concat nodup known fresh, target.name, rfl⟩

/-- Writing an occurrence without extensions starts no walk. -/
theorem ReplacementStep.chain?_of_empty (empty : context.registry = .empty) {declared : Bool}
    {placement : Placement} {name : String} {step : Step}
    (taken : ReplacementStep context declared placement name step) : step.chain? = none := by
  have unreplaced := not_replaces_of_empty empty name
  cases taken with
  | itself => rfl
  | returned registered => exact absurd registered unreplaced
  | expand registered => exact absurd registered unreplaced
  | descend registered => exact absurd registered unreplaced

/-- Every walk that a level goes on with has a longer proper chain. -/
theorem LevelStep.chain_of_empty (empty : context.registry = .empty) {descent : Descent}
    {step : Step} (taken : LevelStep context descent step)
    (proper : ProperChain context.model descent.chain) {chain : List String}
    (passed : step.chain? = some chain) :
    ProperChain context.model chain ∧
      ∃ added, added ≠ [] ∧ chain = descent.chain ++ added := by
  have ancestors : ∀ name ∈ descent.ancestors, (context.model.annotationType? name).isSome := by
    have known := proper.known
    rwa [Descent.chain, List.dropLast_concat] at known
  have whole : ∀ {occurrence : Annotation},
      occurrence ∈ context.model.occurrencesOn (.annotationType descent.owner) →
      ∀ name ∈ descent.chain, (context.model.annotationType? name).isSome := by
    intro occurrence carried name listed
    rcases List.mem_append.mp listed with above | last
    · exact ancestors name above
    · cases List.mem_singleton.mp last
      exact Model.annotationType?_isSome_of_mem_occurrencesOn carried
  have fresh : ∀ {occurrence : Annotation},
      isWalked context.config descent.chain descent.owner descent.excludes occurrence.name →
      occurrence.name ∉ descent.chain := by
    intro occurrence walked
    simp only [isWalked, Bool.and_eq_true, Bool.not_eq_true', List.contains_eq_mem,
      decide_eq_false_iff_not] at walked
    exact walked.1.1.1
  cases taken with
  | @read occurrence _ carried walked read =>
    have below := ProperChain.concat proper.nodup (whole carried) (fresh walked)
    obtain ⟨passedProper, name, same⟩ := read.chain_proper below.nodup (by
      intro name listed other
      rcases List.mem_append.mp listed with above | last
      · exact whole carried name above
      · exact absurd (List.mem_singleton.mp last) other) passed
    refine ⟨passedProper, [occurrence.name, name], by simp, ?_⟩
    rw [same]
    simp [Source.ofOccurrence]
  | mapped _ registered => exact absurd (mappers_of_empty empty _) registered
  | replaced _ _ replaced => rw [replaced.chain?_of_empty empty] at passed; cases passed
  | @descend occurrence carried walked =>
    cases passed
    exact ⟨.concat proper.nodup (whole carried) (fresh walked), [occurrence.name], by simp, rfl⟩
  | binding => cases passed

/-- The walks that the occurrences on an element start have proper chains. -/
theorem ElementStep.chain_of_empty (empty : context.registry = .empty) {element : Element}
    {declared : Bool} {annotations : List Annotation} {step : Step}
    (taken : ElementStep context element declared annotations step) {chain : List String}
    (passed : step.chain? = some chain) : ProperChain context.model chain := by
  cases taken with
  | warning => cases passed
  | read _ _ read =>
    refine (read.chain_proper ?_ ?_ passed).1
    · exact List.nodup_singleton _
    · intro name listed other
      exact absurd (List.mem_singleton.mp listed) other
  | mapped _ registered => exact absurd (mappers_of_empty empty _) registered
  | replaced _ _ replaced => rw [replaced.chain?_of_empty empty] at passed; cases passed
  | descend => cases passed; exact .single context.model _

theorem AdditionStep.chain_proper {given : Annotation} {step : Step}
    (taken : AdditionStep context given step) {chain : List String}
    (passed : step.chain? = some chain) : ProperChain context.model chain := by
  cases taken with
  | written => cases passed
  | defaults => cases passed
  | descend => cases passed; exact .single context.model _

/-! ## Everything that is walked -/

/-- A plan that some build or addition starts with. -/
inductive IsStart (context : Context) : Plan → Prop where
  | occurrences (element : Element) (declared aliases : Bool) (annotations : List Annotation) :
      IsStart context (occurrences context element declared aliases annotations)
  | addition (given : Annotation) : IsStart context (addition context given)

/-- The steps that are carried out for a plan, at any depth. -/
inductive Reached (context : Context) (plan : Plan) : Step → Prop where
  | planned {step : Step} (member : step ∈ plan) : Reached context plan step
  | deeper {descent : Descent} {step : Step} (reached : Reached context plan (.descend descent))
      (member : step ∈ level context descent) : Reached context plan step

theorem IsStart.chain_proper (empty : context.registry = .empty) {plan : Plan}
    (start : IsStart context plan) {step : Step} (planned : step ∈ plan) {chain : List String}
    (passed : step.chain? = some chain) : ProperChain context.model chain := by
  cases start with
  | occurrences element declared aliases annotations =>
    exact (elementStep_of_mem_occurrences planned).chain_of_empty empty passed
  | addition given => exact (additionStep_of_mem_addition planned).chain_proper passed

theorem IsStart.declaredAs {plan : Plan} (start : IsStart context plan) :
    ∃ declared, ∀ step ∈ plan, step.DeclaredAs declared := by
  cases start with
  | occurrences element declared aliases annotations =>
    exact ⟨declared, fun _ planned => (elementStep_of_mem_occurrences planned).declaredAs⟩
  | addition given =>
    exact ⟨true, fun _ planned => (additionStep_of_mem_addition planned).declaredAs⟩

/-- Without extensions, every chain that is passed down is proper. -/
theorem Reached.chain_proper (empty : context.registry = .empty) {plan : Plan}
    (start : IsStart context plan) {step : Step} (reached : Reached context plan step)
    {chain : List String} (passed : step.chain? = some chain) :
    ProperChain context.model chain := by
  induction reached generalizing chain with
  | planned member => exact start.chain_proper empty member passed
  | deeper _ member ih =>
    exact ((levelStep_of_mem_level member).chain_of_empty empty (ih rfl) passed).1

/-- Without extensions, a walk goes no deeper than the chain can grow. -/
theorem finished_of_le (empty : context.registry = .empty) {names : List String}
    (listed : ∀ name, (context.model.annotationType? name).isSome → name ∈ names) {levels : Nat}
    {descent : Descent} (proper : ProperChain context.model descent.chain)
    (enough : names.length + 2 ≤ levels + descent.chain.length) :
    Recording.unfinished ∉ stereotypes context levels descent := by
  induction levels generalizing descent with
  | zero =>
    have bound := proper.length_le listed
    omega
  | succ levels ih =>
    intro cut
    obtain ⟨below, planned, cut⟩ := unfinished_mem_stereotypes_succ_iff.mp cut
    obtain ⟨properBelow, added, longer, same⟩ :=
      (levelStep_of_mem_level planned).chain_of_empty empty proper rfl
    have grown : descent.chain.length < below.chain.length := by
      rw [same, List.length_append]
      have := List.length_pos_iff.mpr longer
      omega
    exact ih properBelow (by omega) cut

/-- Without extensions, a start is carried out completely within one level more
than there are known annotations. -/
theorem IsStart.finished_of_le (empty : context.registry = .empty) {names : List String}
    (listed : ∀ name, (context.model.annotationType? name).isSome → name ∈ names) {plan : Plan}
    (start : IsStart context plan) {levels : Nat} (enough : names.length + 1 ≤ levels) :
    Recording.unfinished ∉ Plan.carryOut context.config (stereotypes context levels) plan := by
  obtain ⟨declared, steps⟩ := start.declaredAs
  intro cut
  obtain ⟨descent, planned, cut⟩ := (unfinished_mem_carryOut_iff steps).mp cut
  have proper : ProperChain context.model descent.chain := start.chain_proper empty planned rfl
  have nonempty : 0 < descent.chain.length := by simp [Descent.chain]
  exact Walk.finished_of_le empty listed proper (by omega) cut

/-- Without extensions, the budget is enough for every start. -/
theorem IsStart.finished (empty : context.registry = .empty) {plan : Plan}
    (start : IsStart context plan) : Recording.unfinished ∉ carryOut context plan := by
  refine start.finished_of_le empty (fun _ => Model.mem_keys_of_annotationType?) ?_
  rw [Dict.keys, List.length_map]
  exact Nat.le_trans (Nat.le_succ _) (Nat.le_self_pow (by decide) _)

end Walk

end AnnotationMetadata
