import AnnotationMetadata.Proofs.Model.Unfolding
import AnnotationMetadata.Proofs.Walk.Invariants
import AnnotationMetadata.Proofs.Walk.MetaGraph
import AnnotationMetadata.Proofs.Walk.OwnAliases

set_option autoImplicit false

/-!
# Two walks of the same meta-annotations

Meta-annotations are walked where they are declared, and where an annotation brings them
along. An unfolded annotation brings along what its type declares. Both walks then write the
same, as long as reading changes nothing; only defaults come from declarations alone.
-/

namespace AnnotationMetadata

/-- Occurrences of the annotation type stand for themselves and are read as they are written,
and so are its meta-annotations. -/
structure Model.PlainType (model : Model) (name : String) : Prop where
  ungrouped : model.containerOf? name = none
  groupless : model.isContainer name = false
  unaliased : ∀ member, model.aliasesOf (.member name member) = []
  uninstantiated : ∀ member,
    model.hasAnnotation (.member name member) Name.instantiatedMember = false
  distinct : ∀ written ∈ model.writtenOn (.annotationType name),
    (Dict.keys written.members).Nodup
  resolved : ∀ written ∈ model.writtenOn (.annotationType name),
    ∀ entry ∈ written.members, model.resolve entry.2 = entry.2

/-- All types that can be reached by meta-annotations are plain. -/
def Model.PlainFrom (model : Model) (root : String) : Prop :=
  ∀ name, Relation.ReflTransGen model.Bears root name → model.PlainType name

private theorem Model.plainFrom_of_memberless {model : Model}
    (memberless : ∀ entry ∈ model.document.annotations, entry.2.members = [])
    (ungrouped : ∀ entry ∈ model.document.annotations, entry.2.container = none)
    (distinct : ∀ entry ∈ model.document.annotations, ∀ written ∈ entry.2.annotations,
      (Dict.keys written.members).Nodup)
    (resolved : ∀ entry ∈ model.document.annotations, ∀ written ∈ entry.2.annotations,
      ∀ member ∈ written.members, model.resolve member.2 = member.2)
    (root : String) : model.PlainFrom root := by
  intro name _
  have unwritten : ∀ member, model.writtenOn (.member name member) = [] := by
    intro member
    cases known : model.annotationType? name with
    | none => simp [writtenOn, memberDeclaration?, known]
    | some declaration =>
      have none : declaration.members = [] := memberless _ (Dict.mem_of_get?_eq_some known)
      simp [writtenOn, memberDeclaration?, known, none, Dict.get?]
  constructor
  · unfold containerOf?
    cases known : model.annotationType? name with
    | none => rfl
    | some declaration => exact ungrouped _ (Dict.mem_of_get?_eq_some known)
  · refine List.any_eq_false.mpr fun entry declared => ?_
    rw [ungrouped entry declared]
    simp
  · exact (unaliased_of_memberless memberless).aliasesOf_eq_nil name
  · intro member
    unfold hasAnnotation
    rw [occurrencesOn, unwritten]
    rfl
  · intro written carried
    obtain ⟨declaration, known, listed⟩ := exists_declaration_of_written carried
    exact distinct _ (Dict.mem_of_get?_eq_some known) written listed
  · intro written carried
    obtain ⟨declaration, known, listed⟩ := exists_declaration_of_written carried
    exact resolved _ (Dict.mem_of_get?_eq_some known) written listed

variable {context : Context}

/-! ## Reading -/

namespace Walk

private theorem members_foldl_readEntry {source : Source} {written : Members}
    (unaliased : ∀ member, context.model.aliasesOf (.member source.annotation member) = [])
    (uninstantiated : ∀ member, context.model.hasAnnotation (.member source.annotation member)
      Name.instantiatedMember = false)
    (resolved : ∀ entry ∈ written, context.model.resolve entry.2 = entry.2) {progress : Progress}
    (distinct : (Dict.keys (progress.members ++ written)).Nodup) :
    (written.foldl (readEntry context source true) progress).members =
      progress.members ++ written := by
  induction written generalizing progress with
  | nil => rw [List.append_nil, List.foldl_nil]
  | cons entry rest ih =>
    have missing : Dict.contains progress.members entry.1 = false := by
      rw [← Bool.not_eq_true, Dict.contains_iff]
      intro present
      rw [Dict.keys, List.map_append, List.map_cons] at distinct
      exact (List.nodup_append.mp distinct).2.2 _ present _ List.mem_cons_self rfl
    have first : (readEntry context source true progress entry).members =
        progress.members ++ [entry] := by
      rw [readEntry, if_pos rfl, markInstantiated_eq_self (uninstantiated _), readAliased,
        unaliased, List.foldl_nil, readOwn, missing, if_neg Bool.false_ne_true,
        resolved entry List.mem_cons_self]
    have appended : progress.members ++ entry :: rest = progress.members ++ [entry] ++ rest := by
      rw [List.append_assoc, List.singleton_append]
    rw [appended] at distinct ⊢
    rw [← first] at distinct ⊢
    exact ih (fun later listed => resolved later (List.mem_cons_of_mem _ listed)) distinct

end Walk

/-- A meta-annotation is read as it is written. -/
theorem Model.PlainType.reading_members {model : Model} {owner : String}
    (own : model.PlainType owner) {written : Annotation}
    (carried : written ∈ model.writtenOn (.annotationType owner))
    (plain : model.PlainType written.name) :
    (model.reading true written).members = written.members := by
  unfold Model.reading Walk.readMembers
  exact Walk.members_foldl_readEntry plain.unaliased plain.uninstantiated
    (own.resolved written carried) (own.distinct written carried)

namespace Walk

/-! ## One level -/

/-- The meta-annotations of a type that a walk takes in, as they are written. -/
def walkedMetas (context : Context) (chain : List String) (owner : String) : List Annotation :=
  (context.model.metasOf owner).filter fun found =>
    isWalked context.config chain owner [] found.name

/-- What one level writes itself, given what is written below. -/
def levelWrites (chain : List String) (owner : String) (declared : Bool)
    (walked : List Annotation) (below : Annotation → Trace) : Trace :=
  (walked.filter fun found => found.name != Name.interceptorBinding).map (fun found =>
      (Placement.stereotype chain).write declared found.name found.members found.retention) ++
    walked.flatMap below ++
    bindingTrace declared owner (walked.map fun found => (found.name, found.members))

private theorem inlineAll_eq (config : Config) (declared : Bool) (chain : List String)
    (owner : String) (stereotypes : List Annotation) :
    inlineAll config declared chain owner stereotypes =
      (stereotypes.filter fun stereotype =>
        isWalked config chain owner [] stereotype.name).flatMap (inline config declared chain) := by
  induction stereotypes with
  | nil => rfl
  | cons stereotype rest ih =>
    rw [inlineAll, ih, List.filter_cons]
    split <;> rfl

/-- What an annotation brings along is walked as its parts without what they bring along, and
then these. -/
private theorem inline_eq (declared : Bool) (ancestors : List String) {given : Annotation}
    (along : given.stereotypes.map Annotation.alone = context.model.metasOf given.name)
    {below : Annotation → Trace}
    (parts : ∀ stereotype ∈ given.stereotypes,
      isWalked context.config (ancestors ++ [given.name]) given.name [] stereotype.name = true →
        inline context.config declared (ancestors ++ [given.name]) stereotype =
          below stereotype.alone) :
    inline context.config declared ancestors given =
      levelWrites (ancestors ++ [given.name]) given.name declared
        (walkedMetas context (ancestors ++ [given.name]) given.name) below := by
  obtain ⟨name, members, retention, stereotypes⟩ := given
  dsimp only at along parts ⊢
  have metas : walkedMetas context (ancestors ++ [name]) name =
      (stereotypes.filter fun stereotype =>
        isWalked context.config (ancestors ++ [name]) name [] stereotype.name).map
          Annotation.alone := by
    rw [walkedMetas, ← along, List.filter_map]
    rfl
  rw [inline, inlineAll_eq, levelWrites, metas, List.filter_map, List.map_map, List.map_map,
    List.flatMap_map]
  congr 2
  refine List.flatMap_congr fun stereotype listed => ?_
  obtain ⟨present, walked⟩ := List.mem_filter.mp listed
  exact parts stereotype present walked

section Level

variable {descent : Descent}

theorem occurrencesOn_of_plain {owner : String}
    (plain : ∀ name, context.model.Bears owner name → context.model.PlainType name) :
    context.model.occurrencesOn (.annotationType owner) =
      context.model.writtenOn (.annotationType owner) := by
  have single : ∀ written ∈ context.model.writtenOn (.annotationType owner),
      context.model.unwrap written = [written] := by
    intro written carried
    rw [Model.unwrap, (plain written.name ⟨written, carried, rfl⟩).groupless,
      if_neg Bool.false_ne_true]
  rw [Model.occurrencesOn, List.flatMap_congr single, List.flatMap_singleton']

/-- The meta-annotations that are walked, as they are written. -/
def takenIn (context : Context) (descent : Descent) : List Annotation :=
  (context.model.writtenOn (.annotationType descent.owner)).filter fun written =>
    isWalked context.config descent.chain descent.owner descent.excludes written.name

theorem walkedMetas_eq (excludes : descent.excludes = []) :
    walkedMetas context descent.chain descent.owner =
      (takenIn context descent).map fun written =>
        { name := written.name, members := written.members
          retention := context.model.retentionOf written.name } := by
  rw [walkedMetas, Model.metasOf, List.filter_map, takenIn, excludes]
  rfl

/-- A plain occurrence is written as it stands, unless it is a binding. -/
private theorem filter_readMeta (empty : context.registry = .empty) {owner : String}
    (own : context.model.PlainType owner) {written : Annotation}
    (carried : written ∈ context.model.writtenOn (.annotationType owner))
    (plain : context.model.PlainType written.name) (declared : Bool) (chain : List String)
    (walk : Descent → Trace) :
    (Plan.carryOut context.config walk
        (readMeta context declared chain owner written).plan).filter Recording.enters =
      if written.name != Name.interceptorBinding then
        [(Placement.stereotype chain).write declared written.name written.members
          (context.model.retentionOf written.name)]
      else [] := by
  have read : (Plan.carryOut context.config walk
      (populate context (.annotationType owner) declared true chain written).plan).filter
        Recording.enters = [] := by
    refine List.filter_eq_nil_iff.mpr fun recording recorded => ?_
    obtain ⟨step, planned, recorded⟩ := List.mem_flatMap.mp recorded
    rcases step_of_mem_populate planned with taken | ⟨registered, _⟩
    · cases taken with
      | defaults => cases List.mem_singleton.mp recorded; exact Bool.false_ne_true
      | read => cases List.mem_singleton.mp recorded; exact Bool.false_ne_true
      | @aliased member _ _ _ _ listed =>
        have none : context.model.aliasesOf (.member written.name member) = [] :=
          plain.unaliased member
        exact absurd (none ▸ listed) List.not_mem_nil
    · exact absurd (mappers_of_empty empty _) registered
  simp only [readMeta, populate_mapped_of_empty empty, replace_of_empty empty, Bool.or_false,
    plain.ungrouped, populate_members, own.reading_members carried plain, decide_eq_true_eq]
  by_cases binding : written.name = Name.interceptorBinding
  · rw [if_pos binding, read, binding]
    rfl
  · rw [if_neg binding, Plan.carryOut, List.flatMap_append, List.filter_append]
    refine (congrArg (· ++ _) read).trans ?_
    simp [binding, Step.carryOut, Placement.writeIn, Placement.write, Recording.enters,
      Store.Write.key?]

variable (plain : ∀ name, context.model.Bears descent.owner name → context.model.PlainType name)

include plain

theorem readMetas_of_plain :
    readMetas context descent =
      (takenIn context descent).map
        (readMeta context descent.declared descent.chain descent.owner) := by
  rw [readMetas, occurrencesOn_of_plain plain, takenIn]

private theorem filter_descents (empty : context.registry = .empty)
    (excludes : descent.excludes = []) (walk : Descent → Trace) :
    (Plan.carryOut context.config walk
        (((readMetas context descent).filter MetaReading.kept).map fun reading =>
          .descend { ancestors := descent.chain, owner := reading.name
                     declared := descent.declared })).filter Recording.enters =
      (walkedMetas context descent.chain descent.owner).flatMap fun found =>
        (walk { ancestors := descent.chain, owner := found.name
                declared := descent.declared }).filter Recording.enters := by
  have kept : (readMetas context descent).filter MetaReading.kept = readMetas context descent := by
    refine List.filter_eq_self.mpr fun reading listed => ?_
    obtain ⟨written, _, _, rfl⟩ := mem_readMetas_iff.mp listed
    exact (readMeta_of_empty empty _ _ _ written).2.2
  rw [kept, readMetas_of_plain plain, walkedMetas_eq excludes, Plan.carryOut, List.map_map,
    List.flatMap_map, List.flatMap_map, List.filter_flatMap]
  refine List.flatMap_congr fun written _ => ?_
  rw [Function.comp_apply, readMeta_name]
  rfl

variable (own : context.model.PlainType descent.owner)

include own

private theorem readNames_of_plain (excludes : descent.excludes = []) :
    readNames context descent =
      (walkedMetas context descent.chain descent.owner).map fun found =>
        (found.name, found.members) := by
  rw [readNames, occurrencesOn_of_plain plain, walkedMetas_eq excludes, List.map_map, takenIn]
  refine List.map_congr_left fun written listed => ?_
  have carried := (List.mem_filter.mp listed).1
  rw [own.reading_members carried (plain written.name ⟨written, carried, rfl⟩)]
  rfl

variable (empty : context.registry = .empty)

include empty

private theorem filter_plans (excludes : descent.excludes = []) (walk : Descent → Trace) :
    (Plan.carryOut context.config walk
        ((readMetas context descent).flatMap MetaReading.plan)).filter Recording.enters =
      ((walkedMetas context descent.chain descent.owner).filter fun found =>
        found.name != Name.interceptorBinding).map fun found =>
          (Placement.stereotype descent.chain).write descent.declared found.name found.members
            found.retention := by
  have each : ∀ written ∈ takenIn context descent,
      (Plan.carryOut context.config walk (readMeta context descent.declared descent.chain
        descent.owner written).plan).filter Recording.enters =
          if written.name != Name.interceptorBinding then
            [(Placement.stereotype descent.chain).write descent.declared written.name
              written.members (context.model.retentionOf written.name)]
          else [] := by
    intro written listed
    have carried := (List.mem_filter.mp listed).1
    exact filter_readMeta empty own carried (plain written.name ⟨written, carried, rfl⟩) _ _ walk
  rw [readMetas_of_plain plain, walkedMetas_eq excludes, List.filter_map, List.map_map,
    Plan.carryOut, List.flatMap_assoc, List.filter_flatMap, List.flatMap_map]
  refine (List.flatMap_congr each).trans ?_
  rw [flatMap_if_eq_map_filter]
  rfl

/-- A level of plain types writes their meta-annotations and what is written below them. -/
private theorem filter_level (excludes : descent.excludes = []) (walk : Descent → Trace) :
    (Plan.carryOut context.config walk (level context descent)).filter Recording.enters =
      levelWrites descent.chain descent.owner descent.declared
        (walkedMetas context descent.chain descent.owner) fun found =>
          (walk { ancestors := descent.chain, owner := found.name
                  declared := descent.declared }).filter Recording.enters := by
  have binds : ∀ metas, (Plan.carryOut context.config walk (Plan.ofTrace
      (bindingTrace descent.declared descent.owner metas))).filter Recording.enters =
        bindingTrace descent.declared descent.owner metas := by
    intro metas
    rw [Plan.carryOut, Plan.ofTrace, List.flatMap_map]
    refine (congrArg _ (List.flatMap_singleton' _)).trans (List.filter_eq_self.mpr ?_)
    intro recording recorded
    obtain ⟨binding, rfl⟩ := exists_of_mem_bindingTrace recorded
    rfl
  rw [level, Plan.carryOut, List.flatMap_append, List.flatMap_append, List.filter_append,
    List.filter_append, levelWrites, ← readNames_of_plain plain own excludes,
    ← readMetas_map empty]
  exact congrArg₂ (· ++ ·) (congrArg₂ (· ++ ·) (filter_plans plain own empty excludes walk)
    (filter_descents plain empty excludes walk)) (binds _)

end Level

/-! ## All levels -/

private theorem filter_inline (declared : Bool) (ancestors : List String) (given : Annotation) :
    (inline context.config declared ancestors given).filter Recording.enters =
      inline context.config declared ancestors given := by
  refine List.filter_eq_self.mpr fun recording recorded => ?_
  cases ofInline_of_mem_inline given recorded with
  | stereotype => rfl
  | binding => rfl

/-- By induction on the unfolded annotation: both walks take in the same on each level. -/
private theorem filter_stereotypes (empty : context.registry = .empty) {given : Annotation}
    (unfolds : context.model.Unfolds given) (plain : context.model.PlainFrom given.name)
    {levels : Nat} {ancestors : List String} {declared : Bool}
    (finished : Recording.unfinished ∉
      stereotypes context levels { ancestors, owner := given.name, declared }) :
    (stereotypes context levels { ancestors, owner := given.name, declared }).filter
        Recording.enters =
      inline context.config declared ancestors given := by
  induction unfolds generalizing levels ancestors with
  | @intro given along _ ih =>
    cases levels with
    | zero => exact absurd (List.mem_singleton_self _) finished
    | succ levels =>
      have bears : ∀ stereotype ∈ given.stereotypes,
          context.model.Bears given.name stereotype.name := by
        intro stereotype listed
        have present : stereotype.alone ∈ context.model.metasOf given.name :=
          along ▸ List.mem_map_of_mem listed
        obtain ⟨written, carried, same⟩ := List.mem_map.mp present
        exact ⟨written, carried, show _ = stereotype.alone.name from same ▸ rfl⟩
      have metas : ∀ name, context.model.Bears given.name name → context.model.PlainType name :=
        fun name bears => plain name (.single bears)
      rw [stereotypes, filter_level metas (plain given.name .refl) empty rfl, inline_eq _ _ along]
      · rfl
      · intro stereotype listed walked
        have born := bears stereotype listed
        have follows : WalkedMeta context given.name stereotype.name := by
          obtain ⟨written, carried, same⟩ := born
          rw [← occurrencesOn_of_plain metas] at carried
          exact same ▸ walkedMeta_of_isWalked carried (same ▸ walked)
        refine (ih stereotype listed (fun name reached => plain name (.head born reached))
          fun cut => finished (unfinished_mem_stereotypes_succ_iff.mpr ⟨_, ?_, cut⟩)).symm
        exact mem_level_of_walkedMeta empty rfl follows (fresh_of_isWalked walked).1

/-- By induction on the levels that the meta-annotations go down. -/
private theorem finished_of_shallow (empty : context.registry = .empty) {levels : Nat}
    {root : String}
    (shallow : context.model.Shallow levels root) (plain : context.model.PlainFrom root)
    {descent : Descent} (owner : descent.owner = root) :
    Recording.unfinished ∉ stereotypes context levels descent := by
  induction shallow generalizing descent with
  | @intro levels root _ ih =>
    subst owner
    intro cut
    obtain ⟨below, planned, cut⟩ := unfinished_mem_stereotypes_succ_iff.mp cut
    have metas : ∀ name, context.model.Bears descent.owner name → context.model.PlainType name :=
      fun name bears => plain name (.single bears)
    have bears : ∀ occurrence ∈ context.model.occurrencesOn (.annotationType descent.owner),
        context.model.Bears descent.owner occurrence.name := by
      intro occurrence carried
      rw [occurrencesOn_of_plain metas] at carried
      exact ⟨occurrence, carried, rfl⟩
    cases levelStep_of_mem_level planned with
    | @read occurrence _ carried _ taken =>
      cases taken with
      | @aliased member _ _ _ _ listed =>
        have none : context.model.aliasesOf (.member occurrence.name member) = [] :=
          (metas _ (bears occurrence carried)).unaliased member
        exact absurd (none ▸ listed) List.not_mem_nil
    | mapped _ registered => exact absurd (mappers_of_empty empty _) registered
    | replaced _ _ replaced =>
      obtain ⟨_, same⟩ := replaced.eq_itself empty
      cases same
    | @descend occurrence carried _ =>
      have born := bears occurrence carried
      exact ih occurrence.name born (fun name reached => plain name (.head born reached)) rfl cut

/-- The budget is enough for meta-annotations that do not go round in a circle. -/
private theorem finished_of_acyclic (empty : context.registry = .empty) {root : String}
    (acyclic : context.model.AcyclicFrom root) (plain : context.model.PlainFrom root)
    {descent : Descent} (owner : descent.owner = root) :
    Recording.unfinished ∉ stereotypes context (budget context) descent := by
  have finished := finished_of_shallow empty acyclic.shallow plain owner
  rw [stereotypes_eq_of_le finished]
  · exact finished
  · exact Nat.le_trans (Nat.le_succ _) (Nat.le_self_pow (by decide) _)

end Walk

/-! ## Stores -/

/-- The meta-annotations that an annotation type declares have an unfolding, if they do not go
round in a circle. The walk of what an unfolded annotation brings along and the walk of the
type record the same in a store, up to defaults. -/
theorem store_of_unfolded (empty : context.registry = .empty) {root : String}
    (acyclic : context.model.AcyclicFrom root) (plain : context.model.PlainFrom root) :
    (∀ members retention, ∃ stereotypes,
      context.model.Unfolds ⟨root, members, retention, stereotypes⟩) ∧
    ∀ given, given.name = root → context.model.Unfolds given →
      ∀ (parents : List String) (store : Store) (declared : Bool),
        (store.recordAll
          (Walk.carryOut context [.expand declared parents given])).withDefaults [] =
        (store.recordAll (Walk.carryOut context
          [.descend { ancestors := parents, owner := root, declared }])).withDefaults [] ∧
        Recording.unfinished ∉ Walk.carryOut context
          [.descend { ancestors := parents, owner := root, declared }] := by
  refine ⟨acyclic.shallow.exists_unfolding, ?_⟩
  rintro given rfl unfolds parents store declared
  have expanded : Walk.carryOut context [.expand declared parents given] =
      Walk.inline context.config declared parents given := List.append_nil _
  have descended : Walk.carryOut context
      [.descend { ancestors := parents, owner := given.name, declared }] =
        Walk.stereotypes context (Walk.budget context)
          { ancestors := parents, owner := given.name, declared } := List.append_nil _
  have finished : .unfinished ∉ Walk.stereotypes context (Walk.budget context)
      { ancestors := parents, owner := given.name, declared } :=
    Walk.finished_of_acyclic empty acyclic plain rfl
  rw [expanded, descended]
  refine ⟨?_, finished⟩
  rw [Store.withDefaults_recordAll, Store.withDefaults_recordAll,
    Walk.filter_stereotypes empty unfolds plain finished, Walk.filter_inline]
  · intro promoted
    cases Walk.ofMeta_of_mem_stereotypes empty promoted
  · intro promoted
    cases Walk.ofInline_of_mem_inline given promoted

/-- A bound annotation type. One of its meta-annotations carries another one. -/
def timedContext : Context where
  model :=
    { document :=
        { annotations :=
            [("bean.Timed", { annotations := [binding, timer, level "high"] }),
              ("bean.Level", { retention := .source, annotations := [{ name := "bean.Mark" }] }),
              ("bean.Mark", {}), (Name.interceptorBinding, {}), (Name.interceptorType, {})] } }
where
  binding : Annotation :=
    { name := Name.interceptorBinding, members := [(Name.kindMember, .string "METHOD")] }
  timer : Annotation :=
    { name := Name.interceptorType
      members := [(Name.valueMember, .classRef { name := "bean.Timer" })] }
  level (value : String) : Annotation :=
    { name := "bean.Level", members := [(Name.valueMember, .string value)] }
  /-- The bound annotation with everything brought along. -/
  timed : Annotation :=
    { name := "bean.Timed"
      stereotypes :=
        [binding, timer,
          { level "high" with retention := .source, stereotypes := [{ name := "bean.Mark" }] }] }

private theorem timedContext_plainFrom (root : String) : timedContext.model.PlainFrom root := by
  refine Model.plainFrom_of_memberless (by decide) (by decide) (by decide) ?_ root
  intro entry declared written carried
  simp only [timedContext, List.mem_cons, List.not_mem_nil, or_false] at declared
  rcases declared with rfl | rfl | rfl | rfl | rfl <;>
    simp only [List.mem_cons, List.not_mem_nil, or_false] at carried
  · rcases carried with rfl | rfl | rfl <;> intro member held <;> cases List.mem_singleton.mp held
    all_goals rfl
  · cases carried
    exact fun _ none => nomatch none

private theorem timedContext_unfolds : timedContext.model.Unfolds timedContext.timed := by
  constructor
  · rfl
  · intro stereotype listed
    simp only [timedContext.timed, List.mem_cons, List.not_mem_nil, or_false] at listed
    rcases listed with rfl | rfl | rfl
    · exact .of_bare rfl rfl
    · exact .of_bare rfl rfl
    · constructor
      · rfl
      · intro mark listed
        cases List.mem_singleton.mp listed
        exact .of_bare rfl rfl

/-- What a step records in a new store. -/
def timedStore (step : Walk.Step) : Store :=
  Store.empty.recordAll (Walk.carryOut timedContext [step])

/-- What is walked below another annotation is the same either way, the binding included. -/
theorem timedStore_agrees :
    (timedStore (.expand true ["bean.Outer"] timedContext.timed)).withDefaults [] =
      (timedStore (.descend { ancestors := ["bean.Outer"], owner := "bean.Timed"
                              declared := true })).withDefaults [] ∧
    (timedStore (.expand true ["bean.Outer"] timedContext.timed)).declaredStereotypeNames =
      [Name.interceptorType, "bean.Level", "bean.Mark"] ∧
    (timedStore (.expand true ["bean.Outer"] timedContext.timed)).declaredAnnotationNames =
      [Name.interceptorBindings] := by
  have acyclic : timedContext.model.AcyclicFrom "bean.Timed" :=
    Model.acyclicFrom_of_rank
      (fun name => if name = "bean.Timed" then 2 else if name = "bean.Level" then 1 else 0)
      (by decide) _
  have empty : timedContext.registry = .empty := rfl
  obtain ⟨_, agree⟩ := store_of_unfolded empty acyclic (timedContext_plainFrom _)
  exact ⟨(agree _ rfl timedContext_unfolds ["bean.Outer"] .empty true).1, rfl, rfl⟩

end AnnotationMetadata
