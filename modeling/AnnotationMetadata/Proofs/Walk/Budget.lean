import AnnotationMetadata.Proofs.Walk.Chain
import AnnotationMetadata.Proofs.Walk.Similarity
import Mathlib.Data.Finset.Card
import Mathlib.Data.Finset.Image
import Mathlib.Data.Finset.Prod
import Mathlib.Data.List.Chain
import Mathlib.Tactic.Ring

set_option autoImplicit false

/-!
# The budget of walks

Extensions can make a walk go on for ever. A walk that ends, however many levels
it takes, ends within the budget: on its way down it never comes to a walk that
is similar to an earlier one, and there are fewer levels than the budget on which
no two walks are similar.
-/

namespace AnnotationMetadata.Walk

variable {context : Context}

/-! ## Ways down -/

/-- The walk of the first goes on with the walk of the second. -/
def Below (context : Context) (descent below : Descent) : Prop :=
  .descend below ∈ level context descent

theorem unfinished_mem_stereotypes_of_le {levels fewer : Nat} {descent : Descent}
    (cut : Recording.unfinished ∈ stereotypes context levels descent) (few : fewer ≤ levels) :
    Recording.unfinished ∈ stereotypes context fewer descent := by
  by_contra finished
  rw [stereotypes_eq_of_le finished few] at cut
  exact finished cut

private theorem unfinished_mem_stereotypes_of_similar {levels : Nat} {descent other : Descent}
    (similar : descent.Similar other)
    (cut : Recording.unfinished ∈ stereotypes context levels descent) :
    Recording.unfinished ∈ stereotypes context levels other := by
  induction levels generalizing descent other with
  | zero => exact List.mem_singleton_self _
  | succ levels ih =>
    obtain ⟨below, planned, cut⟩ := unfinished_mem_stereotypes_succ_iff.mp cut
    obtain ⟨found, planned, alike⟩ := level_covers similar.symm below planned
    exact unfinished_mem_stereotypes_succ_iff.mpr ⟨found, planned, ih alike cut⟩

/-- A way down that leads to a walk that is cut off is one level longer. -/
private theorem unfinished_mem_stereotypes_of_way {levels : Nat} {descent reached : Descent}
    {way : List Descent} (down : List.IsChain (Below context) (descent :: way))
    (member : reached ∈ way)
    (cut : Recording.unfinished ∈ stereotypes context levels reached) :
    Recording.unfinished ∈ stereotypes context (levels + 1) descent := by
  induction way generalizing descent with
  | nil => cases member
  | cons first rest ih =>
    obtain ⟨planned, further⟩ := List.isChain_cons_cons.mp down
    have cutFirst : Recording.unfinished ∈ stereotypes context levels first := by
      rcases List.mem_cons.mp member with same | later
      · exact same ▸ cut
      · exact unfinished_mem_stereotypes_of_le (ih further later) (Nat.le_succ levels)
    exact unfinished_mem_stereotypes_succ_iff.mpr ⟨first, planned, cutFirst⟩

/-- A walk that comes to a similar one never ends. -/
private theorem unfinished_mem_stereotypes_of_repeats {descent reached : Descent}
    {way : List Descent}
    (down : List.IsChain (Below context) (descent :: way)) (member : reached ∈ way)
    (similar : descent.Similar reached) (levels : Nat) :
    Recording.unfinished ∈ stereotypes context levels descent := by
  induction levels with
  | zero => exact List.mem_singleton_self _
  | succ levels ih =>
    exact unfinished_mem_stereotypes_of_way down member
      (unfinished_mem_stereotypes_of_similar similar ih)

/-- On the way down from a walk that ends, no two walks are similar. -/
private theorem pairwise_not_similar_of_finished {levels : Nat} {descent : Descent}
    {way : List Descent} (down : List.IsChain (Below context) (descent :: way))
    (finished : Recording.unfinished ∉ stereotypes context levels descent) :
    (descent :: way).Pairwise fun upper lower => ¬ upper.Similar lower := by
  induction way generalizing descent with
  | nil => exact List.pairwise_singleton _ _
  | cons first rest ih =>
    obtain ⟨planned, further⟩ := List.isChain_cons_cons.mp down
    refine List.pairwise_cons.mpr ⟨?_, ih further ?_⟩
    · intro reached member similar
      exact finished (unfinished_mem_stereotypes_of_repeats down member similar levels)
    · intro cut
      have longer : Recording.unfinished ∈ stereotypes context (levels + 1) descent :=
        unfinished_mem_stereotypes_succ_iff.mpr ⟨first, planned, cut⟩
      exact finished (unfinished_mem_stereotypes_of_le longer (Nat.le_succ levels))

/-! ## What is known on a way down -/

/-- The step that a walk goes on with. Either the chain above is kept, or the walk
starts over below at most one annotation. -/
structure GoesOn (context : Context) (descent below : Descent) : Prop where
  declared : below.declared = descent.declared
  excludes : below.excludes = []
  owner : (context.model.annotationType? descent.owner).isSome
  ancestors : ∀ name ∈ below.ancestors,
    name ∈ descent.chain ∨ (context.model.annotationType? name).isSome
  chain : descent.chain ⊆ below.ancestors ∨ below.ancestors.length ≤ 1

/-- What is walked from a member lies below the occurrence, which is of a known
type. -/
theorem ReadStep.ancestors_of_descend {source : Source} {below : Descent}
    (taken : ReadStep context source (.descend below)) :
    (context.model.annotationType? source.annotation).isSome ∧
      below.ancestors = source.chain ∧ below.excludes = [] := by
  cases taken with
  | aliased listed _ _ written =>
    cases written with
    | descend => exact ⟨Model.annotationType?_isSome_of_mem_aliasesOf listed, rfl, rfl⟩

/-- A mapper starts over below at most one annotation. -/
theorem MappedStep.ancestors_of_descend {originating : Element} {declared : Bool} {below : Descent}
    (taken : MappedStep context originating declared (.descend below)) :
    (∀ name ∈ below.ancestors, (context.model.annotationType? name).isSome) ∧
      below.ancestors.length ≤ 1 ∧ below.excludes = [] := by
  cases taken with
  | @read name _ known read =>
    obtain ⟨_, above, excludes⟩ := read.ancestors_of_descend
    rw [above]
    refine ⟨?_, Nat.le_refl 1, excludes⟩
    intro other member
    exact (List.mem_singleton.mp member) ▸ known
  | descend => exact ⟨fun _ none => absurd none List.not_mem_nil, Nat.zero_le 1, rfl⟩

theorem ReplacementStep.ancestors_of_descend {declared : Bool} {placement : Placement}
    {name : String} {below : Descent}
    (taken : ReplacementStep context declared placement name (.descend below)) :
    below.ancestors = placement.parents ∧ below.excludes = [] := by
  cases taken with
  | descend => exact ⟨rfl, rfl⟩

theorem LevelStep.goesOn {descent below : Descent}
    (taken : LevelStep context descent (.descend below)) : GoesOn context descent below := by
  have declared : below.declared = descent.declared := taken.declaredAs
  cases taken with
  | @read occurrence _ carried _ read =>
    obtain ⟨known, above, excludes⟩ := read.ancestors_of_descend
    refine ⟨declared, excludes, Model.annotationType?_isSome_of_mem_occurrencesOn carried, ?_, ?_⟩
    · intro name member
      rw [above] at member
      rcases List.mem_append.mp member with upper | last
      · exact .inl upper
      · exact .inr ((List.mem_singleton.mp last) ▸ known)
    · rw [above]
      exact .inl (List.subset_append_left _ _)
  | mapped carried _ mapped =>
    obtain ⟨known, short, excludes⟩ := mapped.ancestors_of_descend
    exact ⟨declared, excludes, Model.annotationType?_isSome_of_mem_occurrencesOn carried,
      fun name member => .inr (known name member), .inr short⟩
  | replaced carried _ replaced =>
    obtain ⟨above, excludes⟩ := replaced.ancestors_of_descend
    have above : below.ancestors = descent.chain := above
    refine ⟨declared, excludes, Model.annotationType?_isSome_of_mem_occurrencesOn carried, ?_, ?_⟩
    · intro name member
      exact .inl (above ▸ member)
    · rw [above]
      exact .inl (List.Subset.refl _)
  | descend carried =>
    exact ⟨declared, rfl, Model.annotationType?_isSome_of_mem_occurrencesOn carried,
      fun _ member => .inl member, .inl (List.Subset.refl _)⟩

theorem Below.goesOn {descent below : Descent} (planned : Below context descent below) :
    GoesOn context descent below :=
  (levelStep_of_mem_level planned).goesOn

/-- A walk below a start has at most one annotation above it, a known one. -/
private theorem IsStart.ancestors_known {plan : Plan} (start : IsStart context plan)
    {descent : Descent} (planned : .descend descent ∈ plan) :
    ∀ name ∈ descent.ancestors, (context.model.annotationType? name).isSome := by
  have none : ∀ {ancestors : List String}, ancestors = [] →
      ∀ name ∈ ancestors, (context.model.annotationType? name).isSome := by
    rintro _ rfl name member
    cases member
  cases start with
  | occurrences element declared aliases annotations =>
    cases elementStep_of_mem_occurrences planned with
    | read _ _ read =>
      obtain ⟨known, above, _⟩ := read.ancestors_of_descend
      intro name member
      rw [above] at member
      exact (List.mem_singleton.mp member) ▸ known
    | mapped _ _ mapped => exact mapped.ancestors_of_descend.1
    | replaced _ _ replaced => exact none replaced.ancestors_of_descend.1
    | descend => exact none rfl
  | addition given =>
    cases additionStep_of_mem_addition planned with
    | descend => exact none rfl

/-! ## Cut-off walks have long ways down -/

/-- Every annotation on the chain of the walk is known. -/
def Descent.Known (context : Context) (descent : Descent) : Prop :=
  ∀ name ∈ descent.chain, (context.model.annotationType? name).isSome

theorem Descent.Known.of_owner {descent : Descent}
    (ancestors : ∀ name ∈ descent.ancestors, (context.model.annotationType? name).isSome)
    (owner : (context.model.annotationType? descent.owner).isSome) : descent.Known context := by
  intro name member
  rcases List.mem_append.mp member with above | last
  · exact ancestors name above
  · exact (List.mem_singleton.mp last) ▸ owner

private theorem exists_way_of_unfinished {levels : Nat} {descent : Descent}
    (ancestors : ∀ name ∈ descent.ancestors, (context.model.annotationType? name).isSome)
    (cut : Recording.unfinished ∈ stereotypes context (levels + 1) descent) :
    ∃ way : List Descent, way.length = levels ∧
      List.IsChain (Below context) (descent :: way) ∧
      ∀ reached ∈ descent :: way, reached.Known context := by
  induction levels generalizing descent with
  | zero =>
    obtain ⟨below, planned, _⟩ := unfinished_mem_stereotypes_succ_iff.mp cut
    have goes : GoesOn context descent below := Below.goesOn planned
    refine ⟨[], rfl, .singleton _, ?_⟩
    intro reached member
    cases List.mem_singleton.mp member
    exact .of_owner ancestors goes.owner
  | succ levels ih =>
    obtain ⟨below, planned, cut⟩ := unfinished_mem_stereotypes_succ_iff.mp cut
    have goes : GoesOn context descent below := Below.goesOn planned
    have known : descent.Known context := .of_owner ancestors goes.owner
    have above : ∀ name ∈ below.ancestors, (context.model.annotationType? name).isSome :=
      fun name member => (goes.ancestors name member).elim (known name) id
    obtain ⟨way, length, down, all⟩ := ih above cut
    refine ⟨below :: way, by rw [List.length_cons, length], ?_, ?_⟩
    · exact List.isChain_cons_cons.mpr ⟨planned, down⟩
    · intro reached member
      rcases List.mem_cons.mp member with same | later
      · exact same ▸ known
      · exact all reached later

/-! ## Counting levels -/

/-- The known annotations. -/
def knownNames (context : Context) : Finset String :=
  (Dict.keys context.model.document.annotations).toFinset

/-- The chains that a walk can start over with. -/
def freshChains (context : Context) : Finset (List String) :=
  (knownNames context).image (fun owner => [owner]) ∪
    (knownNames context ×ˢ knownNames context).image fun names => [names.1, names.2]

private theorem card_knownNames_le (context : Context) :
    (knownNames context).card ≤ context.model.document.annotations.length := by
  have bound := (Dict.keys context.model.document.annotations).toFinset_card_le
  rwa [Dict.keys, List.length_map] at bound

private theorem card_freshChains_le (context : Context) :
    (freshChains context).card ≤
      (knownNames context).card + (knownNames context).card * (knownNames context).card := by
  refine (Finset.card_union_le _ _).trans (Nat.add_le_add Finset.card_image_le ?_)
  exact Finset.card_image_le.trans (Finset.card_product _ _).le

theorem Descent.Known.subset {descent : Descent} (known : descent.Known context) :
    descent.chain.toFinset ⊆ knownNames context := by
  intro name member
  exact List.mem_toFinset.mpr
    (Model.mem_keys_of_annotationType? (known name (List.mem_toFinset.mp member)))

theorem Descent.Known.owner_mem {descent : Descent} (known : descent.Known context) :
    descent.owner ∈ knownNames context :=
  known.subset (List.mem_toFinset.mpr (List.mem_append_right _ (List.mem_singleton_self _)))

private theorem Descent.Known.mem_freshChains {descent : Descent} (known : descent.Known context)
    (short : descent.ancestors.length ≤ 1) : descent.chain ∈ freshChains context := by
  have owner := known.owner_mem
  have subset := known.subset
  obtain ⟨ancestors, owned, declared, excludes⟩ := descent
  rcases ancestors with _ | ⟨above, _ | ⟨_, _⟩⟩
  · exact Finset.mem_union_left _ (Finset.mem_image.mpr ⟨owned, owner, rfl⟩)
  · have upper : above ∈ knownNames context := subset (by simp [Descent.chain])
    refine Finset.mem_union_right _ (Finset.mem_image.mpr ⟨(above, owned), ?_, rfl⟩)
    exact Finset.mem_product.mpr ⟨upper, owner⟩
  · simp at short

private theorem Descent.Similar.of_chain {descent other : Descent}
    (declared : descent.declared = other.declared) (excludes : descent.excludes = other.excludes)
    (same : descent.chain = other.chain) : descent.Similar other := by
  have last : descent.chain.getLast? = other.chain.getLast? := congrArg List.getLast? same
  simp only [Descent.chain, List.getLast?_append, List.getLast?_singleton, Option.some_or,
    Option.some.injEq] at last
  exact ⟨last, declared, excludes, fun name => by rw [same]⟩

private theorem Descent.Similar.of_toFinset {descent other : Descent}
    (declared : descent.declared = other.declared) (excludes : descent.excludes = other.excludes)
    (owner : descent.owner = other.owner)
    (same : descent.chain.toFinset = other.chain.toFinset) : descent.Similar other :=
  ⟨owner, declared, excludes, fun name => by
    rw [← List.mem_toFinset, same, List.mem_toFinset]⟩

/-- Everything on a way down is declared alike and leaves nothing out. -/
private theorem declared_of_way {descent : Descent} {way : List Descent}
    (down : List.IsChain (Below context) (descent :: way)) :
    ∀ reached ∈ way, reached.declared = descent.declared ∧ reached.excludes = [] := by
  induction way generalizing descent with
  | nil => intro reached none; cases none
  | cons first rest ih =>
    obtain ⟨planned, further⟩ := List.isChain_cons_cons.mp down
    have goes : GoesOn context descent first := Below.goesOn planned
    intro reached member
    rcases List.mem_cons.mp member with same | later
    · exact same ▸ ⟨goes.declared, goes.excludes⟩
    · obtain ⟨declared, excludes⟩ := ih further reached later
      exact ⟨declared.trans goes.declared, excludes⟩

/-- How far a walk can still be from its deepest level, from the number of known
annotations, of chains that it can still start over with, of names on its chain,
and of types that were walked under the names of this chain. -/
def levelsLeft (known chains names owners : Nat) : Nat :=
  chains * ((known + 1) * (known + 1)) + (known - names) * (known + 1) + (known - owners)

private theorem levelsLeft_chains {known chains names other owners : Nat} :
    levelsLeft known chains names 1 < levelsLeft known (chains + 1) other owners := by
  have few : (known - names) * (known + 1) ≤ known * (known + 1) :=
    Nat.mul_le_mul_right _ (Nat.sub_le known names)
  have square : (known + 1) * (known + 1) = known * (known + 1) + (known + 1) :=
    Nat.succ_mul known (known + 1)
  have unfolded : (chains + 1) * ((known + 1) * (known + 1)) =
      chains * ((known + 1) * (known + 1)) + (known + 1) * (known + 1) :=
    Nat.succ_mul chains _
  unfold levelsLeft
  omega

private theorem levelsLeft_names {known chains owners names more : Nat}
    (grown : names < more) (bound : more ≤ known) :
    levelsLeft known chains more 1 < levelsLeft known chains names owners := by
  have fewer : (known - more + 1) * (known + 1) ≤ (known - names) * (known + 1) :=
    Nat.mul_le_mul_right _ (by omega)
  rw [Nat.succ_mul] at fewer
  unfold levelsLeft
  omega

private theorem levelsLeft_owners {known chains names owners : Nat}
    (bound : owners < known) :
    levelsLeft known chains names (owners + 1) < levelsLeft known chains names owners := by
  unfold levelsLeft
  omega

/-- What was counted on a way down: the chains that walks started over with, and
the types walked under the names of the current chain. All of it is known, and
nothing ahead on the way repeats it. -/
structure Tally (context : Context) (descent : Descent) (way : List Descent)
    (startedOver : Finset (List String)) (owners : Finset String) : Prop where
  down : List.IsChain (Below context) (descent :: way)
  known : ∀ reached ∈ way, reached.Known context
  distinct : way.Pairwise fun upper lower => ¬ upper.Similar lower
  fresh : startedOver ⊆ freshChains context
  unlike : ∀ reached ∈ way, reached.chain ∉ startedOver
  owned : owners ⊆ knownNames context
  other : ∀ reached ∈ way, reached.chain.toFinset = descent.chain.toFinset →
    reached.owner ∉ owners

namespace Tally

variable {descent first : Descent} {rest : List Descent} {startedOver : Finset (List String)}
  {owners : Finset String} (tally : Tally context descent (first :: rest) startedOver owners)

include tally

theorem goesOn : GoesOn context descent first :=
  Below.goesOn (List.isChain_cons_cons.mp tally.down).1

theorem knownFirst : first.Known context :=
  tally.known first List.mem_cons_self

theorem alike : ∀ reached ∈ rest,
    first.declared = reached.declared ∧ first.excludes = reached.excludes := by
  intro reached member
  obtain ⟨declared, excludes⟩ :=
    declared_of_way (List.isChain_cons_cons.mp tally.down).2 reached member
  exact ⟨declared.symm, tally.goesOn.excludes.trans excludes.symm⟩

private theorem otherChain : ∀ reached ∈ rest, reached.chain ≠ first.chain := by
  intro reached member same
  obtain ⟨declared, excludes⟩ := tally.alike reached member
  exact (List.pairwise_cons.mp tally.distinct).1 reached member
    (.of_chain declared excludes same.symm)

theorem otherOwner : ∀ reached ∈ rest, reached.chain.toFinset = first.chain.toFinset →
    reached.owner ≠ first.owner := by
  intro reached member same owner
  obtain ⟨declared, excludes⟩ := tally.alike reached member
  exact (List.pairwise_cons.mp tally.distinct).1 reached member
    (.of_toFinset declared excludes owner.symm same.symm)

theorem goOn {startedOverBelow : Finset (List String)} {ownersBelow : Finset String}
    (fresh : startedOverBelow ⊆ freshChains context)
    (unlike : ∀ reached ∈ rest, reached.chain ∉ startedOverBelow)
    (owned : ownersBelow ⊆ knownNames context)
    (other : ∀ reached ∈ rest, reached.chain.toFinset = first.chain.toFinset →
      reached.owner ∉ ownersBelow) :
    Tally context first rest startedOverBelow ownersBelow where
  down := (List.isChain_cons_cons.mp tally.down).2
  known := fun reached member => tally.known reached (List.mem_cons_of_mem _ member)
  distinct := (List.pairwise_cons.mp tally.distinct).2
  fresh := fresh
  unlike := unlike
  owned := owned
  other := other

theorem otherSingle : ∀ reached ∈ rest, reached.chain.toFinset = first.chain.toFinset →
    reached.owner ∉ ({first.owner} : Finset String) :=
  fun reached member same owner =>
    tally.otherOwner reached member same (Finset.mem_singleton.mp owner)

theorem unlikeRest : ∀ reached ∈ rest, reached.chain ∉ startedOver :=
  fun reached member => tally.unlike reached (List.mem_cons_of_mem _ member)

/-- A walk that starts over counts its chain, and begins to count types. -/
theorem startOver (short : first.ancestors.length ≤ 1) :
    Tally context first rest (insert first.chain startedOver) {first.owner} := by
  have fits : first.chain ∈ freshChains context := tally.knownFirst.mem_freshChains short
  refine tally.goOn (Finset.insert_subset fits tally.fresh) ?_
    (Finset.singleton_subset_iff.mpr tally.knownFirst.owner_mem) tally.otherSingle
  intro reached member listed
  rcases Finset.mem_insert.mp listed with same | before
  · exact tally.otherChain reached member same
  · exact tally.unlikeRest reached member before

/-- With more names on the chain, types are counted anew. -/
theorem grow : Tally context first rest startedOver {first.owner} :=
  tally.goOn tally.fresh tally.unlikeRest
    (Finset.singleton_subset_iff.mpr tally.knownFirst.owner_mem) tally.otherSingle

/-- Under the same names another type is counted. -/
theorem sameNames (same : first.chain.toFinset = descent.chain.toFinset) :
    Tally context first rest startedOver (insert first.owner owners) := by
  refine tally.goOn tally.fresh tally.unlikeRest
    (Finset.insert_subset tally.knownFirst.owner_mem tally.owned) ?_
  intro reached member sameBelow listed
  rcases Finset.mem_insert.mp listed with owner | before
  · exact tally.otherOwner reached member sameBelow owner
  · exact tally.other reached (List.mem_cons_of_mem _ member) (sameBelow.trans same) before

private theorem card_startOver (short : first.ancestors.length ≤ 1) :
    (freshChains context).card - startedOver.card =
      (freshChains context).card - (insert first.chain startedOver).card + 1 := by
  have new : first.chain ∉ startedOver := tally.unlike first List.mem_cons_self
  have room : (insert first.chain startedOver).card ≤ (freshChains context).card :=
    Finset.card_le_card (tally.startOver short).fresh
  have count := Finset.card_insert_of_notMem new
  omega

private theorem card_sameNames (same : first.chain.toFinset = descent.chain.toFinset) :
    (insert first.owner owners).card = owners.card + 1 ∧
      owners.card < (knownNames context).card := by
  have new : first.owner ∉ owners := tally.other first List.mem_cons_self same
  have room : (insert first.owner owners).card ≤ (knownNames context).card :=
    Finset.card_le_card (tally.sameNames same).owned
  have count := Finset.card_insert_of_notMem new
  exact ⟨count, by omega⟩

/-- A walk that goes on from the one above keeps its names. -/
private theorem card_grow (long : ¬ first.ancestors.length ≤ 1)
    (other : first.chain.toFinset ≠ descent.chain.toFinset) :
    descent.chain.toFinset.card < first.chain.toFinset.card := by
  refine Finset.card_lt_card (Finset.ssubset_iff_subset_ne.mpr ⟨?_, other.symm⟩)
  intro name member
  have above := (tally.goesOn.chain.resolve_right long) (List.mem_toFinset.mp member)
  exact List.mem_toFinset.mpr (List.mem_append_left _ above)

end Tally

/-- Each time a walk starts over it does so with another chain; until then the
names on the chain only become more; and as long as they stay the same, each walk
is of another type. -/
theorem Tally.length_le {descent : Descent} {way : List Descent}
    {startedOver : Finset (List String)} {owners : Finset String}
    (tally : Tally context descent way startedOver owners) :
    way.length ≤
      levelsLeft (knownNames context).card ((freshChains context).card - startedOver.card)
        descent.chain.toFinset.card owners.card := by
  induction way generalizing descent startedOver owners with
  | nil => exact Nat.zero_le _
  | cons first rest ih =>
    rw [List.length_cons]
    by_cases short : first.ancestors.length ≤ 1
    · have shorter := ih (tally.startOver short)
      rw [Finset.card_singleton] at shorter
      rw [tally.card_startOver short]
      exact Nat.lt_of_le_of_lt shorter levelsLeft_chains
    · by_cases same : first.chain.toFinset = descent.chain.toFinset
      · obtain ⟨count, room⟩ := tally.card_sameNames same
        have shorter := ih (tally.sameNames same)
        rw [count, same] at shorter
        exact Nat.lt_of_le_of_lt shorter (levelsLeft_owners room)
      · have shorter := ih tally.grow
        rw [Finset.card_singleton] at shorter
        exact Nat.lt_of_le_of_lt shorter
          (levelsLeft_names (tally.card_grow short same)
            (Finset.card_le_card tally.knownFirst.subset))

/-! ## Enough levels -/

private theorem levelsLeft_lt_budget (context : Context) (names : Nat) :
    levelsLeft (knownNames context).card (freshChains context).card names 0 + 1 <
      budget context := by
  have known := card_knownNames_le context
  have chains := card_freshChains_le context
  generalize (knownNames context).card = count at known chains ⊢
  generalize (freshChains context).card = fresh at chains ⊢
  have cubed : fresh * ((count + 1) * (count + 1)) ≤ count * (count + 1) ^ 3 := by
    calc fresh * ((count + 1) * (count + 1))
        ≤ (count + count * count) * ((count + 1) * (count + 1)) := Nat.mul_le_mul_right _ chains
      _ = count * (count + 1) ^ 3 := by ring
  have few : (count - names) * (count + 1) ≤ count * (count + 1) :=
    Nat.mul_le_mul_right _ (Nat.sub_le count names)
  have square : count * (count + 1) + count + 1 ≤ (count + 1) ^ 3 := by
    calc count * (count + 1) + count + 1 = (count + 1) ^ 2 := by ring
      _ ≤ (count + 1) ^ 3 := Nat.pow_le_pow_right (Nat.succ_pos count) (by decide)
  have fourth : count * (count + 1) ^ 3 + (count + 1) ^ 3 = (count + 1) ^ 4 := by ring
  have more : (count + 1) ^ 4 < budget context :=
    Nat.pow_lt_pow_left (by omega) (by decide)
  unfold levelsLeft
  omega

/-- A walk that ends on some level, ends within the budget. -/
theorem finished_of_ends {descent : Descent}
    (ancestors : ∀ name ∈ descent.ancestors, (context.model.annotationType? name).isSome)
    {levels : Nat} (finished : Recording.unfinished ∉ stereotypes context levels descent) :
    Recording.unfinished ∉ stereotypes context (budget context) descent := by
  intro cut
  have enough := levelsLeft_lt_budget context descent.chain.toFinset.card
  obtain ⟨fewer, same⟩ : ∃ fewer, budget context = fewer + 1 :=
    Nat.exists_eq_succ_of_ne_zero (by omega)
  rw [same] at cut enough
  obtain ⟨way, length, down, known⟩ := exists_way_of_unfinished ancestors cut
  have distinct := (List.pairwise_cons.mp (pairwise_not_similar_of_finished down finished)).2
  have tally : Tally context descent way ∅ ∅ :=
    { down
      known := fun reached member => known reached (List.mem_cons_of_mem _ member)
      distinct
      fresh := Finset.empty_subset _
      unlike := fun _ _ => Finset.notMem_empty _
      owned := Finset.empty_subset _
      other := fun _ _ _ => Finset.notMem_empty _ }
  have bound := tally.length_le
  rw [Finset.card_empty, Finset.card_empty, Nat.sub_zero] at bound
  omega

/-- The plan is carried out completely within some number of levels. -/
def Plan.Ends (context : Context) (plan : Plan) : Prop :=
  ∃ levels, Recording.unfinished ∉
    Plan.carryOut context.config (stereotypes context levels) plan

def isCut : Recording → Bool
  | .unfinished => true
  | _ => false

theorem Plan.ends_of_uncut {plan : Plan} (levels : Nat)
    (uncut : (Plan.carryOut context.config (stereotypes context levels) plan).any
      isCut = false) : Plan.Ends context plan :=
  ⟨levels, fun recorded => Bool.false_ne_true
    (uncut.symm.trans (List.any_eq_true.mpr ⟨.unfinished, recorded, rfl⟩))⟩

/-- A start that ends, however many levels it takes, ends within the budget. -/
theorem IsStart.finished_of_ends {plan : Plan} (start : IsStart context plan)
    (ends : Plan.Ends context plan) : Recording.unfinished ∉ carryOut context plan := by
  obtain ⟨declared, steps⟩ := start.declaredAs
  obtain ⟨levels, finished⟩ := ends
  intro cut
  obtain ⟨descent, planned, cut⟩ := (unfinished_mem_carryOut_iff steps).mp cut
  have below : Recording.unfinished ∉ stereotypes context levels descent :=
    fun cut => finished ((unfinished_mem_carryOut_iff steps).mpr ⟨descent, planned, cut⟩)
  exact Walk.finished_of_ends (start.ancestors_known planned) below cut

theorem annotationMember_finished {owner member : String}
    (ends : Plan.Ends context (memberOccurrences context owner member)) :
    Recording.unfinished ∉ annotationMember context owner member := by
  intro cut
  rcases List.mem_append.mp cut with own | promoted
  · exact (IsStart.occurrences _ _ _ _).finished_of_ends ends own
  · cases List.mem_singleton.mp promoted

end AnnotationMetadata.Walk
