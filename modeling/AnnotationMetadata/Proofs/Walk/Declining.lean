import AnnotationMetadata.Proofs.Walk.Registry
import Mathlib.Data.List.Basic

set_option autoImplicit false

/-!
# Walks with more remappers

Remappers that are added and decline whatever they are asked about leave every walk as
it is, as long as they are redundant for each occurrence and each alias target.
-/

namespace AnnotationMetadata

/-! ## Declining -/

/-- The remapper declines an occurrence, and its container if it has one. -/
structure Declines (model : Model) (occurrence : Annotation) (remap : Remapping) : Prop where
  itself : remap model.visitorOptions occurrence = .unchanged
  group : ∀ container, model.containerOf? occurrence.name = some container →
    remap model.visitorOptions (Walk.groupOf container occurrence) = .unchanged

def DeclinesTarget (model : Model) (name : String) (remap : Remapping) : Prop :=
  remap model.visitorOptions { name } = .unchanged

/-- The registry has what the context has, and more remappers that decline everything
that they are asked about. -/
structure Context.AddsDecliners (context : Context) (given : List Annotation) (more : Registry) :
    Prop where
  mappers : ∀ name, more.mappers name = context.registry.mappers name
  transformers : ∀ name, more.transformers name = context.registry.transformers name
  occurrences : ∀ occurrence, Asked context given occurrence →
    WithDecliners (Declines context.model occurrence)
      (context.registry.remappersFor occurrence.name) (more.remappersFor occurrence.name)
  targets : ∀ name, AliasTarget context.model name →
    WithDecliners (DeclinesTarget context.model name)
      (context.registry.remappersFor name) (more.remappersFor name)

/-- Wherever the registry has more remappers, those of the context decline too, with no
transformer to fall back on, or one of them keeps the annotation first. -/
structure Context.AddsRedundant (context : Context) (given : List Annotation) (more : Registry) :
    Prop where
  occurrences : ∀ occurrence, Asked context given occurrence →
    Redundant (Declines context.model occurrence)
      (context.registry.transformers occurrence.name = [])
      (context.registry.remappersFor occurrence.name) (more.remappersFor occurrence.name)
  targets : ∀ name, AliasTarget context.model name →
    Redundant (DeclinesTarget context.model name) True
      (context.registry.remappersFor name) (more.remappersFor name)

/-! ## Registering -/

namespace Registry

theorem remappers_register (registry : Registry) {packageName : String} (named : packageName ≠ "")
    (remap : Remapping) (other : String) :
    (registry.register (.remapper packageName remap)).remappers other =
      if packageName = other then registry.remappers other ++ [remap]
      else registry.remappers other := by
  have key : (Extension.remapper packageName remap).key ≠ "" := named
  simp only [register, if_neg key, remappers, addTo, Dict.alter, Dict.get?_insert]
  split
  · next same => rw [same]; rfl
  · rfl

private theorem mappers_register (registry : Registry) (packageName : String) (remap : Remapping)
    (name : String) :
    (registry.register (.remapper packageName remap)).mappers name = registry.mappers name := by
  unfold register
  split <;> rfl

private theorem transformers_register (registry : Registry) (packageName : String)
    (remap : Remapping) (name : String) :
    (registry.register (.remapper packageName remap)).transformers name =
      registry.transformers name := by
  unfold register
  split <;> rfl

end Registry

section Register

variable {context : Context} {packageName : String} {remap : Remapping}
  (named : packageName ≠ "")
  (declines : ∀ options annotation, remap options annotation = .unchanged)

include named declines

theorem Context.addsDecliners_register (given : List Annotation) :
    context.AddsDecliners given (context.registry.register (.remapper packageName remap)) where
  mappers := context.registry.mappers_register packageName remap
  transformers := context.registry.transformers_register packageName remap
  occurrences := by
    intro occurrence _
    rw [Registry.remappersFor, Registry.remappersFor, Registry.remappers_register _ named]
    split
    · exact (WithDecliners.refl _ _).concat ⟨declines _ _, fun _ _ => declines _ _⟩
    · exact .refl _ _
  targets := by
    intro name _
    rw [Registry.remappersFor, Registry.remappersFor, Registry.remappers_register _ named]
    split
    · exact (WithDecliners.refl _ _).concat (declines _ _)
    · exact .refl _ _

omit declines in
/-- In a package without other remappers and without transformers, one that declines is
redundant. -/
theorem Context.addsRedundant_register (given : List Annotation)
    (unmoved : context.registry.remappers packageName = [])
    (unreplaced : ∀ name, Name.packageOf name = packageName →
      context.registry.transformers name = []) :
    context.AddsRedundant given (context.registry.register (.remapper packageName remap)) where
  occurrences := by
    intro occurrence _
    rw [Registry.remappersFor, Registry.remappersFor, Registry.remappers_register _ named]
    split
    · next same =>
      rw [← same, unmoved]
      exact .declined (fun _ member => nomatch member) fun _ => unreplaced _ same.symm
    · exact .none
  targets := by
    intro name _
    rw [Registry.remappersFor, Registry.remappersFor, Registry.remappers_register _ named]
    split
    · next same =>
      rw [← same, unmoved]
      exact .declined (fun _ member => nomatch member) fun _ => trivial
    · exact .none

end Register

theorem Declines.keeps {model : Model} {occurrence : Annotation} {remap : Remapping}
    (declined : Declines model occurrence remap) : Walk.keeps model occurrence remap = true := by
  cases grouped : model.containerOf? occurrence.name with
  | none => simp [Walk.keeps, Walk.isReplaced, declined.itself, grouped]
  | some container =>
    have group := declined.group container grouped
    simp [Walk.keeps, Walk.isReplaced, declined.itself, grouped, group, Walk.remappedContainers]

namespace Walk

variable {context : Context} {given : List Annotation} {more : Registry}

/-! ## Occurrences -/

theorem replace_of_declines {declared : Bool} {placement : Placement} {name : String}
    {members : Members}
    (declined : ∀ remap ∈ context.registry.remappersFor name,
      Declines context.model (context.model.stored name members) remap)
    (otherwise : context.registry.remappersFor name = [] →
      context.registry.transformers name = []) :
    replace context declared placement name members =
      ⟨[.record (placement.writeIn declared (context.model.containerOf? name)
        (context.model.stored name members))], true⟩ := by
  by_cases none : context.registry.remappersFor name = []
  · simp only [replace, none, otherwise none]
    rfl
  · have kept : ((context.registry.remappersFor name).any fun remap => isReplaced
        (remap context.model.visitorOptions (context.model.stored name members))) = false :=
      List.any_eq_false.mpr fun remap member => by
        simp [(declined remap member).itself, isReplaced]
    rw [replace_of_remappers none, kept,
      keepingOnce_of_keeps _ _ _ none fun remap member => (declined remap member).keeps]
    rfl

section Added

variable (adds : context.AddsDecliners given more) (redundant : context.AddsRedundant given more)

include adds redundant

private theorem replace_withRegistry {declared : Bool} {placement : Placement} {name : String}
    {members : Members} (asked : Asked context given (context.model.stored name members)) :
    replace (context.withRegistry more) declared placement name members =
      replace context declared placement name members := by
  have added := adds.occurrences _ asked
  have invisible := redundant.occurrences _ asked
  by_cases none : context.registry.remappersFor name = []
  · by_cases still : more.remappersFor name = []
    · have transformers : more.transformers = context.registry.transformers :=
        funext adds.transformers
      simp only [replace, transformedContainers, Context.withRegistry, still, none, transformers]
      cases context.registry.transformers name <;> rfl
    · -- The added ones would be asked instead of the transformers.
      have unreplaced : context.registry.transformers name = [] := invisible.unreplaced none still
      have declined : ∀ remap ∈ context.registry.remappersFor name,
          Declines context.model (context.model.stored name members) remap := by
        simp [none]
      exact (replace_of_declines (added.all_decline declined) fun empty => absurd empty still).trans
        (replace_of_declines declined fun _ => unreplaced).symm
  · have some : (context.withRegistry more).registry.remappersFor name ≠ [] := added.ne_nil none
    rw [replace_of_remappers none, replace_of_remappers some]
    have plans := keepingOnce_redundant
      [.record (placement.writeIn declared (context.model.containerOf? name)
        (context.model.stored name members))]
      (keeps context.model (context.model.stored name members))
      (remapPlan context declared placement (context.model.stored name members))
      (fun _ declined => declined.keeps) added invisible none
    have dispositions : ((more.remappersFor name).any fun remap => isReplaced
        (remap context.model.visitorOptions (context.model.stored name members))) =
        (context.registry.remappersFor name).any fun remap => isReplaced
          (remap context.model.visitorOptions (context.model.stored name members)) :=
      added.any_eq fun remap declined => by rw [declined.itself]; rfl
    exact (Replacement.mk.injEq ..).mpr ⟨plans, congrArg not dispositions⟩

/-! ## Members -/

private theorem remapTarget_withRegistry {target : String}
    (named : AliasTarget context.model target) :
    remapTarget (context.withRegistry more) target = remapTarget context target := by
  have added := adds.targets target named
  have invisible := redundant.targets target named
  have keep : ∀ remap, DeclinesTarget context.model target remap →
      (!isReplaced (remap context.model.visitorOptions { name := target })) = true :=
    fun remap declined => by rw [declined]; rfl
  have asked : ∀ registry : Registry, registry.remappersFor target ≠ [] →
      remapTarget (context.withRegistry registry) target =
        keepingOnce [{ name := target }]
          (fun remap => !isReplaced (remap context.model.visitorOptions { name := target }))
          (fun remap => returnedBy (remap context.model.visitorOptions { name := target })) false
          (registry.remappersFor target) := by
    intro registry some
    obtain ⟨first, rest, remappers⟩ := List.exists_cons_of_ne_nil some
    rw [← keepOnce_eq_keepingOnce]
    simp only [remapTarget, Context.withRegistry, remappers]
  have own := asked context.registry
  by_cases none : context.registry.remappersFor target = []
  · have itself : remapTarget context target = [{ name := target }] := by
      simp only [remapTarget, none]
    rw [itself]
    by_cases still : more.remappersFor target = []
    · simp only [remapTarget, Context.withRegistry, still]
    · have declined : ∀ remap ∈ context.registry.remappersFor target,
          DeclinesTarget context.model target remap := by
        simp [none]
      rw [asked more still, keepingOnce_of_keeps _ _ _ still fun remap member =>
        keep remap (added.all_decline declined remap member)]
  · rw [asked more (added.ne_nil none), keepingOnce_redundant _ _ _ keep added invisible none]
    exact (own none).symm

end Added

end Walk

theorem Context.AddsDecliners.treatsAlike {context : Context} {given : List Annotation}
    {more : Registry} (adds : context.AddsDecliners given more)
    (redundant : context.AddsRedundant given more) : context.TreatsAlike given more where
  mappers _ occurrence _ := adds.mappers occurrence.name
  replace asked _ _ := Walk.replace_withRegistry adds redundant asked
  targets _ named := Walk.remapTarget_withRegistry adds redundant named

end AnnotationMetadata
