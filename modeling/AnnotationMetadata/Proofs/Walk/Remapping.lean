import AnnotationMetadata.Walk.Occurrence
import AnnotationMetadata.Walk.Replacement

set_option autoImplicit false

/-!
# What remappers make of an occurrence

Remappers are asked one after the other. The first one that declines keeps the
occurrence, later ones that decline add nothing. A remapper that declines is redundant
when another one keeps the occurrence before it, or when all others decline as well.
-/

namespace AnnotationMetadata

/-! ## Added remappers -/

def Remapping.decline : Remapping :=
  fun _ _ => .unchanged

/-- A list of remappers to which others were added that decline. -/
inductive WithDecliners (declines : Remapping → Prop) :
    List Remapping → List Remapping → Prop where
  | nil : WithDecliners declines [] []
  | own {remap : Remapping} {own all : List Remapping} (rest : WithDecliners declines own all) :
      WithDecliners declines (remap :: own) (remap :: all)
  | added {remap : Remapping} {own all : List Remapping} (declined : declines remap)
      (rest : WithDecliners declines own all) : WithDecliners declines own (remap :: all)

/-- What is added to the remappers is not the first to decline where they replace
something, nor where there are none and something else replaces it. -/
inductive Redundant (declines : Remapping → Prop) (unreplaced : Prop) :
    List Remapping → List Remapping → Prop where
  | none {own : List Remapping} : Redundant declines unreplaced own own
  | declined {own all : List Remapping} (declined : ∀ remap ∈ own, declines remap)
      (otherwise : own = [] → unreplaced) : Redundant declines unreplaced own all
  | settled {before own all : List Remapping} {remap : Remapping} (earlier : remap ∈ before)
      (declined : declines remap) :
      Redundant declines unreplaced (before ++ own) (before ++ all)

theorem Redundant.unreplaced {declines : Remapping → Prop} {unreplaced : Prop}
    {own all : List Remapping} (redundant : Redundant declines unreplaced own all)
    (none : own = []) (some : all ≠ []) : unreplaced := by
  cases redundant with
  | none => exact absurd none some
  | declined _ otherwise => exact otherwise none
  | settled earlier _ => rw [(List.append_eq_nil_iff.mp none).1] at earlier; cases earlier

namespace WithDecliners

variable {declines : Remapping → Prop} {own all : List Remapping}

theorem refl (declines : Remapping → Prop) (own : List Remapping) :
    WithDecliners declines own own := by
  induction own with
  | nil => exact .nil
  | cons remap rest ih => exact .own ih

theorem concat {remap : Remapping} (declined : declines remap)
    (added : WithDecliners declines own all) : WithDecliners declines own (all ++ [remap]) := by
  induction added with
  | nil => exact .added declined .nil
  | own _ ih => exact .own ih
  | added first _ ih => exact .added first ih

theorem ne_nil (added : WithDecliners declines own all) (some : own ≠ []) : all ≠ [] := by
  cases added with
  | nil => exact absurd rfl some
  | own => exact List.cons_ne_nil _ _
  | added => exact List.cons_ne_nil _ _

theorem all_decline (added : WithDecliners declines own all)
    (declined : ∀ remap ∈ own, declines remap) : ∀ remap ∈ all, declines remap := by
  induction added with
  | nil => exact declined
  | own _ ih =>
    have below := ih fun remap member => declined remap (List.mem_cons_of_mem _ member)
    intro remap member
    rcases List.mem_cons.mp member with rfl | later
    · exact declined remap List.mem_cons_self
    · exact below remap later
  | added first _ ih =>
    intro remap member
    rcases List.mem_cons.mp member with rfl | later
    · exact first
    · exact ih declined remap later

theorem any_eq (added : WithDecliners declines own all) {test : Remapping → Bool}
    (declined : ∀ remap, declines remap → test remap = false) : all.any test = own.any test := by
  induction added with
  | nil => rfl
  | own _ ih => rw [List.any_cons, List.any_cons, ih]
  | added first _ ih => rw [List.any_cons, declined _ first, Bool.false_or, ih]

end WithDecliners

namespace Walk

/-! ## Keeping an occurrence once -/

section KeepingOnce

variable {α : Type} (itself : List α) (keeps : Remapping → Bool) (output : Remapping → List α)

/-- What remappers put in place of something, with the thing itself in the place of the
first remapper that keeps it. -/
def keepingOnce (kept : Bool) : List Remapping → List α
  | [] => []
  | remap :: rest =>
    if keeps remap then (if kept then [] else itself) ++ keepingOnce true rest
    else output remap ++ keepingOnce kept rest

theorem keepingOnce_append (kept : Bool) (before after : List Remapping) :
    keepingOnce itself keeps output kept (before ++ after) =
      keepingOnce itself keeps output kept before ++
        keepingOnce itself keeps output (kept || before.any keeps) after := by
  induction before generalizing kept with
  | nil => simp [keepingOnce]
  | cons remap rest ih =>
    cases keep : keeps remap with
    | true => simp [keepingOnce, keep, ih]
    | false => simp [keepingOnce, keep, ih]

theorem keepingOnce_of_keeps {remappers : List Remapping} (some : remappers ≠ [])
    (kept : ∀ remap ∈ remappers, keeps remap = true) :
    keepingOnce itself keeps output false remappers = itself := by
  have later : ∀ rest : List Remapping, (∀ remap ∈ rest, keeps remap = true) →
      keepingOnce itself keeps output true rest = [] := by
    intro rest
    induction rest with
    | nil => exact fun _ => rfl
    | cons remap rest ih =>
      intro kept
      rw [keepingOnce, if_pos (kept remap List.mem_cons_self), if_pos rfl, List.nil_append]
      exact ih fun remap member => kept remap (List.mem_cons_of_mem _ member)
  obtain ⟨remap, rest, rfl⟩ := List.exists_cons_of_ne_nil some
  rw [keepingOnce, if_pos (kept remap List.mem_cons_self), later rest fun remap member =>
    kept remap (List.mem_cons_of_mem _ member)]
  simp

variable {itself keeps output} in
private theorem mem_keepingOnce {remap : Remapping} {kept : Bool} {remappers : List Remapping}
    (registered : remap ∈ remappers) (replaces : keeps remap = false) {item : α}
    (returned : item ∈ output remap) : item ∈ keepingOnce itself keeps output kept remappers := by
  obtain ⟨before, after, rfl⟩ := List.append_of_mem registered
  rw [keepingOnce_append, keepingOnce, replaces, if_neg Bool.false_ne_true]
  exact List.mem_append_right _ (List.mem_append_left _ returned)

variable {declines : Remapping → Prop} {own all : List Remapping}
  (keep : ∀ remap, declines remap → keeps remap = true)

include keep

/-- Once the thing is kept, those that decline add nothing. -/
private theorem keepingOnce_withDecliners (added : WithDecliners declines own all) :
    keepingOnce itself keeps output true all = keepingOnce itself keeps output true own := by
  induction added with
  | nil => rfl
  | own _ ih => rw [keepingOnce, keepingOnce, ih]
  | @added remap _ _ declined _ ih =>
    rw [keepingOnce, if_pos (keep remap declined), if_pos rfl, List.nil_append, ih]

theorem keepingOnce_redundant {unreplaced : Prop} (added : WithDecliners declines own all)
    (redundant : Redundant declines unreplaced own all) (some : own ≠ []) :
    keepingOnce itself keeps output false all = keepingOnce itself keeps output false own := by
  cases redundant with
  | none => rfl
  | declined declined _ =>
    rw [keepingOnce_of_keeps itself keeps output some
        (fun remap member => keep remap (declined remap member)),
      keepingOnce_of_keeps itself keeps output (added.ne_nil some)
        (fun remap member => keep remap (added.all_decline declined remap member))]
  | @settled before own all remap earlier declined =>
    have kept : before.any keeps = true :=
      List.any_eq_true.mpr ⟨remap, earlier, keep remap declined⟩
    -- What comes after a remapper that keeps the thing is the same with and without them,
    -- and the common part before it cancels.
    have same := keepingOnce_withDecliners itself keeps output keep added
    rw [keepingOnce_append, keepingOnce_append, Bool.true_or] at same
    rw [keepingOnce_append, keepingOnce_append, kept, Bool.false_or,
      List.append_cancel_left same]

end KeepingOnce

end Walk

/-! ## Outcomes -/

def Model.stored (model : Model) (name : String) (members : Members) : Annotation :=
  { name, members, retention := model.retentionOf name }

namespace Walk

/-- The annotations that take the place of the one that a remapper was asked about. -/
def returnedBy : RemapOutcome → List Annotation
  | .unchanged => []
  | .replaced annotations => annotations

/-- Whether a remapper keeps an occurrence. It does not when it declines but leaves no
container for it. -/
def keeps (model : Model) (occurrence : Annotation) (remap : Remapping) : Bool :=
  !isReplaced (remap model.visitorOptions occurrence) &&
    match model.containerOf? occurrence.name with
    | some container =>
      !(remappedContainers container
        (remap model.visitorOptions (groupOf container occurrence))).isEmpty
    | none => true

/-- What is written and walked for what a remapper returns. -/
def remapPlan (context : Context) (declared : Bool) (placement : Placement)
    (occurrence : Annotation) (remap : Remapping) : Plan :=
  let options := context.model.visitorOptions
  let returned := returnedBy (remap options occurrence)
  match context.model.containerOf? occurrence.name with
  | some container =>
    Plan.ofTrace
      ((remappedContainers container (remap options (groupOf container occurrence))).flatMap
        fun group => returned.map fun annotation =>
          placement.writeOccurrence declared group annotation)
  | none =>
    returned.flatMap fun annotation =>
      .record (placement.writeIn declared none annotation) ::
        ofReturned context declared placement.parents annotation

private theorem remapped_eq_keepingOnce {context : Context} {occurrence : Annotation}
    (ungrouped : context.model.containerOf? occurrence.name = none) (declared : Bool)
    (placement : Placement) (kept : Bool) (remappers : List Remapping) :
    remapped context declared placement occurrence kept
        (remappers.map fun remap => remap context.model.visitorOptions occurrence) =
      keepingOnce [.record (placement.writeIn declared none occurrence)]
        (keeps context.model occurrence) (remapPlan context declared placement occurrence) kept
        remappers := by
  induction remappers generalizing kept with
  | nil => rfl
  | cons remap rest ih =>
    cases outcome : remap context.model.visitorOptions occurrence with
    | unchanged => simp [remapped, keepingOnce, keeps, outcome, isReplaced, ungrouped, ih]
    | replaced annotations =>
      simp [remapped, keepingOnce, keeps, remapPlan, returnedBy, outcome, isReplaced, ungrouped, ih]

private theorem remappedInGroups_eq_keepingOnce {context : Context} {occurrence : Annotation}
    {container : String} (grouped : context.model.containerOf? occurrence.name = some container)
    (declared : Bool) (placement : Placement) (kept : Bool) (remappers : List Remapping) :
    Plan.ofTrace (remappedInGroups declared placement container occurrence kept
        (remappers.map fun remap =>
          (remappedContainers container
            (remap context.model.visitorOptions (groupOf container occurrence)),
            remap context.model.visitorOptions occurrence))) =
      keepingOnce [.record (placement.writeOccurrence declared container occurrence)]
        (keeps context.model occurrence) (remapPlan context declared placement occurrence) kept
        remappers := by
  induction remappers generalizing kept with
  | nil => rfl
  | cons remap rest ih =>
    have below := fun kept => ih kept
    simp only [Plan.ofTrace] at below ⊢
    cases outcome : remap context.model.visitorOptions occurrence with
    | unchanged =>
      cases groups : (remappedContainers container
          (remap context.model.visitorOptions (groupOf container occurrence))).isEmpty with
      | true =>
        simp [remappedInGroups, keepingOnce, keeps, remapPlan, returnedBy, outcome, isReplaced,
          grouped, groups, below, Plan.ofTrace]
      | false =>
        cases kept with
        | true =>
          simp [remappedInGroups, keepingOnce, keeps, outcome, isReplaced, grouped, groups, below]
        | false =>
          simp [remappedInGroups, keepingOnce, keeps, outcome, isReplaced, grouped, groups, below]
    | replaced annotations =>
      simp [remappedInGroups, keepingOnce, keeps, remapPlan, returnedBy, outcome, isReplaced,
        grouped, below, Plan.ofTrace]

theorem keepOnce_eq_keepingOnce {options : VisitorOptions} (itself : Annotation) (kept : Bool)
    (remappers : List Remapping) :
    remapTarget.keepOnce itself kept (remappers.map fun remap => remap options itself) =
      keepingOnce [itself] (fun remap => !isReplaced (remap options itself))
        (fun remap => returnedBy (remap options itself)) kept remappers := by
  induction remappers generalizing kept with
  | nil => rfl
  | cons remap rest ih =>
    cases outcome : remap options itself with
    | unchanged => simp [remapTarget.keepOnce, keepingOnce, outcome, isReplaced, ih]
    | replaced annotations =>
      simp [remapTarget.keepOnce, keepingOnce, outcome, isReplaced, returnedBy, ih]

/-- Where there are remappers, an occurrence is what they keep and return. -/
theorem replace_of_remappers {context : Context} {declared : Bool} {placement : Placement}
    {name : String} {members : Members} (some : context.registry.remappersFor name ≠ []) :
    replace context declared placement name members =
      ⟨keepingOnce
          [.record (placement.writeIn declared (context.model.containerOf? name)
            (context.model.stored name members))]
          (keeps context.model (context.model.stored name members))
          (remapPlan context declared placement (context.model.stored name members)) false
          (context.registry.remappersFor name),
        !(context.registry.remappersFor name).any fun remap =>
          isReplaced (remap context.model.visitorOptions (context.model.stored name members))⟩ := by
  obtain ⟨first, rest, remappers⟩ := List.exists_cons_of_ne_nil some
  simp only [replace, remappers]
  rw [← remappers]
  cases grouped : context.model.containerOf? name with
  | none =>
    simp only [List.any_map]
    congr 1
    exact remapped_eq_keepingOnce grouped declared placement false _
  | some container =>
    simp only [List.any_map]
    congr 1
    rw [List.zip_map']
    exact remappedInGroups_eq_keepingOnce grouped declared placement false _

theorem replace_kept {context : Context} {declared : Bool} {placement : Placement}
    {name : String} {members : Members} (transformers : context.registry.transformers name = [])
    (declined : ∀ remap ∈ context.registry.remappersFor name,
      remap context.model.visitorOptions (context.model.stored name members) = .unchanged) :
    (replace context declared placement name members).kept = true := by
  by_cases none : context.registry.remappersFor name = []
  · simp only [replace, none, transformers]
  · rw [replace_of_remappers none, Bool.not_eq_true']
    exact List.any_eq_false.mpr fun remap member => by simp [declined remap member, isReplaced]

theorem mem_replace_of_returned {context : Context} {declared : Bool} {placement : Placement}
    {name : String} {members : Members} {remap : Remapping} {annotations : List Annotation}
    {returned : Annotation} (single : context.model.containerOf? name = none)
    (registered : remap ∈ context.registry.remappersFor name)
    (outcome : remap context.model.visitorOptions (context.model.stored name members) =
      .replaced annotations)
    (listed : returned ∈ annotations) {step : Step}
    (planned : step ∈ ofReturned context declared placement.parents returned) :
    step ∈ (replace context declared placement name members).plan := by
  have named : (context.model.stored name members).name = name := rfl
  rw [replace_of_remappers (List.ne_nil_of_mem registered)]
  refine mem_keepingOnce registered ?_ ?_
  · simp [keeps, outcome, isReplaced]
  · simp only [remapPlan, named, single, outcome, returnedBy]
    exact List.mem_flatMap.mpr ⟨returned, listed, List.mem_cons_of_mem _ planned⟩

end Walk

end AnnotationMetadata
