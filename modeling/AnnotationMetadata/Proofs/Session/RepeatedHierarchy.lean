import AnnotationMetadata.Proofs.Session.Outcome
import AnnotationMetadata.Proofs.Store.Repeated

set_option autoImplicit false

/-!
# A hierarchy that is walked twice

An element that is built for itself as its parent has its hierarchy walked twice in a row. The
second walk finds everything recorded: what it sets was set to the same value last, what it
keeps is there, and what it adds to a group is listed if it agrees with itself. A scope is
promoted once, after both walks. The build comes to what one walk comes to.
-/

namespace AnnotationMetadata

variable {context : Context} {element : Element}

/-- What the walks of the elements add to groups agrees with itself. -/
def SelfAgreeingWalks (context : Context) (target : Element) (order : List Element) : Prop :=
  ∀ current ∈ order, Trace.SelfAgreeing (Walk.elementTrace context target true current)

theorem SelfAgreeingWalks.reverse {target : Element} {order : List Element}
    (own : SelfAgreeingWalks context target order) :
    SelfAgreeingWalks context target order.reverse :=
  fun current among => own current (List.mem_reverse.mp among)

theorem SelfAgreeingWalks.flatMap {target : Element} {order : List Element}
    (own : SelfAgreeingWalks context target order) :
    Trace.SelfAgreeing (order.flatMap (Walk.elementTrace context target true)) := by
  refine .of_forall fun write recorded => ?_
  obtain ⟨current, among, recorded⟩ := List.mem_flatMap.mp recorded
  exact (own current among).write recorded

private theorem hierarchyStore_twice {target : Element} {order : List Element}
    (own : SelfAgreeingWalks context target order) :
    hierarchyStore context target (order ++ order) = hierarchyStore context target order := by
  rw [hierarchyStore, List.flatMap_append, Store.recordAll_append,
    Store.recordAll_twice Walk.promoteScope_not_mem_flatMap .empty own.flatMap, hierarchyStore]

namespace ElementBuild

/-- The hierarchy of the element is listed once for the parent and once for itself. -/
theorem hierarchy_forParent_self (model : Model) :
    (forParent element).hierarchy model element =
      (overridden.hierarchy model element).map fun listed => listed ++ listed := by
  simp only [hierarchy, Walk.combinedHierarchy, parent?, options]
  cases model.hierarchy element false false <;> rfl

private theorem outcome_forParent_self
    (own : ∀ listed, overridden.hierarchy context.model element = .ok listed →
      (∀ current ∈ listed, context.model.abort? current = none) →
        SelfAgreeingWalks context element listed) :
    (forParent element).outcome context element = overridden.outcome context element := by
  rw [outcome, outcome, hierarchy_forParent_self]
  cases found : overridden.hierarchy context.model element with
  | error cause => rfl
  | ok listed =>
    simp only [Except.map, List.any_append, Bool.or_self, List.reverse_append]
    split
    · rfl
    · next unbroken =>
      have complete : ∀ current ∈ listed, context.model.abort? current = none := by
        simpa using unbroken
      rw [hierarchyStore_twice (own listed found complete).reverse]

end ElementBuild

/-! ## Walks that end -/

/-- The second walk comes to no elements that the first does not come to. -/
private theorem Model.untilBroken_twice (model : Model) (order : List Element) :
    model.untilBroken (order ++ order) ⊆ model.untilBroken order := by
  intro current among
  rw [untilBroken, List.takeWhile_append] at among
  split at among
  · next unbroken =>
    rw [untilBroken, (List.takeWhile_prefix _).eq_of_length unbroken]
    exact (List.mem_append.mp among).elim id fun again => model.untilBroken_subset _ again
  · exact among

private theorem Session.WalksEnd.of_sameSetting {session other : Session} {listed : List Element}
    (same : other.SameSetting session) (ends : session.WalksEnd element listed) :
    other.WalksEnd element listed where
  elements current among := by
    rw [Session.model, same.context]
    exact ends.elements current among
  validation := by
    rw [same.context, same.validator]
    exact ends.validation

private theorem ElementBuild.outcome_ne_unfinished {kind : ElementBuild} (name : String) :
    kind.outcome context element ≠ .error (.unfinished name) := by
  unfold outcome
  split
  · nofun
  · split <;> nofun

/-- An element for which nothing is registered is built for itself as its parent to the same
answer as on its own, though its hierarchy is walked twice into one store: the same failure,
the same empty metadata or the same store, with everything in the same order. What the walks
add to groups has to agree with itself, unless one breaks off. Neither answer depends on what
else the session was asked. Neither build is cut off where the walks end that it comes to, those
of the elements before the first that breaks off. -/
theorem build_for_itself {session other : Session} (same : other.SameSetting session)
    (unregistered : session.mutation? (session.model.declaringType element) element = none)
    (ends : ∀ listed, session.model.hierarchy element false false = .ok listed →
      session.WalksEnd element (session.model.untilBroken listed.reverse))
    (own : ∀ listed, session.model.hierarchy element false false = .ok listed →
      (∀ current ∈ listed, session.model.abort? current = none) →
        SelfAgreeingWalks session.context element listed) :
    (other.serve (.buildForParent element element)).1 =
        (session.serve (.buildOverridden element)).1 ∧
      ∀ name, (session.serve (.buildOverridden element)).1 ≠
        some (.error (.unfinished name)) := by
  have once : ∀ listed, ElementBuild.overridden.hierarchy session.model element = .ok listed →
      session.WalksEnd element (session.model.untilBroken listed.reverse) := by
    intro listed found
    rw [ElementBuild.hierarchy_of_parentless rfl] at found
    exact ends listed found
  have model : other.model = session.model := congrArg Context.model same.context
  have twice : ∀ listed, (ElementBuild.forParent element).hierarchy other.model element =
      .ok listed → other.WalksEnd element (other.model.untilBroken listed.reverse) := by
    intro listed found
    rw [ElementBuild.hierarchy_forParent_self, model] at found
    rw [model]
    cases own : ElementBuild.overridden.hierarchy session.model element with
    | error cause => cases (congrArg (Except.map _) own).symm.trans found
    | ok below =>
      cases (congrArg (Except.map _) own).symm.trans found
      rw [List.reverse_append]
      exact ((once below own).mono (session.model.untilBroken_twice _)).of_sameSetting same
  have unregisteredThere :
      other.mutation? (other.model.declaringType element) element = none := by
    rw [Session.mutation?, model, same.mutations]
    exact unregistered
  have answer := ElementBuild.serve_eq_outcome_of_walksEnd unregistered once
  have answerThere := ElementBuild.serve_eq_outcome_of_walksEnd unregisteredThere twice
  have ownThere : ∀ listed, ElementBuild.overridden.hierarchy session.context.model element =
      .ok listed → (∀ current ∈ listed, session.context.model.abort? current = none) →
        SelfAgreeingWalks session.context element listed := by
    intro listed found
    rw [ElementBuild.hierarchy_of_parentless rfl] at found
    exact own listed found
  rw [same.context, ElementBuild.outcome_forParent_self ownThere] at answerThere
  refine ⟨answerThere.trans answer.symm, fun name cut => ?_⟩
  exact ElementBuild.outcome_ne_unfinished name (Option.some.inj (answer.symm.trans cut))

/-- A class with a level and a tag. Its supertype has another level, and an extension sets the
group of tags there. -/
def groupedContext : Context where
  registry := .ofExtensions [.rename "old.Tags" "bean.Tags"]
  model :=
    { document :=
        { annotations :=
            [("bean.Tag",
                { container := some "bean.Tags", annotations := [{ name := "bean.Mark" }] }),
              ("bean.Level", {})]
          elements :=
            [("bean.Bean",
                { kind := .classType, supertypes := ["bean.Base"]
                  annotations := [level "high", { name := "bean.Tag" }] }),
              ("bean.Base",
                { kind := .classType
                  annotations :=
                    [level "low",
                      { name := "old.Tags"
                        members := [(Name.valueMember, .string "first")] }] })] } }
where
  level (value : String) : Annotation :=
    { name := "bean.Level", members := [(Name.valueMember, .string value)] }

theorem groupedContext_hierarchy :
    groupedContext.model.hierarchy (.declaration "bean.Bean") false false =
      .ok (["bean.Bean", "bean.Base"].map .declaration) :=
  Model.hierarchy_of_explored rfl rfl
    (.fresh (by decide) rfl (.fresh (by decide) rfl .done)) false

private theorem groupedContext_walksEnd :
    (Session.fresh groupedContext).WalksEnd (.declaration "bean.Bean")
      [.declaration "bean.Bean", .declaration "bean.Base"] where
  elements current listed := by
    simp only [List.mem_cons, List.not_mem_nil, or_false] at listed
    rcases listed with rfl | rfl
    · exact Walk.Plan.ends_of_uncut 3 (by decide)
    · exact Walk.Plan.ends_of_uncut 3 (by decide)
  validation := nofun

/-- The second walk sets the group again and adds to it again. -/
theorem groupedContext_built :
    ∃ metadata : Metadata,
      ((Session.fresh groupedContext).serve (.buildForParent (.declaration "bean.Bean")
        (.declaration "bean.Bean"))).1 = some (.ok metadata) ∧
      metadata.value? "bean.Level" Name.valueMember = some (.string "high") ∧
      metadata.value? "bean.Tags" Name.valueMember =
        some (.array [.string "first", .nested { name := "bean.Tag" }]) := by
  have ends : ∀ listed, groupedContext.model.hierarchy (.declaration "bean.Bean") false false =
      .ok listed → (Session.fresh groupedContext).WalksEnd (.declaration "bean.Bean")
        (groupedContext.model.untilBroken listed.reverse) := by
    intro listed found
    cases groupedContext_hierarchy.symm.trans found
    exact groupedContext_walksEnd.mono fun _ among =>
      List.mem_reverse.mp (groupedContext.model.untilBroken_subset _ among)
  have found : ElementBuild.overridden.hierarchy groupedContext.model (.declaration "bean.Bean") =
      .ok [.declaration "bean.Bean", .declaration "bean.Base"] :=
    (ElementBuild.hierarchy_of_parentless rfl).trans groupedContext_hierarchy
  have own : ∀ listed, groupedContext.model.hierarchy (.declaration "bean.Bean") false false =
      .ok listed → (∀ current ∈ listed, groupedContext.model.abort? current = none) →
        SelfAgreeingWalks groupedContext (.declaration "bean.Bean") listed := by
    intro listed found _
    cases groupedContext_hierarchy.symm.trans found
    unfold SelfAgreeingWalks
    decide +kernel
  have unregistered : (Session.fresh groupedContext).mutation?
      ((Session.fresh groupedContext).model.declaringType (.declaration "bean.Bean"))
      (.declaration "bean.Bean") = none := rfl
  have built := ElementBuild.serve_request unregistered .overridden
  rw [show (Session.fresh groupedContext).context = groupedContext from rfl,
    ElementBuild.walk_eq_elements found] at built
  have apart : Value.insertUnlisted [.string "first"] (.nested { name := "bean.Tag" }) =
      [.string "first", .nested { name := "bean.Tag" }] := if_neg (by decide +kernel)
  exact ⟨_, (build_for_itself (.refl _) unregistered ends own).1.trans built, rfl,
    congrArg (fun items => some (Value.array items)) apart⟩

/-- An occurrence that does not agree with itself is added to its group by each walk. -/
theorem numberlessContext_built :
    ∃ built overridden : Metadata,
      ((Session.fresh numberlessContext).serve (.buildForParent (.declaration "bean.field")
        (.declaration "bean.field"))).1 = some (.ok built) ∧
      ((Session.fresh numberlessContext).serve (.buildOverridden (.declaration "bean.field"))).1 =
        some (.ok overridden) ∧
      (built.occurrences "bean.Tag").length = 2 ∧
      (overridden.occurrences "bean.Tag").length = 1 :=
  ⟨_, _, rfl, rfl, by decide +kernel, by decide +kernel⟩

end AnnotationMetadata
