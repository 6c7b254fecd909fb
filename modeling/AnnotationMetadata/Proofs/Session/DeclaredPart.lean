import AnnotationMetadata.Proofs.Model.Inheritance
import AnnotationMetadata.Proofs.Store.Members
import AnnotationMetadata.Proofs.Walk.Hierarchy
import AnnotationMetadata.Session.Run

set_option autoImplicit false

/-!
# The declared part of builds

Builds that read a hierarchy hold the same as declared as the build that reads
the element alone. What the rest of the hierarchy records is inherited. The element
is walked again if the hierarchy of a given parent holds it; repeating its changes
makes no difference unless a group gets an occurrence that does not agree with itself.
-/

namespace AnnotationMetadata

/-- Only the target makes something of the items, each time that it is listed. -/
theorem flatMap_eq_replicate {α β : Type} [DecidableEq α] {items : List α} {wanted : α}
    {f : α → List β} (others : ∀ item ∈ items, item ≠ wanted → f item = []) :
    items.flatMap f = (List.replicate (items.count wanted) (f wanted)).flatten := by
  induction items with
  | nil => rfl
  | cons item rest ih =>
    rw [List.flatMap_cons, ih fun later listed => others later (List.mem_cons_of_mem _ listed)]
    by_cases same : item = wanted
    · rw [same, List.count_cons_self, List.replicate_succ, List.flatten_cons]
    · rw [others item List.mem_cons_self same, List.nil_append, List.count_cons_of_ne same]

namespace Walk

/-- What the walk of an element changes in a declared table. -/
def declaredChanges (context : Context) (target : Element) (aliases : Bool)
    (changed : Store.Write → Option (Bool × Store.TableChange)) : List Store.TableChange :=
  (elementTrace context target aliases target).flatMap (Recording.changes true changed)

variable {context : Context} {target : Element} {aliases : Bool}
  {changed : Store.Write → Option (Bool × Store.TableChange)}

/-- A declared table is changed by the element itself alone, each time that the
hierarchy lists it. -/
theorem changes_of_hierarchy
    (inherited : ∀ recording : Recording, recording.DeclaredAs false →
      recording.changes true changed = [])
    (hierarchy : List Element) :
    (hierarchy.flatMap (elementTrace context target aliases)).flatMap
        (Recording.changes true changed) =
      (List.replicate (hierarchy.count target)
        (declaredChanges context target aliases changed)).flatten := by
  rw [List.flatMap_assoc]
  refine flatMap_eq_replicate fun current _ different => ?_
  refine List.flatMap_eq_nil_iff.mpr fun recording recorded => ?_
  have other : (current == target) = false := beq_eq_false_iff_ne.mpr different
  rw [elementTrace, other] at recorded
  rcases declaredAs_of_mem_occurrences recorded with cut | declared
  · rw [cut]
    rfl
  · exact inherited recording declared

theorem selfAgreeing_declaredChanges
    (own : Trace.SelfAgreeing (elementTrace context target aliases target)) :
    Store.SelfAgreeing (declaredChanges context target aliases Store.Write.stereotype?) ∧
      Store.SelfAgreeing (declaredChanges context target aliases Store.Write.annotation?) :=
  ⟨own.changes Store.Write.selfAgreeing_stereotype? true,
    own.changes Store.Write.selfAgreeing_annotation? true⟩

/-- What the walks of a hierarchy leave as declared comes from its target. Where the target is
walked more than once, its occurrences in groups have to agree with themselves. -/
theorem declared_of_hierarchy {order : List Element} (listed : target ∈ order)
    (own : 1 < order.count target →
      Trace.SelfAgreeing (elementTrace context target aliases target)) :
    (Store.empty.recordAll
        (order.flatMap (elementTrace context target aliases))).declaredStereotypes =
        Store.changeTable [] (declaredChanges context target aliases Store.Write.stereotype?) ∧
      (Store.empty.recordAll
        (order.flatMap (elementTrace context target aliases))).declaredAnnotations =
        Store.changeTable [] (declaredChanges context target aliases Store.Write.annotation?) := by
  obtain ⟨times, count⟩ : ∃ times, order.count target = times + 1 :=
    Nat.exists_eq_succ_of_ne_zero (Nat.ne_of_gt (List.count_pos_iff.mpr listed))
  have agreeing : 0 < times → Trace.SelfAgreeing (elementTrace context target aliases target) :=
    fun again => own (by omega)
  have unpromoted : Recording.promoteScope ∉
      order.flatMap (elementTrace context target aliases) := promoteScope_not_mem_flatMap
  have stereotypes := recordAll_changeTable (fun store write => (store.write_stereotypes write).2)
    unpromoted .empty
  have annotations := recordAll_changeTable (fun store write => (store.write_annotations write).2)
    unpromoted .empty
  rw [changes_of_hierarchy (fun _ inherited => inherited.changes_eq_nil.2), count] at stereotypes
  rw [changes_of_hierarchy (fun _ inherited => inherited.changes_eq_nil.1), count] at annotations
  rw [stereotypes, annotations]
  exact ⟨Store.changeTable_replicate fun again => (selfAgreeing_declaredChanges (agreeing again)).1,
    Store.changeTable_replicate fun again => (selfAgreeing_declaredChanges (agreeing again)).2⟩

theorem declared_of_distinct (context : Context) {target : Element} (aliases : Bool)
    {order : List Element} (listed : target ∈ order) (distinct : order.Nodup) :
    (Store.empty.recordAll
        (order.flatMap (elementTrace context target aliases))).declaredStereotypes =
        Store.changeTable [] (declaredChanges context target aliases Store.Write.stereotype?) ∧
      (Store.empty.recordAll
        (order.flatMap (elementTrace context target aliases))).declaredAnnotations =
        Store.changeTable [] (declaredChanges context target aliases Store.Write.annotation?) := by
  refine declared_of_hierarchy listed fun again => ?_
  have once := List.nodup_iff_count_le_one.mp distinct target
  omega

/-- What a complete walk of an element leaves as declared. -/
theorem declared_of_element {parent : Option Element} {options : BuildOptions}
    (complete : (element context parent target options).failure = none)
    (own : ∀ hierarchy, combinedHierarchy context.model parent target options = .ok hierarchy →
      1 < hierarchy.count target →
        Trace.SelfAgreeing (elementTrace context target options.aliases target)) :
    (Store.empty.recordAll (element context parent target options).trace).declaredStereotypes =
        Store.changeTable []
          (declaredChanges context target options.aliases Store.Write.stereotype?) ∧
      ∃ added,
        (Store.empty.recordAll (element context parent target options).trace).declaredAnnotations =
          Store.changeTable []
              (declaredChanges context target options.aliases Store.Write.annotation?) ++
            Store.promotion added := by
  obtain ⟨hierarchy, combined, trace⟩ := element_trace complete
  have listed : target ∈ hierarchy.reverse := List.mem_reverse.mpr (mem_combinedHierarchy combined)
  obtain ⟨stereotypes, annotations⟩ := declared_of_hierarchy listed fun again =>
    own hierarchy combined (by rwa [List.count_reverse] at again)
  have promoted : Store.empty.recordAll (element context parent target options).trace =
      (Store.empty.recordAll (hierarchy.reverse.flatMap
        (elementTrace context target options.aliases))).promoteDefaultScope := by
    rw [trace, Store.recordAll_append]
    rfl
  rw [promoted, Store.promoteDefaultScope_declaredStereotypes, stereotypes]
  obtain ⟨added, same⟩ := Store.promoteDefaultScope_declaredAnnotations
    (Store.empty.recordAll (hierarchy.reverse.flatMap
      (elementTrace context target options.aliases)))
  exact ⟨rfl, added, by rw [same, annotations]⟩

end Walk

/-- A known defect of the host compiler ended the walk. -/
def ElementWalk.HasDefect (walk : ElementWalk) : Prop :=
  ∃ reason, walk.failure = some (.environmentDefect reason)

namespace Session

/-- A walk that is answered with metadata and met no defect is complete. -/
theorem conclude_eq_ok {session : Session} {element : Element} {seed : Store}
    {walk : ElementWalk} {metadata : Metadata}
    (built : (session.conclude element seed walk).1 = .ok metadata)
    (readable : ¬ walk.HasDefect) :
    walk.failure = none ∧ metadata = .ofStore (seed.recordAll walk.trace) := by
  simp only [conclude] at built
  split at built
  · cases built
  · split at built
    · next complete => exact ⟨complete, (Except.ok.inj built).symm⟩
    · next reason defect => exact absurd ⟨reason, defect⟩ readable
    · cases built

end Session

/-! ## Builds of an element -/

/-- The builds of an element, with the parent that one of them is given. -/
inductive ElementBuild where
  | declared
  | all
  | overridden
  | forMethod
  | forParent (parent : Element)

namespace ElementBuild

def request (element : Element) : ElementBuild → Request
  | .declared => .buildDeclared element
  | .all => .build element
  | .overridden => .buildOverridden element
  | .forMethod => .buildForMethod element
  | .forParent parent => .buildForParent parent element

def parent? : ElementBuild → Option Element
  | .forParent parent => some parent
  | _ => none

def options : ElementBuild → BuildOptions
  | .declared => { inheritTypes := true, declaredOnly := true, aliases := true }
  | .all => { inheritTypes := true, aliases := true }
  | _ => { aliases := true }

/-- What the build walks unless metadata is registered for the element. -/
def walk (context : Context) (element : Element) (kind : ElementBuild) : ElementWalk :=
  Walk.element context kind.parent? element kind.options

/-- The hierarchy of the parent that the build is given holds the element itself. -/
def WalksTwice (model : Model) (element : Element) (kind : ElementBuild) : Prop :=
  ∃ parent listed, kind = .forParent parent ∧
    model.hierarchy parent false false = .ok listed ∧ element ∈ listed

theorem not_walksTwice {model : Model} {element : Element} {kind : ElementBuild}
    (alone : kind.parent? = none) : ¬ kind.WalksTwice model element := by
  rintro ⟨parent, listed, rfl, _⟩
  cases alone

theorem walksTwice_of_count {model : Model} {element : Element} {kind : ElementBuild}
    {hierarchy : List Element}
    (combined : Walk.combinedHierarchy model kind.parent? element kind.options = .ok hierarchy)
    (again : 1 < hierarchy.count element) : kind.WalksTwice model element := by
  unfold Walk.combinedHierarchy at combined
  obtain ⟨own, found, combined⟩ := Model.exists_of_bind_eq_ok combined
  have once : own.count element ≤ 1 :=
    List.nodup_iff_count_le_one.mp (Model.nodup_of_hierarchy found) element
  cases given : kind.parent? with
  | none =>
    rw [given] at combined
    cases combined
    omega
  | some parent =>
    rw [given] at combined
    obtain ⟨inherited, above, combined⟩ := Model.exists_of_bind_eq_ok combined
    cases combined
    rw [List.count_append] at again
    have listed : element ∈ inherited := List.count_pos_iff.mp (by omega)
    cases kind with
    | forParent parent =>
      cases given
      exact ⟨parent, inherited, rfl, above, listed⟩
    | _ => cases given

theorem serve_request {session : Session} {element : Element}
    (unregistered : session.mutation? (session.model.declaringType element) element = none)
    (kind : ElementBuild) :
    (session.serve (kind.request element)).1 =
      some (session.conclude element .empty (kind.walk session.context element)).1 := by
  have fresh : ∀ options,
      session.buildUnlessMutated (session.model.declaringType element) element options =
        session.buildFresh none element .empty options := by
    intro options
    rw [Session.buildUnlessMutated, unregistered]
  cases kind with
  | declared => rfl
  | all => exact congrArg (some ∘ Prod.fst) (fresh _)
  | overridden => exact congrArg (some ∘ Prod.fst) (fresh _)
  | forMethod => exact congrArg (some ∘ Prod.fst) (fresh _)
  | forParent parent =>
    simp only [request, Session.serve, Session.answered, Session.buildForParent,
      Session.buildForParentWith, unregistered]
    rfl

/-- What an answered build holds as declared comes from the element itself. -/
theorem declared_of_serve {session : Session} {element : Element}
    (unregistered : session.mutation? (session.model.declaringType element) element = none)
    {kind : ElementBuild} {metadata : Metadata}
    (built : (session.serve (kind.request element)).1 = some (.ok metadata))
    (readable : ¬ (kind.walk session.context element).HasDefect)
    (own : kind.WalksTwice session.model element →
      Trace.SelfAgreeing (Walk.elementTrace session.context element true element)) :
    metadata.declaredStereotypes =
        Store.changeTable []
          (Walk.declaredChanges session.context element true Store.Write.stereotype?) ∧
      ∃ added, metadata.declaredAnnotations =
        Store.changeTable []
            (Walk.declaredChanges session.context element true Store.Write.annotation?) ++
          Store.promotion added := by
  rw [serve_request unregistered] at built
  obtain ⟨complete, rfl⟩ := Session.conclude_eq_ok (Option.some.inj built) readable
  have lists : (Store.empty.recordAll (kind.walk session.context element).trace).ListsDeclared :=
    Store.ListsDeclared.recordAll ⟨fun _ => rfl, fun _ => rfl⟩ _
  obtain ⟨annotations, stereotypes⟩ := Metadata.declared_ofStore lists
  have aliases : kind.options.aliases = true := by cases kind <;> rfl
  have declared := Walk.declared_of_element complete fun hierarchy combined again => by
    rw [aliases]
    exact own (walksTwice_of_count combined again)
  rw [aliases] at declared
  rw [annotations, stereotypes]
  exact declared

end ElementBuild

/-- Whatever a build reads besides the element, it holds the same stereotypes as
declared, with the same members in the same order. The declared annotations are
the same, too, but for a promoted default scope. This holds for any two builds of
an element in sessions of one context; one of them may be the build that reads
the element alone. Where the hierarchy of a given parent holds the element, what the
element adds to groups has to agree with itself. -/
theorem declared_part_of_builds {session other : Session} {element : Element}
    (same : other.context = session.context)
    (unregistered : session.mutation? (session.model.declaringType element) element = none)
    (unregisteredThere : other.mutation? (other.model.declaringType element) element = none)
    {kind otherKind : ElementBuild} {metadata otherMetadata : Metadata}
    (built : (session.serve (kind.request element)).1 = some (.ok metadata))
    (readable : ¬ (kind.walk session.context element).HasDefect)
    (builtThere : (other.serve (otherKind.request element)).1 = some (.ok otherMetadata))
    (readableThere : ¬ (otherKind.walk session.context element).HasDefect)
    (own : kind.WalksTwice session.model element ∨ otherKind.WalksTwice session.model element →
      Trace.SelfAgreeing (Walk.elementTrace session.context element true element)) :
    metadata.declaredStereotypes = otherMetadata.declaredStereotypes ∧
      ∃ base added addedThere,
        metadata.declaredAnnotations = base ++ Store.promotion added ∧
          otherMetadata.declaredAnnotations = base ++ Store.promotion addedThere := by
  obtain ⟨stereotypes, added, annotations⟩ :=
    ElementBuild.declared_of_serve unregistered built readable fun again => own (.inl again)
  have ownThere : otherKind.WalksTwice other.model element →
      Trace.SelfAgreeing (Walk.elementTrace other.context element true element) := by
    rw [Session.model, same]
    exact fun again => own (.inr again)
  obtain ⟨stereotypesThere, addedThere, annotationsThere⟩ :=
    ElementBuild.declared_of_serve unregisteredThere builtThere (same ▸ readableThere) ownThere
  rw [same] at stereotypesThere annotationsThere
  exact ⟨stereotypes.trans stereotypesThere.symm, _, added, addedThere, annotations,
    annotationsThere⟩

/-- A field with a default scope and a repeatable annotation. -/
def heldContext : Context where
  model :=
    { document :=
        { annotations :=
            [("held.Held",
                { annotations :=
                    [{ name := Name.defaultScope
                       members := [(Name.valueMember, .string "held.Scope")] }] }),
              ("held.Tag", { container := some "held.Tags" })]
          elements :=
            [("held.field",
                { kind := .field
                  annotations := [{ name := "held.Held" }, { name := "held.Tag" }] })] } }

/-- The field is walked twice under itself. -/
theorem heldContext_declared_part :
    ∃ metadata declared : Metadata,
      ((Session.fresh heldContext).serve (.buildForParent (.declaration "held.field")
          (.declaration "held.field"))).1 = some (.ok metadata) ∧
      ((Session.fresh heldContext).serve (.buildDeclared (.declaration "held.field"))).1 =
        some (.ok declared) ∧
      metadata.declaredStereotypes = declared.declaredStereotypes ∧
      ∃ base added addedThere,
        metadata.declaredAnnotations = base ++ Store.promotion added ∧
          declared.declaredAnnotations = base ++ Store.promotion addedThere := by
  have own : Trace.SelfAgreeing (Walk.elementTrace heldContext (.declaration "held.field") true
      (.declaration "held.field")) := .of_numbers (by decide +kernel)
  have parts : ∀ metadata declared,
      ((Session.fresh heldContext).serve
        ((ElementBuild.forParent (.declaration "held.field")).request
          (.declaration "held.field"))).1 = some (.ok metadata) →
      ((Session.fresh heldContext).serve
        (ElementBuild.declared.request (.declaration "held.field"))).1 = some (.ok declared) →
      metadata.declaredStereotypes = declared.declaredStereotypes ∧
        ∃ base added addedThere,
          metadata.declaredAnnotations = base ++ Store.promotion added ∧
            declared.declaredAnnotations = base ++ Store.promotion addedThere :=
    fun metadata declared built alone =>
      declared_part_of_builds rfl rfl rfl built (fun ⟨_, defect⟩ => nomatch defect) alone
        (fun ⟨_, defect⟩ => nomatch defect) fun _ => own
  exact ⟨_, _, rfl, rfl, parts _ _ rfl rfl⟩

/-- A field with a repeatable annotation that holds what is no number. -/
def numberlessContext : Context where
  model :=
    { document :=
        { annotations := [("bean.Tag", { container := some "bean.Tags" })]
          elements := [("bean.field", { kind := .field, annotations := [tag] })] } }
where
  tag : Annotation :=
    { name := "bean.Tag", members := [(Name.valueMember, .double .nan)] }

/-- An occurrence that does not agree with itself is added to the group by each walk. -/
theorem numberlessContext_declared_part :
    ∃ metadata declared : Metadata,
      ((Session.fresh numberlessContext).serve (.buildForParent (.declaration "bean.field")
          (.declaration "bean.field"))).1 = some (.ok metadata) ∧
      ((Session.fresh numberlessContext).serve (.buildDeclared (.declaration "bean.field"))).1 =
        some (.ok declared) ∧
      metadata.declaredAnnotations = [("bean.Tags", [(Name.valueMember,
        .array [.nested numberlessContext.tag, .nested numberlessContext.tag])])] ∧
      declared.declaredAnnotations =
        [("bean.Tags", [(Name.valueMember, .array [.nested numberlessContext.tag])])] ∧
      ¬ ∃ base added addedThere,
        metadata.declaredAnnotations = base ++ Store.promotion added ∧
          declared.declaredAnnotations = base ++ Store.promotion addedThere := by
  have apart :
      Value.insertUnlisted [.nested numberlessContext.tag] (.nested numberlessContext.tag) =
        [.nested numberlessContext.tag, .nested numberlessContext.tag] :=
    if_neg (by decide +kernel)
  have twice := congrArg
    (fun items => [("bean.Tags", [(Name.valueMember, Value.array items)])]) apart
  refine ⟨_, _, rfl, rfl, twice, rfl, ?_⟩
  rintro ⟨base, added, addedThere, parted, partedThere⟩
  have group : Store.memberOf? base "bean.Tags" Name.valueMember =
      some (.array [.nested numberlessContext.tag, .nested numberlessContext.tag]) := by
    rw [← Store.memberOf?_append_promotion base added, ← parted]
    exact congrArg (Store.memberOf? · "bean.Tags" Name.valueMember) twice
  have groupThere : Store.memberOf? base "bean.Tags" Name.valueMember =
      some (.array [.nested numberlessContext.tag]) := by
    rw [← Store.memberOf?_append_promotion base addedThere, ← partedThere]
    rfl
  cases group.symm.trans groupThere

end AnnotationMetadata
