import AnnotationMetadata.Proofs.Model.Readability
import AnnotationMetadata.Proofs.Model.Supertypes
import AnnotationMetadata.Proofs.Session.HierarchyStore
import AnnotationMetadata.Proofs.Session.RecordedParents
import AnnotationMetadata.Proofs.Walk.Elements

set_option autoImplicit false

/-!
# How builds end

A build fails with its hierarchy, and is empty when an element of the hierarchy breaks
off. Otherwise it is what its walk makes of an empty store. Annotation types, occurrences,
extensions and validators decide what is walked, but not how the build ends.
-/

namespace AnnotationMetadata

/-- The elements before the first that breaks off. -/
def Model.untilBroken (model : Model) (elements : List Element) : List Element :=
  elements.takeWhile fun current => (model.abort? current).isNone

private theorem Model.untilBroken_cons {model : Model} {current : Element} {rest : List Element}
    (unbroken : model.abort? current = none) :
    model.untilBroken (current :: rest) = current :: model.untilBroken rest := by
  simp [untilBroken, unbroken]

theorem Model.untilBroken_subset (model : Model) (elements : List Element) :
    model.untilBroken elements ⊆ elements :=
  List.takeWhile_subset _

namespace Walk

variable {context : Context}

/-! ## Walks of elements that are declared -/

private theorem failure_elements {target : Element} {aliases : Bool} {hierarchy : List Element}
    (declared : ∀ current ∈ hierarchy, context.model.Declares current) :
    (elements context target aliases hierarchy).failure =
      (hierarchy.findSome? context.model.abort?).map .environmentDefect := by
  induction hierarchy with
  | nil => rfl
  | cons current rest ih =>
    rw [elements, Model.read_of_declares (declared current List.mem_cons_self),
      List.findSome?_cons]
    cases context.model.abort? current with
    | some reason => rfl
    | none => exact ih fun other later => declared other (List.mem_cons_of_mem _ later)

/-- What is recorded comes from an element before the first that breaks off. -/
theorem mem_elements_trace {target : Element} {aliases : Bool} {hierarchy : List Element}
    {recording : Recording}
    (recorded : recording ∈ (elements context target aliases hierarchy).trace) :
    recording = .promoteScope ∨
      ∃ current ∈ context.model.untilBroken hierarchy,
        recording ∈ elementTrace context target aliases current := by
  induction hierarchy with
  | nil => exact .inl (List.mem_singleton.mp recorded)
  | cons current rest ih =>
    simp only [elements] at recorded
    split at recorded
    · cases recorded
    · next annotations found =>
      rw [Model.eq_occurrencesOn_of_read found] at recorded
      rw [Model.untilBroken_cons (Model.abort?_of_read found)]
      rcases List.mem_append.mp recorded with own | others
      · exact .inr ⟨current, List.mem_cons_self, own⟩
      · rcases ih others with promoted | ⟨other, later, walked⟩
        · exact .inl promoted
        · exact .inr ⟨other, List.mem_cons_of_mem _ later, walked⟩

end Walk

/-! ## Walks that end -/

/-- The walks of the elements of a hierarchy end. With a validator, so do those of the
members whose values they read. -/
structure Session.WalksEnd (session : Session) (target : Element) (hierarchy : List Element) :
    Prop where
  elements : ∀ current ∈ hierarchy, Walk.Plan.Ends session.context
    (Walk.occurrences session.context current (current == target) true
      (session.model.occurrencesOn current))
  validation : session.validator.isSome → ∀ current ∈ hierarchy, ∀ read,
    .read read ∈ Walk.elementTrace session.context target true current →
      Walk.Plan.Ends session.context
        (Walk.memberOccurrences session.context read.annotation read.member)

namespace Session.WalksEnd

variable {session : Session} {target : Element} {hierarchy others : List Element}

theorem mono (ends : session.WalksEnd target hierarchy) (among : others ⊆ hierarchy) :
    session.WalksEnd target others where
  elements current listed := ends.elements current (among listed)
  validation validated current listed := ends.validation validated current (among listed)

theorem finished (ends : session.WalksEnd target (session.model.untilBroken hierarchy.reverse)) :
    Recording.unfinished ∉
      (Walk.elements session.context target true hierarchy.reverse).trace := by
  intro recorded
  rcases Walk.mem_elements_trace recorded with promoted | ⟨current, listed, walked⟩
  · cases promoted
  · exact (Walk.IsStart.occurrences _ _ _ _).finished_of_ends (ends.elements current listed) walked

theorem readsEnd (ends : session.WalksEnd target (session.model.untilBroken hierarchy.reverse)) :
    session.ReadsEnd (Walk.elements session.context target true hierarchy.reverse).trace := by
  intro validated read recorded
  rcases Walk.mem_elements_trace recorded with promoted | ⟨current, listed, walked⟩
  · cases promoted
  · exact Walk.annotationMember_finished (ends.validation validated current listed read walked)

end Session.WalksEnd

/-- An addition ends. With a validator, so do the walks of the members that it reads. -/
structure Session.AdditionEnds (session : Session) (occurrence : Annotation) : Prop where
  addition : Walk.Plan.Ends session.context (Walk.addition session.context occurrence)
  validation : session.validator.isSome → ∀ read,
    .read read ∈ Walk.added session.context occurrence →
      Walk.Plan.Ends session.context
        (Walk.memberOccurrences session.context read.annotation read.member)

/-! ## Builds -/

namespace ElementBuild

variable {element : Element} {kind : ElementBuild}

/-- The hierarchy that a build walks, listed with its flags. -/
def hierarchy (model : Model) (element : Element) (kind : ElementBuild) :
    Except ModelError (List Element) :=
  Walk.combinedHierarchy model kind.parent? element kind.options

theorem hierarchy_of_parentless {model : Model} (alone : kind.parent? = none) :
    kind.hierarchy model element =
      model.hierarchy element kind.options.inheritTypes kind.options.declaredOnly := by
  rw [hierarchy, Walk.combinedHierarchy, alone]
  cases model.hierarchy element kind.options.inheritTypes kind.options.declaredOnly <;> rfl

theorem hierarchy_congr {model other : Model} (alike : model.RelatesAlike other) :
    kind.hierarchy other element = kind.hierarchy model element := by
  simp only [hierarchy, Walk.combinedHierarchy, Model.hierarchy_congr alike]

theorem exists_failure_of_hierarchy {model : Model} {cause : ModelError}
    (failed : kind.hierarchy model element = .error cause) :
    ∃ message, cause = .failure message := by
  unfold hierarchy Walk.combinedHierarchy at failed
  cases own : model.hierarchy element kind.options.inheritTypes kind.options.declaredOnly with
  | error early =>
    rw [own] at failed
    cases failed
    exact Model.exists_failure_of_hierarchy own
  | ok listed =>
    rw [own] at failed
    cases parent : kind.parent? with
    | none => rw [parent] at failed; cases failed
    | some above =>
      rw [parent] at failed
      cases inherited : model.hierarchy above kind.options.inheritTypes
          kind.options.declaredOnly with
      | error late =>
        simp only [inherited] at failed
        cases failed
        exact Model.exists_failure_of_hierarchy inherited
      | ok others => simp only [inherited] at failed; cases failed

theorem declares_of_mem_hierarchy {model : Model} {listed : List Element}
    (found : kind.hierarchy model element = .ok listed) :
    ∀ current ∈ listed, model.Declares current := by
  unfold hierarchy Walk.combinedHierarchy at found
  obtain ⟨own, ownListed, found⟩ := Model.exists_of_bind_eq_ok found
  cases parent : kind.parent? with
  | none =>
    rw [parent] at found
    cases found
    exact Model.declares_of_mem_hierarchy ownListed
  | some above =>
    rw [parent] at found
    obtain ⟨others, otherListed, found⟩ := Model.exists_of_bind_eq_ok found
    cases found
    intro current among
    rcases List.mem_append.mp among with inherited | declared
    · exact Model.declares_of_mem_hierarchy otherListed current inherited
    · exact Model.declares_of_mem_hierarchy ownListed current declared

/-- How a build ends that is not cut off. -/
def outcome (context : Context) (element : Element) (kind : ElementBuild) :
    Except BuildError Metadata :=
  match kind.hierarchy context.model element with
  | .error cause => .error (.model element.name cause)
  | .ok listed =>
    if listed.any fun current => (context.model.abort? current).isSome then .ok .empty
    else .ok (.ofStore (hierarchyStore context element listed.reverse))

theorem walk_eq_elements {context : Context} {listed : List Element}
    (found : kind.hierarchy context.model element = .ok listed) :
    kind.walk context element = Walk.elements context element true listed.reverse := by
  have aliases : kind.options.aliases = true := by cases kind <;> rfl
  rw [walk, Walk.element, ← hierarchy, found, ← aliases]

/-- Where the hierarchy cannot be listed, nothing is walked. -/
theorem walk_of_unlisted {context : Context} {cause : ModelError}
    (failed : kind.hierarchy context.model element = .error cause) :
    kind.walk context element = { trace := [], failure := some cause } := by
  rw [walk, Walk.element, ← hierarchy, failed]

/-- The walk of a hierarchy that is listed fails with the first element that breaks off. -/
theorem failure_walk {context : Context} {listed : List Element}
    (found : kind.hierarchy context.model element = .ok listed) :
    (kind.walk context element).failure =
      (listed.reverse.findSome? context.model.abort?).map .environmentDefect := by
  have declared := declares_of_mem_hierarchy found
  rw [walk_eq_elements found]
  exact Walk.failure_elements fun current among => declared current (List.mem_reverse.mp among)

/-- An answered build is empty, or holds what the walk of its hierarchy makes of an empty
store. -/
theorem eq_empty_or_hierarchyStore {session : Session} {metadata : Metadata}
    (unregistered : session.mutation? (session.model.declaringType element) element = none)
    (built : (session.serve (kind.request element)).1 = some (.ok metadata)) :
    metadata = .empty ∨ ∃ listed, kind.hierarchy session.model element = .ok listed ∧
      metadata = .ofStore (hierarchyStore session.context element listed.reverse) := by
  rw [serve_request unregistered] at built
  by_cases defect : (kind.walk session.context element).HasDefect
  · exact .inl (Session.eq_empty_of_hasDefect defect (Option.some.inj built))
  · obtain ⟨complete, rfl⟩ := Session.conclude_eq_ok (Option.some.inj built) defect
    obtain ⟨listed, found, trace⟩ := Walk.element_trace complete
    have aliases : kind.options.aliases = true := by cases kind <;> rfl
    refine .inr ⟨listed, found, ?_⟩
    rw [walk, trace, aliases, Store.recordAll_append]
    rfl

/-- A build whose walks end has its outcome, unless metadata is registered. -/
theorem serve_eq_outcome_of_walksEnd {session : Session}
    (unregistered : session.mutation? (session.model.declaringType element) element = none)
    (ends : ∀ listed, kind.hierarchy session.model element = .ok listed →
      session.WalksEnd element (session.model.untilBroken listed.reverse)) :
    (session.serve (kind.request element)).1 = some (kind.outcome session.context element) := by
  rw [serve_request unregistered]
  cases found : kind.hierarchy session.model element with
  | error cause =>
    obtain ⟨message, rfl⟩ := exists_failure_of_hierarchy found
    rw [walk_of_unlisted found, outcome, ← Session.model, found]
    rfl
  | ok listed =>
    have reads := (ends listed found).readsEnd
    have finished := (ends listed found).finished
    have failure := failure_walk found
    rw [walk_eq_elements found] at failure ⊢
    rw [Session.conclude_of_finished reads finished, failure, outcome, ← Session.model, found]
    cases broken : listed.reverse.findSome? session.model.abort? with
    | some reason =>
      have some : (listed.any fun current => (session.model.abort? current).isSome) = true := by
        obtain ⟨current, among, aborts⟩ := List.exists_of_findSome?_eq_some broken
        exact List.any_eq_true.mpr ⟨current, List.mem_reverse.mp among, aborts ▸ rfl⟩
      simp only [some, if_true]
      rfl
    | none =>
      have none : (listed.any fun current => (session.model.abort? current).isSome) = false := by
        refine List.any_eq_false.mpr fun current among => ?_
        rw [List.findSome?_eq_none_iff.mp broken current (List.mem_reverse.mpr among)]
        exact Bool.false_ne_true
      have complete := failure.trans (congrArg (Option.map _) broken)
      simp only [none, Bool.false_eq_true, if_false, Option.map_none]
      rw [Walk.elements_trace complete, Store.recordAll_append]
      rfl

theorem serve_eq_outcome {session : Session}
    (unregistered : session.mutation? (session.model.declaringType element) element = none)
    (ends : ∀ listed, kind.hierarchy session.model element = .ok listed →
      session.WalksEnd element listed) :
    (session.serve (kind.request element)).1 = some (kind.outcome session.context element) :=
  serve_eq_outcome_of_walksEnd unregistered fun listed found =>
    (ends listed found).mono fun _ among =>
      List.mem_reverse.mp (session.model.untilBroken_subset _ among)

end ElementBuild

/-! ## What breaks off elsewhere -/

def Session.withElements (session : Session) (elements : Dict ElementDeclaration) : Session :=
  { session with context := session.context.withElements elements }

section Elsewhere

variable {elements : Dict ElementDeclaration}

private theorem hierarchyStore_withElements {context : Context}
    (changes : context.model.ChangesAborts elements) (target : Element)
    (hierarchy : List Element) :
    hierarchyStore (context.withElements elements) target hierarchy =
      hierarchyStore context target hierarchy := by
  have traces : Walk.elementTrace (context.withElements elements) target true =
      Walk.elementTrace context target true :=
    funext (Walk.elementTrace_withElements changes target true)
  rw [hierarchyStore, traces, hierarchyStore]

theorem Session.WalksEnd.withElements {session : Session} {target : Element}
    {hierarchy : List Element} (changes : session.model.ChangesAborts elements)
    (ends : session.WalksEnd target hierarchy) :
    (session.withElements elements).WalksEnd target hierarchy where
  elements current listed := by
    have same : (session.withElements elements).model.occurrencesOn current =
        session.model.occurrencesOn current := changes.occurrencesOn current
    rw [same, Session.withElements, Walk.occurrences_withElements]
    exact (ends.elements current listed).withElements
  validation validated current listed read recorded := by
    rw [Session.withElements, Walk.elementTrace_withElements changes] at recorded
    rw [Session.withElements, Walk.memberOccurrences_withElements]
    exact (ends.validation validated current listed read recorded).withElements

/-- What breaks off outside of the hierarchy makes no difference to a build. -/
private theorem ElementBuild.outcome_withElements {context : Context} {element : Element}
    {kind : ElementBuild} (changes : context.model.ChangesAborts elements)
    (elsewhere : ∀ listed, kind.hierarchy context.model element = .ok listed →
      ∀ current ∈ listed,
        (context.model.withElements elements).abort? current = context.model.abort? current) :
    kind.outcome (context.withElements elements) element = kind.outcome context element := by
  unfold outcome
  rw [Context.model_withElements, hierarchy_congr (Model.RelatesAlike.of_unaborted changes)]
  cases found : kind.hierarchy context.model element with
  | error cause => rfl
  | ok listed =>
    have broken : (listed.any fun current =>
          ((context.model.withElements elements).abort? current).isSome) =
        listed.any fun current => (context.model.abort? current).isSome := by
      rw [Bool.eq_iff_iff, List.any_eq_true, List.any_eq_true]
      refine exists_congr fun current => and_congr_right fun among => ?_
      rw [elsewhere listed found current among]
    simp only [broken, hierarchyStore_withElements changes]

end Elsewhere

/-! ## What decides how a build ends -/

private theorem Session.serve_annotate_of_ends {session : Session} {occurrence : Annotation}
    (ends : session.AdditionEnds occurrence) (metadata : Metadata) :
    (session.serve (.annotate metadata occurrence)).1 =
      some (.ok (metadata.declaring (Walk.added session.context occurrence))) :=
  serve_annotate_of_finished
    (fun validated read recorded =>
      Walk.annotationMember_finished (ends.validation validated read recorded))
    ((Walk.IsStart.addition occurrence).finished_of_ends ends.addition) metadata

/-- A build of an element for which nothing is registered fails exactly with the hierarchy
that it walks, and the error names the element. If an element of the hierarchy breaks off
it is empty, else it is what the walk makes of an empty store. How elements are related and
which of them break off decides between these: not the annotations on them, nor annotation
types, the configuration, extensions or a validator. What breaks off outside of the
hierarchy changes no answer, and annotating never fails. -/
theorem failures_of_build {session : Session} {element : Element} {kind : ElementBuild}
    (unregistered : session.mutation? (session.model.declaringType element) element = none)
    (ends : ∀ listed, kind.hierarchy session.model element = .ok listed →
      session.WalksEnd element listed) :
    (∀ error, (session.serve (kind.request element)).1 = some (.error error) ↔
      ∃ cause, kind.hierarchy session.model element = .error cause ∧
        error = .model element.name cause) ∧
    (∀ listed, kind.hierarchy session.model element = .ok listed →
      ((∃ current ∈ listed, (session.model.abort? current).isSome) →
        (session.serve (kind.request element)).1 = some (.ok .empty)) ∧
      ((∀ current ∈ listed, session.model.abort? current = none) →
        (session.serve (kind.request element)).1 =
          some (.ok (.ofStore (hierarchyStore session.context element listed.reverse))))) ∧
    (∀ other : Model,
      (∀ name, (other.declaration? name).map ElementDeclaration.unannotated =
        (session.model.declaration? name).map ElementDeclaration.unannotated) →
      kind.hierarchy other element = kind.hierarchy session.model element ∧
        ∀ current, other.abort? current = session.model.abort? current) ∧
    (∀ elements, session.model.ChangesAborts elements →
      (∀ listed, kind.hierarchy session.model element = .ok listed → ∀ current ∈ listed,
        (session.model.withElements elements).abort? current = session.model.abort? current) →
      ((session.withElements elements).serve (kind.request element)).1 =
        (session.serve (kind.request element)).1) ∧
    ∀ metadata occurrence, session.AdditionEnds occurrence →
      (session.serve (.annotate metadata occurrence)).1 =
        some (.ok (metadata.declaring (Walk.added session.context occurrence))) := by
  have answer := ElementBuild.serve_eq_outcome unregistered ends
  refine ⟨fun error => ?_, fun listed found => ⟨?_, ?_⟩, fun other same => ⟨?_, ?_⟩,
    fun elements changes elsewhere => ?_,
    fun metadata occurrence ends => Session.serve_annotate_of_ends ends metadata⟩
  · rw [answer, ElementBuild.outcome, ← Session.model]
    cases kind.hierarchy session.model element with
    | error cause => simp [eq_comm]
    | ok listed =>
      dsimp only
      split <;> simp
  · rintro ⟨current, among, broken⟩
    have some : (listed.any fun current => (session.model.abort? current).isSome) = true :=
      List.any_eq_true.mpr ⟨current, among, broken⟩
    rw [answer, ElementBuild.outcome, ← Session.model, found]
    dsimp only
    rw [if_pos some]
  · intro readable
    have none : ¬ (listed.any fun current => (session.model.abort? current).isSome) = true := by
      rw [List.any_eq_true]
      rintro ⟨current, among, broken⟩
      rw [readable current among] at broken
      cases broken
    rw [answer, ElementBuild.outcome, ← Session.model, found]
    dsimp only
    rw [if_neg none]
  · exact ElementBuild.hierarchy_congr (.of_unannotated same)
  · intro current
    cases current with
    | annotationType name => rfl
    | member owner name => rfl
    | declaration name =>
      have aborts := congrArg (Option.bind · ElementDeclaration.abort) (same name)
      rw [Option.bind_map, Option.bind_map] at aborts
      exact aborts
  · have there : (session.withElements elements).mutation?
        ((session.withElements elements).model.declaringType element) element = none := by
      have declaringType : (session.withElements elements).model.declaringType element =
          session.model.declaringType element := changes.declaringType element
      rw [declaringType]
      exact unregistered
    have endsThere : ∀ listed,
        kind.hierarchy (session.withElements elements).model element = .ok listed →
          (session.withElements elements).WalksEnd element listed := by
      intro listed found
      have same : kind.hierarchy (session.withElements elements).model element =
          kind.hierarchy session.model element :=
        ElementBuild.hierarchy_congr (.of_unaborted changes)
      exact (ends listed (same.symm.trans found)).withElements changes
    rw [ElementBuild.serve_eq_outcome there endsThere, answer]
    exact congrArg some (ElementBuild.outcome_withElements changes elsewhere)

/-- A class whose superclass breaks off, and a class without its superclass. One of the
annotations is renamed to one that is repeatable and carries itself, another one is not
declared. -/
def brokenContext : Context where
  registry := .ofExtensions [.rename "old.Tag" "bean.Tag"]
  model :=
    { document :=
        { annotations :=
            [("bean.Tag",
                { container := "bean.Tags"
                  members := [("name", {})]
                  annotations := [{ name := "bean.Tag" }, { name := "bean.Mark" }] })]
          elements :=
            [("bean.Bean",
                { kind := .classType
                  supertypes := ["bean.Base"]
                  annotations :=
                    [{ name := "old.Tag", members := [("name", .string "x")] },
                      { name := "bean.Gone" }] }),
              ("bean.Base", { kind := .classType, abort := "AbortCompilation" }),
              ("bean.Lost", { kind := .classType, supertypes := ["bean.Missing"] })] } }

theorem brokenContext_hierarchy :
    ElementBuild.all.hierarchy brokenContext.model (.declaration "bean.Bean") =
      .ok [.declaration "bean.Bean", .declaration "bean.Base"] := by
  rw [ElementBuild.hierarchy_of_parentless rfl]
  have explored : Model.Explored brokenContext.model Model.supertypeLinks
      [Model.unknownElement "bean.Bean"] [] ["bean.Bean", "bean.Base"] :=
    .fresh (by decide) rfl (.fresh (by decide) rfl .done)
  exact Model.hierarchy_of_explored rfl rfl explored true

theorem brokenContext_lost :
    ElementBuild.all.hierarchy brokenContext.model (.declaration "bean.Lost") =
      .error (.failure "unresolved supertype bean.Missing of bean.Lost") := by
  have explored : brokenContext.model.explore Model.supertypeLinks
      [Model.unknownElement "bean.Lost"] [] =
        .error (.failure "unresolved supertype bean.Missing of bean.Lost") :=
    (Model.explore_of_found List.not_mem_nil rfl).trans
      (Model.explore_of_unknown (by decide) rfl)
  rw [ElementBuild.hierarchy_of_parentless rfl]
  exact congrArg (Except.map (List.map Element.declaration)) explored

/-- A session of the context with a validator that rejects every value. -/
def brokenSession : Session :=
  .fresh brokenContext (some fun _ _ _ => ["rejected"])

theorem brokenSession_walksEnd :
    brokenSession.WalksEnd (.declaration "bean.Bean")
      [.declaration "bean.Bean", .declaration "bean.Base"] where
  elements current listed := by
    simp only [List.mem_cons, List.not_mem_nil, or_false] at listed
    rcases listed with rfl | rfl
    · exact Walk.Plan.ends_of_uncut 3 (by decide)
    · exact Walk.Plan.ends_of_uncut 0 (by decide)
  validation := by
    intro _ current listed read recorded
    have reads : ∀ current ∈ [Element.declaration "bean.Bean", .declaration "bean.Base"],
        Session.readsOnly (Walk.elementTrace brokenContext (.declaration "bean.Bean") true current)
          "old.Tag" "name" = true := by
      decide
    obtain ⟨owner, member⟩ := Session.eq_of_readsOnly (reads current listed) recorded
    rw [owner, member]
    exact Walk.Plan.ends_of_uncut 0 (by decide)

/-- The class alone is walked. Together with what it inherits it is empty, and a class
without its superclass is an error. -/
theorem brokenSession_builds :
    (∃ metadata, (brokenSession.serve (.buildDeclared (.declaration "bean.Bean"))).1 =
      some (.ok metadata) ∧ metadata.hasStereotype "bean.Mark" = true) ∧
    (brokenSession.serve (.build (.declaration "bean.Bean"))).1 = some (.ok .empty) ∧
    (brokenSession.serve (.build (.declaration "bean.Lost"))).1 =
      some (.error (.model "bean.Lost"
        (.failure "unresolved supertype bean.Missing of bean.Lost"))) := by
  refine ⟨?_, ?_, ?_⟩
  · have alone : ElementBuild.declared.hierarchy brokenSession.model (.declaration "bean.Bean") =
        .ok [.declaration "bean.Bean"] := rfl
    have ends : ∀ listed, ElementBuild.declared.hierarchy brokenSession.model
        (.declaration "bean.Bean") = .ok listed →
          brokenSession.WalksEnd (.declaration "bean.Bean") listed := by
      rintro listed found
      cases alone.symm.trans found
      have all := brokenSession_walksEnd
      exact ⟨fun current listed => all.elements current (List.mem_append_left _ listed),
        fun validated current listed =>
          all.validation validated current (List.mem_append_left _ listed)⟩
    have built := failures_of_build (by rfl) ends
    exact ⟨_, (built.2.1 _ alone).2 (fun current listed => by
      rw [List.mem_singleton.mp listed]; rfl), by decide⟩
  · have ends : ∀ listed, ElementBuild.all.hierarchy brokenSession.model
        (.declaration "bean.Bean") = .ok listed →
          brokenSession.WalksEnd (.declaration "bean.Bean") listed := by
      rintro listed found
      cases brokenContext_hierarchy.symm.trans found
      exact brokenSession_walksEnd
    have built := failures_of_build (by rfl) ends
    exact (built.2.1 _ brokenContext_hierarchy).1 ⟨.declaration "bean.Base", by simp, rfl⟩
  · have ends : ∀ listed, ElementBuild.all.hierarchy brokenSession.model
        (.declaration "bean.Lost") = .ok listed →
          brokenSession.WalksEnd (.declaration "bean.Lost") listed :=
      fun listed found => nomatch brokenContext_lost.symm.trans found
    have built := failures_of_build (by rfl) ends
    exact (built.1 _).mpr ⟨_, brokenContext_lost, rfl⟩

end AnnotationMetadata
