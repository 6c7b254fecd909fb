import AnnotationMetadata.Proofs.Session.DeclaredValues

set_option autoImplicit false

/-!
# Given occurrences over an element

Occurrences that are given are walked on top of what the walk of the element has recorded, a
promoted scope included. Their walk looks at nothing that is recorded, so it adds the same
names as on its own. It sets the same values, and adds to the same groups.
-/

namespace AnnotationMetadata

variable {context : Context} {element : Element}

/-! ## Recording on top of a store -/

namespace Store

variable {trace : Trace} (unpromoted : Recording.promoteScope ∉ trace)

include unpromoted

/-- On top of a store, a trace adds the names that it lists on its own. -/
theorem mem_keys_recordAll_over {table : Store → Dict Members} {declaredOnly : Bool}
    {changed : Write → Option (Bool × TableChange)} (empty : table .empty = [])
    (step : ∀ store write, table (store.write write) =
      changeTable (table store) (changesOf declaredOnly (changed write)))
    (store : Store) (name : String) :
    name ∈ Dict.keys (table (store.recordAll trace)) ↔
      name ∈ Dict.keys (table store) ∨ name ∈ Dict.keys (table (Store.empty.recordAll trace)) := by
  rw [recordAll_changeTable step unpromoted, recordAll_changeTable step unpromoted, empty,
    mem_keys_changeTable, mem_keys_changeTable]
  simp [Dict.keys]

/-- On top of a store, a trace leaves the values of annotations that it leaves on its own, or
groups that hold theirs. -/
private theorem holding_recordAll_over (store : Store) (name member : String) :
    Holding (memberOf? (Store.empty.recordAll trace).declaredAnnotations name member)
      (memberOf? (store.recordAll trace).declaredAnnotations name member) := by
  have step := fun store write => (write_annotations store write).2
  rw [memberOf?_recordAll step unpromoted, memberOf?_recordAll step unpromoted]
  refine Holding.changedMember ?_ (.none _)
  intro entry changes
  obtain ⟨recording, _, changes⟩ := List.mem_flatMap.mp changes
  exact ne_keep_of_mem_annotationChanges changes

end Store

namespace Metadata

private theorem declaredAnnotationNames_eq (metadata : Metadata) :
    metadata.declaredAnnotationNames = Dict.keys metadata.declaredAnnotations := by
  unfold declaredAnnotationNames declaredAnnotations
  cases metadata.declaredPart? <;> rfl

private theorem declaredStereotypeNames_eq (metadata : Metadata) :
    metadata.declaredStereotypeNames = Dict.keys metadata.declaredStereotypes := by
  unfold declaredStereotypeNames declaredStereotypes
  cases metadata.declaredPart? <;> rfl

end Metadata

/-! ## Walks of given occurrences -/

namespace Walk

theorem declaredAs_of_mem_given {annotations : List Annotation} {recording : Recording}
    (recorded : recording ∈ given context element annotations) :
    recording = .unfinished ∨ recording.DeclaredAs true :=
  declaredAs_of_mem_occurrences recorded

private theorem promoteScope_not_mem_given (annotations : List Annotation) :
    Recording.promoteScope ∉ given context element annotations := by
  intro recorded
  rcases declaredAs_of_mem_given recorded with same | declared
  · cases same
  · cases declared

/-- The element alone is walked the same, whether it may inherit from types or not. -/
private theorem element_own (context : Context) (element : Element) :
    Walk.element context none element { declaredOnly := true, aliases := true } =
      Walk.element context none element ElementBuild.declared.options := by
  have alone : context.model.hierarchy element false true =
      context.model.hierarchy element true true := by
    cases element <;> rfl
  simp only [Walk.element, combinedHierarchy, ElementBuild.options, alone]

end Walk

/-! ## Answers -/

/-- Some session of the context answers the request with the metadata. -/
def Context.Answers (context : Context) (request : Request) (metadata : Metadata) : Prop :=
  ∃ session : Session, session.context = context ∧
    (session.serve request).1 = some (.ok metadata)

namespace Context.Answers

variable {annotations : List Annotation} {metadata : Metadata}

/-- An element whose declared metadata is built can be read, unless it breaks off. -/
theorem read (built : context.Answers (.buildDeclared element) metadata)
    (unbroken : context.model.abort? element = none) :
    context.model.read element = .ok (context.model.occurrencesOn element) := by
  obtain ⟨session, rfl, answer⟩ := built
  have built : (session.conclude element .empty
      (ElementBuild.declared.walk session.context element)).1 = .ok metadata :=
    Option.some.inj answer
  cases found : ElementBuild.declared.hierarchy session.context.model element with
  | error cause =>
    obtain ⟨message, rfl⟩ := ElementBuild.exists_failure_of_hierarchy found
    rw [ElementBuild.walk_of_unlisted found] at built
    obtain ⟨complete, _⟩ := Session.conclude_eq_ok built fun ⟨_, defect⟩ => nomatch defect
    cases complete
  | ok listed =>
    have declares := ElementBuild.declares_of_mem_hierarchy found element
      (Walk.mem_combinedHierarchy found)
    rw [Model.read_of_declares declares, unbroken]

private theorem eq_of_declared (built : context.Answers (.buildDeclared element) metadata)
    (unbroken : context.model.abort? element = none) :
    metadata = .ofStore (ownStore context element).promoteDefaultScope := by
  have read := built.read unbroken
  obtain ⟨session, rfl, answer⟩ := built
  have built : (session.conclude element .empty (Walk.element session.context none element
      ElementBuild.declared.options)).1 = .ok metadata := Option.some.inj answer
  rw [Walk.element_declaredOnly read] at built
  obtain ⟨_, rfl⟩ := Session.conclude_eq_ok built fun ⟨_, defect⟩ => nomatch defect
  rw [Store.recordAll_append]
  rfl

private theorem eq_of_given (some : annotations ≠ [])
    (built : context.Answers (.buildGiven element annotations false) metadata) :
    metadata = .ofStore (Store.empty.recordAll (Walk.given context element annotations)) := by
  obtain ⟨session, rfl, answer⟩ := built
  have built : (session.buildGiven element annotations false).1 = .ok metadata :=
    Option.some.inj answer
  rw [Session.buildGiven, if_neg (by simpa using some)] at built
  obtain ⟨_, rfl⟩ := Session.conclude_eq_ok built fun ⟨_, defect⟩ => nomatch defect
  rfl

private theorem eq_of_layered (some : annotations ≠ [])
    (readable : context.model.read element = .ok (context.model.occurrencesOn element))
    (built : context.Answers (.buildGiven element annotations true) metadata) :
    metadata = .ofStore ((ownStore context element).promoteDefaultScope.recordAll
      (Walk.given context element annotations)) := by
  obtain ⟨session, rfl, answer⟩ := built
  have built : (session.buildGiven element annotations true).1 = .ok metadata :=
    Option.some.inj answer
  have walk : Session.givenWalk session.context element annotations true =
      { trace := (Walk.elementTrace session.context element true element ++ [.promoteScope]) ++
          Walk.given session.context element annotations } := by
    simp only [Session.givenWalk, if_true, Walk.element_own, Walk.element_declaredOnly readable]
  rw [Session.buildGiven, if_neg (by simpa using some), walk] at built
  obtain ⟨_, rfl⟩ := Session.conclude_eq_ok built fun ⟨_, defect⟩ => nomatch defect
  rw [Store.recordAll_append, Store.recordAll_append]
  rfl

end Context.Answers

/-- Occurrences that are given for an element that can be read add to what the element declares:
together they declare the annotations and the stereotypes of both and no others. Each member
has the value that the given occurrences alone give it, or is a group that holds all of their
items. -/
theorem layered_occurrences_of_build {annotations : List Annotation} (given : annotations ≠ [])
    (unbroken : context.model.abort? element = none) {layered own alone : Metadata}
    (builtLayered : context.Answers (.buildGiven element annotations true) layered)
    (builtOwn : context.Answers (.buildDeclared element) own)
    (builtAlone : context.Answers (.buildGiven element annotations false) alone) :
    (∀ name, name ∈ layered.declaredAnnotationNames ↔
      name ∈ own.declaredAnnotationNames ∨ name ∈ alone.declaredAnnotationNames) ∧
    (∀ name, name ∈ layered.declaredStereotypeNames ↔
      name ∈ own.declaredStereotypeNames ∨ name ∈ alone.declaredStereotypeNames) ∧
    ∀ name member value,
      Store.memberOf? alone.declaredAnnotations name member = some value →
        ∃ full, Store.memberOf? layered.declaredAnnotations name member = some full ∧
          Store.memberOf? layered.snapshot.annotations name member = some full ∧
          value.HeldBy full := by
  have unpromoted : .promoteScope ∉ Walk.given context element annotations :=
    Walk.promoteScope_not_mem_given annotations
  have base : (ownStore context element).promoteDefaultScope.ListsDeclared :=
    (listsDeclared_recordAll _).record .promoteScope
  have all : ((ownStore context element).promoteDefaultScope.recordAll
      (Walk.given context element annotations)).AllDeclared :=
    (ownStore_declared context element).promoteDefaultScope.recordAll
      fun _ recorded => Walk.declaredAs_of_mem_given recorded
  have readable := builtOwn.read unbroken
  cases builtLayered.eq_of_layered given readable
  cases builtOwn.eq_of_declared unbroken
  cases builtAlone.eq_of_given given
  obtain ⟨layeredAnnotations, layeredStereotypes⟩ := Metadata.declared_ofStore
    (base.recordAll (Walk.given context element annotations))
  obtain ⟨ownAnnotations, ownStereotypes⟩ := Metadata.declared_ofStore base
  obtain ⟨aloneAnnotations, aloneStereotypes⟩ := Metadata.declared_ofStore
    (listsDeclared_recordAll (Walk.given context element annotations))
  refine ⟨fun name => ?_, fun name => ?_, fun name member value declared => ?_⟩
  · simp only [Metadata.declaredAnnotationNames_eq, layeredAnnotations, ownAnnotations,
      aloneAnnotations]
    exact Store.mem_keys_recordAll_over unpromoted rfl
      (fun store write => (store.write_annotations write).2) _ name
  · simp only [Metadata.declaredStereotypeNames_eq, layeredStereotypes, ownStereotypes,
      aloneStereotypes]
    exact Store.mem_keys_recordAll_over unpromoted rfl
      (fun store write => (store.write_stereotypes write).2) _ name
  · rw [aloneAnnotations] at declared
    obtain ⟨full, found, held⟩ := Store.holding_recordAll_over unpromoted
      (ownStore context element).promoteDefaultScope name member value declared
    rw [layeredAnnotations, Metadata.annotations_snapshot_ofStore, ← all.annotations]
    exact ⟨full, found, found, held⟩

/-- A class with a level, a tag and a default scope. Tags are marked. -/
def suppliedContext : Context where
  model :=
    { document :=
        { annotations :=
            [("bean.Tag",
                { container := some "bean.Tags", annotations := [{ name := "bean.Mark" }]
                  members := [(Name.valueMember, {})] }),
              ("bean.Level", { members := [(Name.valueMember, {})] }),
              ("bean.Held",
                { annotations :=
                    [{ name := Name.defaultScope
                       members := [(Name.valueMember, .string "bean.Scope")] }] })]
          elements :=
            [("bean.Bean",
                { kind := .classType
                  annotations := [valued "bean.Level" "low", { name := "bean.Held" },
                    valued "bean.Tag" "general"] })] } }
where
  valued (name value : String) : Annotation :=
    { name, members := [(Name.valueMember, .string value)] }
  supplied : List Annotation := [valued "bean.Tag" "special", valued "bean.Level" "high"]

/-- The given level replaces that of the class, the given tag joins its tag, and the promoted
scope stays. -/
theorem suppliedContext_layered :
    ∃ layered own alone : Metadata,
      suppliedContext.Answers
        (.buildGiven (.declaration "bean.Bean") suppliedContext.supplied true) layered ∧
      suppliedContext.Answers (.buildDeclared (.declaration "bean.Bean")) own ∧
      suppliedContext.Answers
        (.buildGiven (.declaration "bean.Bean") suppliedContext.supplied false) alone ∧
      "bean.Scope" ∈ layered.declaredAnnotationNames ∧
      "bean.Mark" ∈ layered.declaredStereotypeNames ∧
      Store.memberOf? layered.declaredAnnotations "bean.Level" Name.valueMember =
        some (.string "high") ∧
      ∃ full, Store.memberOf? layered.declaredAnnotations "bean.Tags" Name.valueMember =
          some full ∧
        Value.HeldBy (.array [.nested (suppliedContext.valued "bean.Tag" "special")]) full := by
  have own : suppliedContext.Answers (.buildDeclared (.declaration "bean.Bean")) _ :=
    ⟨.fresh suppliedContext, rfl, rfl⟩
  have alone : suppliedContext.Answers
      (.buildGiven (.declaration "bean.Bean") suppliedContext.supplied false) _ :=
    ⟨.fresh suppliedContext, rfl, rfl⟩
  have layered : suppliedContext.Answers
      (.buildGiven (.declaration "bean.Bean") suppliedContext.supplied true) _ :=
    ⟨.fresh suppliedContext, rfl, rfl⟩
  obtain ⟨annotations, stereotypes, held⟩ :=
    layered_occurrences_of_build (List.cons_ne_nil _ _) rfl layered own alone
  obtain ⟨full, found, _, holds⟩ := held "bean.Tags" Name.valueMember _ rfl
  exact ⟨_, _, _, layered, own, alone, (annotations _).mpr (.inl (by decide)),
    (stereotypes _).mpr (.inr (by decide)), rfl, full, found, holds⟩

end AnnotationMetadata
