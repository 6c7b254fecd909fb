import AnnotationMetadata.Proofs.Session.DefaultScope
import AnnotationMetadata.Proofs.Session.Unmapped
import AnnotationMetadata.Proofs.Store.GroupItems
import AnnotationMetadata.Proofs.Walk.Bindings

set_option autoImplicit false

/-!
# Interceptor bindings of builds

Where the interceptor binding is a meta-annotation, an element declares the bindings of
the types that its walk comes to and no others. A default scope can have the same name.
Promoted, it is asked for like a binding as long as there is none.
-/

namespace AnnotationMetadata

variable {context : Context} {element : Element}

/-! ## Promotion -/

namespace Store

theorem containerOf?_promoteDefaultScope (store : Store) (name : String) :
    store.promoteDefaultScope.containerOf? name = store.containerOf? name := by
  rcases promoteDefaultScope_eq store with same | ⟨scope, same⟩
  · rw [same]
  · rw [same, containerOf?, containers_write]
    rfl

/-- A promoted scope is declared, so it leaves what is declared the same as what is
recorded. -/
private theorem promoteDefaultScope_declared {store : Store}
    (declared : store.declaredAnnotations = store.annotations) :
    store.promoteDefaultScope.declaredAnnotations = store.promoteDefaultScope.annotations := by
  rcases promoteDefaultScope_eq store with same | ⟨scope, same⟩
  · rw [same, declared]
  · obtain ⟨annotations, declaredAnnotations⟩ :=
      write_annotations store (.direct true scope [] .runtime)
    rw [same, annotations, declaredAnnotations, declared]
    rfl

end Store

/-- Empty metadata has as many occurrences as the store that records nothing. -/
private theorem Metadata.declaredOccurrences_ofStore {store : Store} (lists : store.ListsDeclared)
    (name : String) :
    (ofStore store).declaredOccurrences name = store.declaredOccurrences name := by
  unfold ofStore
  split
  · next empty =>
    rw [Store.isEmpty, Bool.and_eq_true, List.isEmpty_iff, List.isEmpty_iff] at empty
    have annotations := lists.annotations empty.1
    have stereotypes := lists.stereotypes empty.2
    have none : store.declaredOccurrences name = [] := by
      rw [Store.declaredOccurrences, Store.occurrencesIn, annotations, stereotypes]
      cases store.containerOf? name <;> rfl
    rw [none]
    rfl
  · rfl

/-! ## Groups of bindings -/

/-- What is added to a group is declared, whichever scope is promoted. -/
theorem declaredOccurrences_of_grouped {name container : String}
    (grouped : (ownStore context element).containerOf? name = some container) :
    (ownStore context element).promoteDefaultScope.declaredOccurrences name =
      Store.groupedIn (ownStore context element).annotations container name ++
        Store.groupedIn (ownStore context element).stereotypes container name := by
  obtain ⟨annotations, stereotypes⟩ := ownStore_declared context element
  rw [Store.declaredOccurrences, Store.occurrencesIn, Store.containerOf?_promoteDefaultScope,
    grouped]
  dsimp only
  rw [Store.promoteDefaultScope_declared annotations,
    Store.promoteDefaultScope_declaredStereotypes, stereotypes, Store.groupedIn_eq,
    Store.memberOf?_promoteDefaultScope, ← Store.groupedIn_eq]

section Types

variable (types : Walk.BindsTypes context element)

include types

/-- What is added to the group of bindings and named like one is the binding of a type. -/
theorem Walk.BindsTypes.of_mem_memberChanges
    {changed : Store.Write → Option (Bool × Store.TableChange)}
    (tables : changed = Store.Write.annotation? ∨ changed = Store.Write.stereotype?)
    {recording : Recording} (recorded : recording ∈ elementTrace context element true element)
    {entry : Store.MemberChange}
    (listed : entry ∈ Store.memberChanges Name.interceptorBindings Name.valueMember
      (recording.changes false changed)) :
    ∃ item, entry = .add (.nested item) ∧ (item.name = Name.interceptorBinding →
      ∃ owner, Binds context element owner ∧ item = context.model.bindingOf owner) := by
  cases recording with
  | write write =>
    have bound := types.boundWrite_of_mem_elementTrace recorded
    obtain ⟨item, same, adds⟩ := Store.exists_item_of_mem_memberChanges tables bound.grouped listed
    refine ⟨item, same, fun named => ?_⟩
    rcases adds with ⟨declared, rfl⟩ | ⟨declared, parents, rfl⟩
    · obtain ⟨owner, binds, written⟩ := bound.binding _ (by rw [← named]; rfl)
      cases written
      exact ⟨owner, binds, rfl⟩
    · obtain ⟨_, _, written⟩ := bound.binding _ (by rw [← named]; rfl)
      cases written
  | _ => cases listed

theorem binds_of_mem_groupedIn {table : Store → Dict Members}
    {changed : Store.Write → Option (Bool × Store.TableChange)}
    (tables : changed = Store.Write.annotation? ∨ changed = Store.Write.stereotype?)
    (step : ∀ store write, table (store.write write) =
      Store.changeTable (table store) (Store.changesOf false (changed write)))
    (empty : table .empty = []) {binding : Annotation}
    (listed : binding ∈ Store.groupedIn (table (ownStore context element))
      Name.interceptorBindings Name.interceptorBinding) :
    ∃ owner, Walk.Binds context element owner ∧ binding = context.model.bindingOf owner := by
  obtain ⟨named, recording, recorded, added⟩ := Store.exists_added_of_mem_groupedIn step empty
    Walk.promoteScope_not_mem_elementTrace (fun recording recorded entry changes => by
      obtain ⟨item, same, _⟩ := types.of_mem_memberChanges tables recorded changes
      exact ⟨_, same⟩) listed
  obtain ⟨item, same, binds⟩ := types.of_mem_memberChanges tables recorded added
  cases same
  exact binds named

private theorem exists_mem_groupedIn_of_binds {owner : String}
    (binds : Walk.Binds context element owner) :
    ∃ binding ∈ Store.groupedIn (ownStore context element).annotations Name.interceptorBindings
        Name.interceptorBinding,
      binding.Matches (context.model.bindingOf owner) :=
  Store.exists_mem_groupedIn_of_unset (fun store write => (store.write_annotations write).1)
    Walk.promoteScope_not_mem_elementTrace
    (fun recording recorded entry changes => by
      obtain ⟨_, rfl, _⟩ := types.of_mem_memberChanges (.inl rfl) recorded changes
      rfl)
    (types.binding_mem_elementTrace binds) rfl

private theorem containerOf?_ownStore :
    (ownStore context element).containerOf? Name.interceptorBinding =
        some Name.interceptorBindings ∨
      (ownStore context element).containerOf? Name.interceptorBinding = none ∧
        ∀ owner, ¬ Walk.Binds context element owner := by
  have unpromoted : .promoteScope ∉ Walk.elementTrace context element true element :=
    Walk.promoteScope_not_mem_elementTrace
  cases found : (ownStore context element).containerOf? Name.interceptorBinding with
  | some container =>
    obtain ⟨write, recorded, grouping⟩ := Store.exists_grouping_of_containerOf? unpromoted found
    obtain ⟨_, _, rfl⟩ :=
      (types.boundWrite_of_mem_elementTrace recorded).binding container grouping
    cases grouping
    exact .inl rfl
  | none =>
    refine .inr ⟨rfl, fun owner binds => ?_⟩
    have grouped : ((ownStore context element).containerOf? Name.interceptorBinding).isSome :=
      (Store.containerOf?_isSome_recordAll unpromoted).mpr
        (.inr ⟨_, types.binding_mem_elementTrace binds, _, rfl⟩)
    rw [found] at grouped
    cases grouped

/-- The binding is recorded in its group only. -/
private theorem get?_ownStore_eq_none :
    Dict.get? (ownStore context element).annotations Name.interceptorBinding = none ∧
      Dict.get? (ownStore context element).stereotypes Name.interceptorBinding = none := by
  have absent : (ownStore context element).hasStereotype Name.interceptorBinding = false := by
    refine Bool.eq_false_iff.mpr fun present => ?_
    rcases (Store.hasStereotype_recordAll Walk.promoteScope_not_mem_elementTrace).mp
      present with before | ⟨write, recorded, keyed⟩
    · cases before
    · exact (types.boundWrite_of_mem_elementTrace recorded).elsewhere keyed
  rw [Store.hasStereotype, Bool.or_eq_false_iff] at absent
  exact ⟨Option.isNone_iff_eq_none.mp (by simpa [Dict.contains] using absent.1),
    Option.isNone_iff_eq_none.mp (by simpa [Dict.contains] using absent.2)⟩

/-- Without a binding, only a promoted scope can have the name. -/
private theorem of_mem_declaredOccurrences_of_ungrouped
    (ungrouped : (ownStore context element).containerOf? Name.interceptorBinding = none)
    {binding : Annotation}
    (listed : binding ∈ (ownStore context element).promoteDefaultScope.declaredOccurrences
      Name.interceptorBinding) :
    (ownStore context element).promotedScope? = some Name.interceptorBinding ∧
      binding = { name := Name.interceptorBinding } := by
  obtain ⟨annotations, stereotypes⟩ := ownStore_declared context element
  obtain ⟨unannotated, unreached⟩ := get?_ownStore_eq_none types
  rw [Store.declaredOccurrences, Store.occurrencesIn, Store.containerOf?_promoteDefaultScope,
    ungrouped] at listed
  dsimp only at listed
  rw [Store.promoteDefaultScope_declaredStereotypes, stereotypes, unreached, Option.or_none,
    Store.declaredAnnotations_promoteDefaultScope, annotations] at listed
  cases promoted : (ownStore context element).promotedScope? with
  | none =>
    rw [promoted, unannotated] at listed
    cases listed
  | some scope =>
    rw [promoted, Dict.get?_insertNew, unannotated, Option.none_or] at listed
    by_cases same : scope = Name.interceptorBinding
    · rw [if_pos same] at listed
      exact ⟨congrArg some same, List.mem_singleton.mp listed⟩
    · rw [if_neg same] at listed
      cases listed

end Types

/-! ## Builds -/

namespace Session

/-- An element that breaks off has nothing walked, and is answered with empty metadata. -/
private theorem serve_buildDeclared_of_abort {session : Session}
    (empty : session.context.registry = .empty) {reason : String}
    (declares : session.model.Declares element)
    (aborts : session.model.abort? element = some reason) :
    (session.serve (.buildDeclared element)).1 = some (.ok .empty) := by
  have read := Model.read_of_declares declares
  rw [aborts] at read
  have walk : Walk.element session.context none element ElementBuild.declared.options =
      { trace := [], failure := some (.environmentDefect reason) } := by
    rw [Walk.element_declared declares, Walk.elements,
      show session.context.model.read element = _ from read]
  have built : (session.serve (.buildDeclared element)).1 =
      some (session.conclude element .empty
        (Walk.element session.context none element ElementBuild.declared.options)).1 := rfl
  rw [built, walk, conclude_of_finished ((Walk.AllFinish.of_empty empty).readsEnd _)
    List.not_mem_nil]

/-- The declared build of the element comes to a type that is bound to an interceptor. -/
def Binds (session : Session) (element : Element) (owner : String) : Prop :=
  session.model.abort? element = none ∧ Walk.Binds session.context element owner

end Session

/-- The bindings that an element declares are those of the bound types that its walk comes
to, up to agreement. Where there is none of them, a default scope that is promoted under
the name of the binding is the only one. -/
theorem declared_bindings_of_build {session : Session} {element : Element}
    (declares : session.model.Declares element)
    (types : Walk.BindsTypes session.context element) :
    ∃ metadata, (session.serve (.buildDeclared element)).1 = some (.ok metadata) ∧
      (∀ binding ∈ metadata.declaredOccurrences Name.interceptorBinding,
        (∃ owner, session.Binds element owner ∧ binding = session.model.bindingOf owner) ∨
          (∀ owner, ¬ session.Binds element owner) ∧
            (ownStore session.context element).promotedScope? = some Name.interceptorBinding ∧
            binding = { name := Name.interceptorBinding }) ∧
      ∀ owner, session.Binds element owner →
        ∃ binding ∈ metadata.declaredOccurrences Name.interceptorBinding,
          binding.Matches (session.model.bindingOf owner) := by
  cases aborts : session.model.abort? element with
  | some reason =>
    refine ⟨_, session.serve_buildDeclared_of_abort types.registry declares aborts, nofun, ?_⟩
    rintro owner ⟨readable, _⟩
    cases aborts.symm.trans readable
  | none =>
    have read := Model.read_of_declares declares
    rw [aborts] at read
    refine ⟨_, session.serve_buildDeclared (.of_empty types.registry) read, ?_⟩
    have occurrences := Metadata.declaredOccurrences_ofStore
      ((listsDeclared_recordAll (Walk.elementTrace session.context element true element)).record
        .promoteScope) Name.interceptorBinding
    have binds : ∀ owner, session.Binds element owner ↔ Walk.Binds session.context element owner :=
      fun owner => ⟨fun found => found.2, fun found => ⟨aborts, found⟩⟩
    simp only [binds]
    rcases containerOf?_ownStore types with grouped | ⟨ungrouped, unbound⟩
    · have listed := occurrences.trans (declaredOccurrences_of_grouped grouped)
      refine ⟨fun binding member => .inl ?_, fun owner found => ?_⟩
      · rcases List.mem_append.mp (listed ▸ member) with annotation | stereotype
        · exact binds_of_mem_groupedIn types (.inl rfl)
            (fun store write => (store.write_annotations write).1) rfl annotation
        · exact binds_of_mem_groupedIn types (.inr rfl)
            (fun store write => (store.write_stereotypes write).1) rfl stereotype
      · obtain ⟨binding, member, same⟩ := exists_mem_groupedIn_of_binds types found
        exact ⟨binding, listed ▸ List.mem_append_left _ member, same⟩
    · refine ⟨fun binding member => .inr ⟨unbound, ?_⟩, ?_⟩
      · exact of_mem_declaredOccurrences_of_ungrouped types ungrouped (occurrences ▸ member)
      · exact fun owner found => absurd found (unbound owner)

/-- A field with an annotation that leads to a bound one, and a field with a default scope
that has the name of the interceptor binding. -/
def loggedContext : Context where
  model :=
    { document :=
        { annotations :=
            [("bean.Outer", { annotations := [{ name := "bean.Logged" }] }),
              ("bean.Logged",
                { annotations :=
                    [{ name := Name.interceptorBinding
                       members := [(Name.kindMember, .string "METHOD")] },
                      { name := Name.interceptorType
                        members := [(Name.valueMember, .classRef { name := "bean.Logger" })] }] })]
          elements :=
            [("bean.logged", { kind := .field, annotations := [{ name := "bean.Outer" }] }),
              ("bean.scoped",
                { kind := .field
                  annotations :=
                    [{ name := Name.defaultScope
                       members :=
                        [(Name.valueMember, .string Name.interceptorBinding)] }] })] } }

theorem loggedContext_bindsTypes {element : Element}
    (unwritten : ∀ occurrence ∈ loggedContext.model.occurrencesOn element,
      occurrence.name ≠ Name.interceptorBinding) :
    Walk.BindsTypes loggedContext element where
  registry := rfl
  unaliased := Model.unaliased_of_memberless (by decide)
  acyclic := Walk.acyclic_of_rank
    (fun name => if name = "bean.Outer" then 2 else if name = "bean.Logged" then 1 else 0)
    (by decide)
  visible := by decide
  groupless := rfl
  unwritten := unwritten
  ungrouped := by
    intro carrier occurrence listed
    have other : ∀ name ∈ loggedContext.model.mentionedNames,
        name ≠ Name.interceptorBindings := by decide +kernel
    exact other _ (Model.Mentions.occurrence listed).mem_mentionedNames

/-- The declared kind of the binding counts. -/
theorem loggedContext_logged :
    ∃ metadata,
      ((Session.fresh loggedContext).serve (.buildDeclared (.declaration "bean.logged"))).1 =
        some (.ok metadata) ∧
      ∃ binding ∈ metadata.declaredOccurrences Name.interceptorBinding,
        binding.Matches
          { name := Name.interceptorBinding
            members :=
              [(Name.valueMember, .classRef { name := "bean.Logged" }),
                (Name.kindMember, .string "METHOD"),
                (Name.interceptorTypeMember, .classRef { name := "bean.Logger" })] } := by
  have declares : (Session.fresh loggedContext).model.Declares (.declaration "bean.logged") := rfl
  have types : Walk.BindsTypes (Session.fresh loggedContext).context (.declaration "bean.logged") :=
    loggedContext_bindsTypes (by decide)
  obtain ⟨metadata, built, _, bound⟩ := declared_bindings_of_build declares types
  have leads : Walk.Leads loggedContext
      (loggedContext.model.occurrencesOn (.declaration "bean.logged")) "bean.Logged" :=
    ⟨"bean.Outer", ⟨⟨_, List.mem_cons_self, rfl⟩, by decide, by decide⟩,
      .single ⟨⟨⟨_, List.mem_cons_self, rfl⟩, by decide⟩, by decide⟩⟩
  exact ⟨metadata, built, bound "bean.Logged" ⟨rfl, leads, rfl⟩⟩

/-- No type is bound, but the name is asked for as a scope. -/
theorem loggedContext_scoped :
    Walk.BindsTypes loggedContext (.declaration "bean.scoped") ∧
      (∀ owner, ¬ (Session.fresh loggedContext).Binds (.declaration "bean.scoped") owner) ∧
      ∃ metadata,
        ((Session.fresh loggedContext).serve (.buildDeclared (.declaration "bean.scoped"))).1 =
          some (.ok metadata) ∧
        metadata.declaredOccurrences Name.interceptorBinding =
          [{ name := Name.interceptorBinding }] := by
  refine ⟨loggedContext_bindsTypes (by decide), ?_, _, rfl, rfl⟩
  rintro owner ⟨_, ⟨root, starts, path⟩, bound⟩
  obtain ⟨occurrence, given, rfl⟩ := starts.given
  cases List.mem_singleton.mp given
  rcases path.cases_head with rfl | ⟨_, ⟨⟨⟨_, carried, _⟩, _⟩, _⟩, _⟩
  · cases bound
  · cases carried

end AnnotationMetadata
