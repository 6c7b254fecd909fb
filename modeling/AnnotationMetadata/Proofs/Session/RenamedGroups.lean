import AnnotationMetadata.Proofs.Session.HardReplacement
import AnnotationMetadata.Proofs.Session.InterceptorBindings
import AnnotationMetadata.Proofs.Store.GroupedOccurrences
import AnnotationMetadata.Proofs.Walk.Renaming

set_option autoImplicit false

/-!
# Renamed groups in built metadata

Renaming a repeatable annotation carries its group over: the declared build of an element
has the occurrences under their new name, each once and in order, in the renamed container.
-/

namespace AnnotationMetadata

variable {context : Context} {element : Element}

/-- The occurrences of an annotation on an element, as they are read and renamed. -/
def renamedOccurrences (context : Context) (rename : String → String) (source : String)
    (element : Element) : List Annotation :=
  ((context.model.occurrencesOn element).filter fun occurrence => occurrence.name == source).map
    fun occurrence => { context.model.reading true occurrence with name := rename source }

theorem name_of_mem_renamedOccurrences {rename : String → String} {source : String}
    {item : Annotation} (listed : item ∈ renamedOccurrences context rename source element) :
    item.name = rename source := by
  obtain ⟨_, _, rfl⟩ := List.mem_map.mp listed
  rfl

private theorem flatMap_filter_of_eq_nil {α β : Type} {items : List α} {p : α → Bool}
    {f : α → List β} (unseen : ∀ item ∈ items, p item = false → f item = []) :
    (items.filter p).flatMap f = items.flatMap f := by
  induction items with
  | nil => rfl
  | cons item rest ih =>
    have below := ih fun other listed => unseen other (List.mem_cons_of_mem _ listed)
    cases kept : p item with
    | true => rw [List.filter_cons_of_pos kept, List.flatMap_cons, List.flatMap_cons, below]
    | false =>
      rw [List.filter_cons_of_neg (by simp [kept]), List.flatMap_cons,
        unseen item List.mem_cons_self kept, List.nil_append, below]

/-! ## The store of the element -/

section Own

variable {rename : String → String} {source container : String}
  (group : context.RenamesGroup rename source container)
  (recorded : context.config.isInternal source = false)
  (written : ∀ occurrence ∈ context.model.occurrencesOn element,
    occurrence.name ≠ rename source ∧ rename occurrence.name ≠ rename container)

include group recorded written

theorem filter_concerns_eq :
    (Walk.elementTrace context element true element).filter
        (Recording.concerns context.model source (rename source) (rename container)) =
      (renamedOccurrences context rename source element).map fun item =>
        .write (.occurrence true (rename container) item) := by
  rw [Walk.filter_concerns_elementTrace group recorded written, renamedOccurrences, List.map_map]
  refine List.map_congr_left fun occurrence listed => ?_
  have named : occurrence.name = source := beq_iff_eq.mp (List.mem_filter.mp listed).2
  rw [Walk.renamedWrite, named]
  rfl

theorem exists_item_of_concerns {write : Store.Write}
    (listed : .write write ∈ Walk.elementTrace context element true element)
    (concerns : write.concerns context.model source (rename source) (rename container) = true) :
    ∃ item ∈ renamedOccurrences context rename source element,
      write = .occurrence true (rename container) item := by
  have kept : Recording.write write ∈ (Walk.elementTrace context element true element).filter
      (Recording.concerns context.model source (rename source) (rename container)) :=
    List.mem_filter.mpr ⟨listed, concerns⟩
  rw [filter_concerns_eq group recorded written] at kept
  obtain ⟨item, found, same⟩ := List.mem_map.mp kept
  cases same
  exact ⟨item, found, rfl⟩

/-- The group is the only one that occurrences of the new name are added to. -/
private theorem group_of_grouping {write : Store.Write} {other : String}
    (listed : .write write ∈ Walk.elementTrace context element true element)
    (grouping : write.grouping? = some (rename source, other)) : other = rename container := by
  have concerns : write.concerns context.model source (rename source) (rename container) =
      true := by
    simp [Store.Write.concerns, grouping]
  obtain ⟨_, _, same⟩ := exists_item_of_concerns group recorded written listed concerns
  rw [same] at grouping
  exact (Prod.mk.inj (Option.some.inj grouping)).2.symm

private theorem grouping_of_key {write : Store.Write}
    (listed : .write write ∈ Walk.elementTrace context element true element)
    (keyed : write.key? = some (rename container)) : write.grouping?.isSome := by
  cases grouping : write.grouping? with
  | some => rfl
  | none =>
    have concerns : write.concerns context.model source (rename source) (rename container) =
        true := by
      simp [Store.Write.concerns, grouping, keyed]
    obtain ⟨_, _, same⟩ := exists_item_of_concerns group recorded written listed concerns
    rw [same] at grouping
    cases grouping

theorem flatMap_made_eq {added : Bool → Store.Write → Option Annotation}
    (tables : added = Store.Write.occurrence? ∨ added = Store.Write.stereotypeOccurrence?)
    (declaredOnly : Bool) :
    ((Walk.elementTrace context element true element).flatMap (Recording.made fun write =>
        (added declaredOnly write).toList)).filter (fun item => item.name == rename source) =
      (renamedOccurrences context rename source element).flatMap fun item =>
        (added declaredOnly (.occurrence true (rename container) item)).toList := by
  rw [List.filter_flatMap, ← flatMap_filter_of_eq_nil
    (p := Recording.concerns context.model source (rename source) (rename container)),
    filter_concerns_eq group recorded written, List.flatMap_map]
  -- The writes of the occurrences add nothing else, and what does not concern the group adds
  -- nothing under the new name.
  · refine List.flatMap_congr fun item listed => List.filter_eq_self.mpr fun other adds => ?_
    obtain ⟨_, grouping⟩ := Store.exists_grouping_of_added tables (Option.mem_toList.mp adds)
    have same : item.name = other.name := (Prod.mk.inj (Option.some.inj grouping)).1
    rw [← same, name_of_mem_renamedOccurrences listed, beq_self_eq_true]
  · intro recording _ apart
    cases recording with
    | write write =>
      refine List.filter_eq_nil_iff.mpr fun item adds named => ?_
      obtain ⟨other, grouping⟩ := Store.exists_grouping_of_added tables (Option.mem_toList.mp adds)
      rw [beq_iff_eq.mp named] at grouping
      simp [Recording.concerns, Store.Write.concerns, grouping] at apart
    | _ => rfl

/-- The old name is not recorded, other than as a group of other annotations. -/
private theorem ownStore_unrenamed :
    (ownStore context element).containerOf? source = none ∧
      ((ownStore context element).hasStereotype source = true →
        context.model.isGroup source = true) := by
  have unpromoted : .promoteScope ∉ Walk.elementTrace context element true element :=
    Walk.promoteScope_not_mem_elementTrace
  refine ⟨?_, fun present => ?_⟩
  · cases found : (ownStore context element).containerOf? source with
    | none => rfl
    | some other =>
      obtain ⟨write, listed, grouping⟩ := Store.exists_grouping_of_containerOf? unpromoted found
      have concerns : write.concerns context.model source (rename source) (rename container) =
          true := by
        simp [Store.Write.concerns, grouping]
      obtain ⟨item, renamed, same⟩ :=
        exists_item_of_concerns group recorded written listed concerns
      rw [same] at grouping
      have named : item.name = source := (Prod.mk.inj (Option.some.inj grouping)).1
      rw [name_of_mem_renamedOccurrences renamed] at named
      exact absurd named (group.fresh source)
  · rcases (Store.hasStereotype_recordAll unpromoted).mp present with
      before | ⟨write, listed, keyed⟩
    · cases before
    · by_contra ungrouped
      have single : context.model.isGroup source = false := Bool.eq_false_iff.mpr ungrouped
      have concerns : write.concerns context.model source (rename source) (rename container) =
          true := by
        cases grouping : write.grouping? with
        | none => simp [Store.Write.concerns, grouping, keyed]
        | some entry =>
          obtain ⟨item, other⟩ := entry
          cases (Store.Write.key?_of_grouping? grouping).symm.trans keyed
          simp [Store.Write.concerns, grouping, single]
      obtain ⟨_, _, same⟩ := exists_item_of_concerns group recorded written listed concerns
      rw [same] at keyed
      exact group.fresh container (Option.some.inj keyed)

variable (carried : ∃ occurrence ∈ context.model.occurrencesOn element, occurrence.name = source)

include carried

theorem exists_grouping_elementTrace :
    ∃ write, .write write ∈ Walk.elementTrace context element true element ∧
      ∃ other, write.grouping? = some (rename source, other) := by
  obtain ⟨occurrence, found, named⟩ := carried
  have listed : { context.model.reading true occurrence with name := rename source } ∈
      renamedOccurrences context rename source element :=
    List.mem_map.mpr ⟨occurrence, List.mem_filter.mpr ⟨found, beq_iff_eq.mpr named⟩, rfl⟩
  have kept := List.mem_map_of_mem (f := fun item =>
    Recording.write (.occurrence true (rename container) item)) listed
  rw [← filter_concerns_eq group recorded written] at kept
  exact ⟨_, (List.mem_filter.mp kept).1, _, rfl⟩

private theorem ownStore_renamed :
    (ownStore context element).containerOf? (rename source) = some (rename container) ∧
      (ownStore context element).occurrences (rename source) =
        distinctOccurrences (renamedOccurrences context rename source element) := by
  have unpromoted : .promoteScope ∉ Walk.elementTrace context element true element :=
    Walk.promoteScope_not_mem_elementTrace
  have grouped := exists_grouping_elementTrace group recorded written carried
  have single : ∀ write, .write write ∈ Walk.elementTrace context element true element →
      ∀ other, write.grouping? = some (rename source, other) → other = rename container :=
    fun _ listed _ grouping => group_of_grouping group recorded written listed grouping
  obtain ⟨occurrences, _⟩ := Store.occurrences_recordAll unpromoted grouped single
    fun _ listed keyed => grouping_of_key group recorded written listed keyed
  refine ⟨Store.containerOf?_of_single unpromoted grouped single, occurrences.trans ?_⟩
  rw [Store.addedOccurrences, flatMap_made_eq group recorded written (.inl rfl),
    flatMap_made_eq group recorded written (.inr rfl)]
  have unreached : (renamedOccurrences context rename source element).flatMap (fun item =>
      (Store.Write.stereotypeOccurrence? false
        (.occurrence true (rename container) item)).toList) = [] :=
    List.flatMap_eq_nil_iff.mpr fun _ _ => rfl
  rw [unreached]
  exact (List.append_nil _).trans (congrArg distinctOccurrences (List.flatMap_singleton' _))

end Own

/-! ## Builds -/

/-- An element carries a repeatable annotation, by itself or in its container, and the
registry holds extensions that rename it. The annotation is recorded. Neither its old nor its
new name is that of a meta-annotation, of its container before or after, or of the
interceptor binding, and the element carries nothing that has a new name already. -/
structure Context.RenamesRepeatable (context : Context) (element : Element)
    {name container : String} (rename : Renaming name container) : Prop where
  registry : ∃ extensions : List Extension, extensions.Perm rename.extensions ∧
    context.registry = .ofExtensions extensions
  held : ∀ extension ∈ rename.extensions, extension.key ≠ ""
  grouped : context.model.containerOf? name = some container
  carried : ∃ occurrence ∈ context.model.occurrencesOn element, occurrence.name = name
  unwritten : ∀ occurrence ∈ context.model.occurrencesOn element,
    occurrence.name ≠ rename.apply name ∧ occurrence.name ≠ rename.apply container
  metas : ∀ owner, ∀ occurrence ∈ context.model.occurrencesOn (.annotationType owner),
    occurrence.name ≠ name ∧ occurrence.name ≠ rename.apply name
  unaliased : context.model.Unaliased
  recorded : context.config.isInternal name = false
  moved : rename.apply name ≠ name
  apart : ∀ other ∈ [container, rename.apply container, Name.interceptorBinding],
    name ≠ other ∧ rename.apply name ≠ other

/-- Neither an annotation on the element nor a meta-annotation has the name of the renamed
container once everything is renamed. -/
structure Context.LeavesGroup (context : Context) (element : Element) {name container : String}
    (rename : Renaming name container) : Prop where
  unwritten : ∀ occurrence ∈ context.model.occurrencesOn element,
    rename.apply occurrence.name ≠ rename.apply container
  metas : ∀ owner, ∀ occurrence ∈ context.model.occurrencesOn (.annotationType owner),
    rename.apply occurrence.name ≠ rename.apply container

private theorem Context.RenamesRepeatable.renamesGroup {name container : String}
    {rename : Renaming name container} (renames : context.RenamesRepeatable element rename)
    (leaves : context.LeavesGroup element rename) :
    context.RenamesGroup rename.apply name container := by
  obtain ⟨extensions, registered, same⟩ := renames.registry
  obtain ⟨contained, target⟩ := renames.apart _ List.mem_cons_self
  obtain ⟨elsewhere, distinct⟩ := renames.apart _ (List.mem_cons_of_mem _ List.mem_cons_self)
  obtain ⟨unbound, unboundTarget⟩ :=
    renames.apart _ (List.mem_cons_of_mem _ (List.mem_cons_of_mem _ List.mem_cons_self))
  exact
    { renames := same ▸ Renaming.renames_ofExtensions renames.held registered contained
      unaliased := renames.unaliased
      grouped := renames.grouped
      fresh := Renaming.apply_ne_name renames.moved elsewhere.symm
      injective := fun _ => Renaming.eq_of_apply_eq_apply_name renames.held distinct.symm
      unbound := ⟨unbound.symm, unboundTarget.symm⟩
      metas := fun owner occurrence carried =>
        ⟨(renames.metas owner occurrence carried).1, (renames.metas owner occurrence carried).2,
          leaves.metas owner occurrence carried⟩ }

private theorem Session.conclude_of_answered {session : Session} {seed : Store} {walk : ElementWalk}
    (complete : walk.failure = none)
    (answered : (session.conclude element seed walk).1 ≠ .error (.unfinished element.name)) :
    (session.conclude element seed walk).1 = .ok (.ofStore (seed.recordAll walk.trace)) := by
  unfold conclude at answered ⊢
  dsimp only at answered ⊢
  split
  · next cut => exact absurd (by rw [if_pos cut]) answered
  · rw [complete]

/-- An element that can be read has its declared store built, unless the walk is cut off. -/
private theorem Session.serve_buildDeclared_of_answered {session : Session}
    {annotations : List Annotation} (read : session.model.read element = .ok annotations)
    (answered : (session.serve (.buildDeclared element)).1 ≠
      some (.error (.unfinished element.name))) :
    (session.serve (.buildDeclared element)).1 =
      some (.ok (.ofStore (ownStore session.context element).promoteDefaultScope)) := by
  have walk := Walk.element_declaredOnly read
  have built : (session.serve (.buildDeclared element)).1 =
      some (session.conclude element .empty
        (Walk.element session.context none element ElementBuild.declared.options)).1 := rfl
  rw [built, walk] at answered
  rw [built, walk, conclude_of_answered rfl fun same => answered (congrArg some same),
    Store.recordAll_append]
  rfl

/-- A repeatable annotation that is renamed keeps its group: the element declares its
occurrences under the new name, equal ones once, with the members that are read from them and
the retention that they had. They are in the container that takes the place of their own, and
the old name is not recorded, unless it is a promoted scope or a group of other annotations.
This holds wherever nothing else comes to have the name of the container. -/
theorem renamed_group_of_build {session : Session} {name container : String}
    {rename : Renaming name container}
    (renames : session.context.RenamesRepeatable element rename)
    (leaves : session.context.LeavesGroup element rename)
    {annotations : List Annotation} (read : session.model.read element = .ok annotations)
    (answered : (session.serve (.buildDeclared element)).1 ≠
      some (.error (.unfinished element.name))) :
    ∃ store, (session.serve (.buildDeclared element)).1 = some (.ok (.store store)) ∧
      Metadata.declaredOccurrences (.store store) (rename.apply name) =
        distinctOccurrences (renamedOccurrences session.context rename.apply name element) ∧
      store.containerOf? (rename.apply name) = some (rename.apply container) ∧
      store.containerOf? name = none ∧
      (store.hasStereotype name = true →
        (ownStore session.context element).promotedScope? = some name ∨
          session.model.isGroup name = true) := by
  have group := renames.renamesGroup leaves
  have written : ∀ occurrence ∈ session.context.model.occurrencesOn element,
      occurrence.name ≠ rename.apply name ∧
        rename.apply occurrence.name ≠ rename.apply container :=
    fun occurrence listed =>
      ⟨(renames.unwritten occurrence listed).1, leaves.unwritten occurrence listed⟩
  obtain ⟨grouped, occurrences⟩ := ownStore_renamed group renames.recorded written renames.carried
  obtain ⟨ungrouped, unrecorded⟩ := ownStore_unrenamed group renames.recorded written
  have present : (ownStore session.context element).promoteDefaultScope.isEmpty = false := by
    obtain ⟨_, listed, _, grouping⟩ :=
      exists_grouping_elementTrace group renames.recorded written renames.carried
    exact Store.isEmpty_eq_false (Store.hasStereotype_promoteDefaultScope
      ((Store.hasStereotype_recordAll Walk.promoteScope_not_mem_elementTrace).mpr
        (.inr ⟨_, listed, Store.Write.key?_of_grouping? grouping⟩)))
  refine ⟨(ownStore session.context element).promoteDefaultScope, ?_, ?_, ?_, ?_, ?_⟩
  · rw [Session.serve_buildDeclared_of_answered read answered, Metadata.ofStore_eq_store present]
  · refine (declaredOccurrences_of_grouped grouped).trans (Eq.trans ?_ occurrences)
    rw [Store.occurrences, Store.occurrencesIn, grouped]
  · rw [Store.containerOf?_promoteDefaultScope, grouped]
  · rw [Store.containerOf?_promoteDefaultScope, ungrouped]
  · intro recorded
    rcases Store.records_promoteDefaultScope.mp (.inl recorded) with
      (own | added) | promoted
    · exact .inr (unrecorded own)
    · rw [ungrouped] at added
      cases added
    · exact .inl promoted

theorem Model.forall_mem_metas {model : Model} {P : Annotation → Prop}
    (declared : ∀ entry ∈ model.document.annotations,
      ∀ occurrence ∈ entry.2.annotations.flatMap model.unwrap, P occurrence) (owner : String)
    (occurrence : Annotation) (carried : occurrence ∈ model.occurrencesOn (.annotationType owner)) :
    P occurrence := by
  rw [occurrencesOn, writtenOn] at carried
  cases found : model.annotationType? owner with
  | none =>
    rw [found] at carried
    cases carried
  | some declaration =>
    rw [found] at carried
    exact declared _ (Dict.mem_of_get?_eq_some found) occurrence carried

/-- A tag on a field, beside two of them in a container. The renaming of the container is
registered before that of the tag. -/
def renamedTagContext : Context where
  registry := .ofExtensions [.rename "old.Tags" "new.Tags", .rename "old.Tag" "new.Tag"]
  model :=
    { document :=
        { annotations :=
            [("old.Tag", { retention := .classFile, container := some "old.Tags" }),
              ("bean.Item", { annotations := [{ name := "bean.Meta" }] })]
          elements :=
            [("bean.tagged",
              { kind := .field
                annotations :=
                  [tag "first", { name := "bean.Item" },
                    ({ name := "old.Tags" } : Annotation).withAnnotations
                      [tag "second", tag "first"]] })] } }
where
  tag (value : String) : Annotation :=
    { name := "old.Tag", members := [(Name.valueMember, .string value)] }

def renamedTag (value : String) : Annotation where
  name := "new.Tag"
  members := [(Name.valueMember, .string value)]
  retention := .classFile

theorem renamedTagContext_tagged :
    ∃ store, ((Session.fresh renamedTagContext).serve
        (.buildDeclared (.declaration "bean.tagged"))).1 = some (.ok (.store store)) ∧
      Metadata.declaredOccurrences (.store store) "new.Tag" =
        [renamedTag "first", renamedTag "second"] ∧
      store.containerOf? "new.Tag" = some "new.Tags" ∧
      store.containerOf? "old.Tag" = none ∧ store.hasStereotype "old.Tag" = false := by
  let rename : Renaming "old.Tag" "old.Tags" := .grouped "new.Tag" "new.Tags"
  have renames : (Session.fresh renamedTagContext).context.RenamesRepeatable
      (.declaration "bean.tagged") rename :=
    { registry := ⟨_, List.Perm.swap _ _ _, rfl⟩
      held := by simp [rename, Renaming.extensions, Extension.rename, Extension.key]
      grouped := rfl
      carried := by decide
      unwritten := by decide
      metas := Model.forall_mem_metas (by decide)
      unaliased := Model.unaliased_of_memberless (by decide)
      recorded := rfl
      moved := by decide
      apart := by decide }
  have leaves : (Session.fresh renamedTagContext).context.LeavesGroup
      (.declaration "bean.tagged") rename :=
    ⟨by decide, Model.forall_mem_metas (by decide)⟩
  obtain ⟨store, built, occurrences, container, ungrouped, recorded⟩ :=
    renamed_group_of_build renames leaves (by rfl) (by rintro ⟨⟩)
  have renamed : renamedOccurrences renamedTagContext rename.apply "old.Tag"
      (.declaration "bean.tagged") =
        [renamedTag "first", renamedTag "second", renamedTag "first"] := rfl
  refine ⟨store, built, occurrences.trans ?_, container, ungrouped, ?_⟩
  · refine (congrArg distinctOccurrences renamed).trans ?_
    cbv
  · refine Bool.eq_false_iff.mpr fun present => ?_
    rcases recorded present with promoted | group
    · cases promoted
    · cases group

/-- A package is moved. One of its annotations groups others, and one of its containers is in
the package that it is moved to. -/
def movedGroupContext : Context where
  registry := .ofExtensions [.movePackage "old" "new"]
  model :=
    { document :=
        { annotations :=
            [("old.Tag", { container := some "new.Tags" }),
              ("old.Mark", { container := some "old.Marks" }),
              ("old.Box", { container := some "old.Boxes" }),
              ("bean.Item", { container := some "old.Box" }),
              ("bean.Meta", { annotations := [grouping "new.Marks" [{ name := "new.Mark" }]] })]
          elements :=
            [("bean.broken",
                { kind := .field, annotations := [{ name := "old.Tag" }]
                  abort := some "missing type" }),
              ("bean.emptied",
                { kind := .field, annotations := [{ name := "old.Tag" }, grouping "old.Tags" []] }),
              ("bean.met",
                { kind := .field
                  annotations :=
                    [{ name := "old.Mark", members := [(Name.valueMember, .long 1)] },
                      { name := "bean.Meta" }] }),
              ("bean.scoped",
                { kind := .field
                  annotations :=
                    [{ name := "old.Mark" },
                      { name := Name.defaultScope
                        members := [(Name.valueMember, .string "old.Mark")] }] }),
              ("bean.boxed",
                { kind := .field
                  annotations :=
                    [grouping "old.Boxes" [{ name := "old.Box" }], { name := "bean.Item" }] })] } }
where
  grouping (container : String) (items : List Annotation) : Annotation :=
    ({ name := container } : Annotation).withAnnotations items

/-- The group of interceptor bindings is renamed, on a field that has a binding. -/
def movedBindingsContext : Context where
  registry := .ofExtensions [.rename Name.interceptorBindings "new.Bindings"]
  model :=
    { document :=
        { annotations :=
            [(Name.interceptorBindings, { container := some "bean.Groups" }),
              ("bean.Logged", { annotations := [{ name := Name.around }] })]
          elements :=
            [("bean.logged",
              { kind := .field
                annotations :=
                  [{ name := Name.interceptorBindings }, { name := "bean.Logged" }] })] } }

private theorem movedGroupContext_renames {element : Element} {name container : String}
    (inside : Name.packageOf name = "old")
    (grouped : movedGroupContext.model.containerOf? name = some container)
    (carried : ∃ occurrence ∈ movedGroupContext.model.occurrencesOn element,
      occurrence.name = name)
    (unwritten : ∀ occurrence ∈ movedGroupContext.model.occurrencesOn element,
      occurrence.name ≠ (.package "new" : Renaming name container).apply name ∧
        occurrence.name ≠ (.package "new" : Renaming name container).apply container)
    (metas : ∀ entry ∈ movedGroupContext.model.document.annotations,
      ∀ occurrence ∈ entry.2.annotations.flatMap movedGroupContext.model.unwrap,
        occurrence.name ≠ name ∧
          occurrence.name ≠ (.package "new" : Renaming name container).apply name)
    (recorded : movedGroupContext.config.isInternal name = false)
    (moved : (.package "new" : Renaming name container).apply name ≠ name)
    (apart : ∀ other ∈ [container, (.package "new" : Renaming name container).apply container,
      Name.interceptorBinding],
        name ≠ other ∧ (.package "new" : Renaming name container).apply name ≠ other) :
    movedGroupContext.RenamesRepeatable element (.package "new" : Renaming name container) where
  registry := ⟨_, List.Perm.refl _, by simp [Renaming.extensions, inside]; rfl⟩
  held := by simp [Renaming.extensions, Extension.movePackage, Extension.key, inside]
  grouped := grouped
  carried := carried
  unwritten := unwritten
  metas := Model.forall_mem_metas metas
  unaliased := Model.unaliased_of_memberless (by decide)
  recorded := recorded
  moved := moved
  apart := apart

private theorem movedBindingsContext_renames :
    movedBindingsContext.RenamesRepeatable (.declaration "bean.logged")
      (.alone "new.Bindings" : Renaming Name.interceptorBindings "bean.Groups") where
  registry := ⟨_, List.Perm.refl _, rfl⟩
  held := by simp [Renaming.extensions, Extension.rename, Extension.key, Name.interceptorBindings]
  grouped := rfl
  carried := by decide
  unwritten := by decide
  metas := Model.forall_mem_metas (by decide)
  unaliased := Model.unaliased_of_memberless (by decide)
  recorded := rfl
  moved := by decide
  apart := by decide

/-- The group is not carried over as it is from an element that breaks off, or where an
annotation on the element or a meta-annotation comes to have the name of the container. The
old name stays where it is promoted as a scope, or other annotations are grouped under it. -/
theorem movedGroupContext_lost :
    (movedGroupContext.RenamesRepeatable (.declaration "bean.broken")
          (.package "new" : Renaming "old.Tag" "new.Tags") ∧
        ((Session.fresh movedGroupContext).serve
          (.buildDeclared (.declaration "bean.broken"))).1 = some (.ok .empty)) ∧
      (movedGroupContext.RenamesRepeatable (.declaration "bean.emptied")
          (.package "new" : Renaming "old.Tag" "new.Tags") ∧
        ∃ store, ((Session.fresh movedGroupContext).serve
            (.buildDeclared (.declaration "bean.emptied"))).1 = some (.ok (.store store)) ∧
          Metadata.declaredOccurrences (.store store) "new.Tag" = []) ∧
      (movedGroupContext.RenamesRepeatable (.declaration "bean.met")
          (.package "new" : Renaming "old.Mark" "old.Marks") ∧
        ∃ store, ((Session.fresh movedGroupContext).serve
            (.buildDeclared (.declaration "bean.met"))).1 = some (.ok (.store store)) ∧
          renamedOccurrences movedGroupContext
              (.package "new" : Renaming "old.Mark" "old.Marks").apply "old.Mark"
              (.declaration "bean.met") =
            [{ name := "new.Mark", members := [(Name.valueMember, .long 1)] }] ∧
          Metadata.declaredOccurrences (.store store) "new.Mark" =
            [{ name := "new.Mark", members := [(Name.valueMember, .long 1)] },
              { name := "new.Mark" }]) ∧
      (movedGroupContext.RenamesRepeatable (.declaration "bean.scoped")
          (.package "new" : Renaming "old.Mark" "old.Marks") ∧
        ∃ store, ((Session.fresh movedGroupContext).serve
            (.buildDeclared (.declaration "bean.scoped"))).1 = some (.ok (.store store)) ∧
          store.hasStereotype "old.Mark" = true) ∧
      (movedGroupContext.RenamesRepeatable (.declaration "bean.boxed")
          (.package "new" : Renaming "old.Box" "old.Boxes") ∧
        ∃ store, ((Session.fresh movedGroupContext).serve
            (.buildDeclared (.declaration "bean.boxed"))).1 = some (.ok (.store store)) ∧
          store.hasStereotype "old.Box" = true) ∧
      movedBindingsContext.RenamesRepeatable (.declaration "bean.logged")
          (.alone "new.Bindings" : Renaming Name.interceptorBindings "bean.Groups") ∧
        ∃ store, ((Session.fresh movedBindingsContext).serve
            (.buildDeclared (.declaration "bean.logged"))).1 = some (.ok (.store store)) ∧
          store.hasStereotype Name.interceptorBindings = true := by
  refine ⟨⟨?_, rfl⟩, ⟨?_, _, rfl, rfl⟩, ⟨?_, _, rfl, rfl, rfl⟩, ⟨?_, _, rfl, rfl⟩,
    ⟨?_, _, rfl, rfl⟩, movedBindingsContext_renames, _, rfl, rfl⟩
  all_goals
    exact movedGroupContext_renames (by decide) rfl (by decide) (by decide) (by decide) rfl
      (by decide) (by decide)

end AnnotationMetadata
