import AnnotationMetadata.Proofs.Session.DeclaredBuilds
import AnnotationMetadata.Proofs.Session.InheritedStereotypes
import AnnotationMetadata.Proofs.Session.Outcome
import AnnotationMetadata.Proofs.Store.Recorded

set_option autoImplicit false

/-!
# Promoted default scopes

Whether a default scope is promoted depends on what the element declares. Which scope it
is, though, is read from everything that the build records, where a more general element
may have written the default scope before. Without one above it, an element has its own
default scope promoted, whatever builds it.
-/

namespace AnnotationMetadata

variable {context : Context} {target : Element}

/-! ## Promotion -/

namespace Store

/-- The scope that the declared default scope names. -/
def declaredScope? (store : Store) : Option String :=
  ((store.declaredValues? Name.defaultScope).bind (Dict.get? · Name.valueMember)).bind
    Value.name?

/-- A promoted scope is declared without members, unless it is declared already. -/
theorem declaredAnnotations_promoteDefaultScope (store : Store) :
    store.promoteDefaultScope.declaredAnnotations =
      match store.promotedScope? with
      | some scope => Dict.insertNew store.declaredAnnotations scope []
      | none => store.declaredAnnotations := by
  unfold promoteDefaultScope promotedScope?
  split
  · rfl
  · cases store.nameOf? Name.defaultScope Name.valueMember with
    | none => rfl
    | some scope =>
      dsimp only
      rw [Dict.insertNew_eq_insert]
      exact (write_annotations store (.direct true scope [] .runtime)).2

private theorem promotedScope?_eq_none {store : Store}
    (unpromoted : store.hasDeclaredStereotype Name.scope = true ∨
      store.hasDeclaredStereotype Name.defaultScope = false) : store.promotedScope? = none := by
  refine if_pos ?_
  rcases unpromoted with declared | undeclared
  · rw [declared, Bool.true_or]
  · rw [undeclared, Bool.not_false, Bool.or_true]

theorem promotedScope?_eq_nameOf? {store : Store}
    (unscoped : store.hasDeclaredStereotype Name.scope = false)
    (declared : store.hasDeclaredStereotype Name.defaultScope = true) :
    store.promotedScope? = store.nameOf? Name.defaultScope Name.valueMember := by
  refine if_neg ?_
  rw [unscoped, declared]
  exact Bool.false_ne_true

theorem hasDeclaredStereotype_of_declaredScope? {store : Store} {scope : String}
    (named : store.declaredScope? = some scope) :
    store.hasDeclaredStereotype Name.defaultScope = true := by
  obtain ⟨value, found, _⟩ := Option.bind_eq_some_iff.mp named
  obtain ⟨members, listed, _⟩ := Option.bind_eq_some_iff.mp found
  rw [hasDeclaredStereotype, Bool.or_eq_true]
  rcases Option.or_eq_some_iff.mp listed with annotation | ⟨_, stereotype⟩
  · exact .inl (by rw [Dict.contains, annotation]; rfl)
  · exact .inr (by rw [Dict.contains, stereotype]; rfl)

end Store

/-! ## What the element records itself -/

/-- The store that the walk of an element alone makes. -/
def ownStore (context : Context) (element : Element) : Store :=
  Store.empty.recordAll (Walk.elementTrace context element true element)

/-- The store that the walks of a hierarchy make before a scope is promoted. -/
def unpromotedStore (context : Context) (target : Element) (order : List Element) : Store :=
  Store.empty.recordAll (order.flatMap (Walk.elementTrace context target true))

theorem ownStore_declared (context : Context) (element : Element) :
    (ownStore context element).AllDeclared := by
  refine Store.AllDeclared.recordAll ⟨rfl, rfl⟩ fun recording recorded => ?_
  rw [Walk.elementTrace, beq_self_eq_true] at recorded
  exact Walk.declaredAs_of_mem_occurrences recorded

private theorem unpromotedStore_declared {order : List Element} (listed : target ∈ order)
    (distinct : order.Nodup) :
    (unpromotedStore context target order).declaredAnnotations =
        (ownStore context target).declaredAnnotations ∧
      (unpromotedStore context target order).declaredStereotypes =
        (ownStore context target).declaredStereotypes := by
  obtain ⟨wholeStereotypes, wholeAnnotations⟩ :=
    Walk.declared_of_distinct context true listed distinct
  obtain ⟨stereotypes, annotations⟩ := Walk.declared_of_distinct context true
    (List.mem_singleton_self target) (List.nodup_singleton target)
  rw [List.flatMap_singleton] at stereotypes annotations
  exact ⟨wholeAnnotations.trans annotations.symm, wholeStereotypes.trans stereotypes.symm⟩

/-! ## One name in a hierarchy -/

section Named

variable {name : String} {order : List Element} (listed : target ∈ order)
  (distinct : order.Nodup)
  (others : ∀ current ∈ order, current ≠ target →
    (Store.empty.recordAll (Walk.elementTrace context target true current)).hasStereotype name =
      false)

include listed distinct others

/-- A table holds for a name what the target alone makes of it, if nothing else in the
hierarchy records the name. -/
theorem get?_unpromotedStore {table : Store → Dict Members}
    {changed : Store.Write → Option (Bool × Store.TableChange)}
    (empty : table .empty = [])
    (step : ∀ store write, table (store.write write) =
      Store.changeTable (table store) (Store.changesOf false (changed write)))
    (keyed : ∀ write declared entry, changed write = some (declared, entry) →
      write.key? = some entry.1) :
    Dict.get? (table (unpromotedStore context target order)) name =
      Dict.get? (table (ownStore context target)) name := by
  let made (current : Element) : List Store.TableChange :=
    ((Walk.elementTrace context target true current).flatMap
      (Recording.changes false changed)).filter fun entry => entry.1 = name
  have silent : ∀ current ∈ order, current ≠ target → made current = [] := by
    intro current among other
    refine List.filter_eq_nil_iff.mpr fun entry changed named => ?_
    obtain ⟨recording, recorded, changes⟩ := List.mem_flatMap.mp changed
    cases recording with
    | write write =>
      obtain ⟨declared, same⟩ := Store.mem_changesOf_iff.mp changes
      have present : (Store.empty.recordAll
          (Walk.elementTrace context target true current)).hasStereotype name = true :=
        (Store.hasStereotype_recordAll Walk.promoteScope_not_mem_elementTrace).mpr
          (.inr ⟨write, recorded, (keyed write declared entry same).trans
            (congrArg some (of_decide_eq_true named))⟩)
      exact Bool.false_ne_true ((others current among other).symm.trans present)
    | _ => cases changes
  have once : order.count target = 1 := List.count_eq_one_of_mem distinct listed
  have unpromoted : Recording.promoteScope ∉
      order.flatMap (Walk.elementTrace context target true) := Walk.promoteScope_not_mem_flatMap
  have whole := recordAll_changeTable step unpromoted .empty
  have alone : Recording.promoteScope ∉ Walk.elementTrace context target true target :=
    Walk.promoteScope_not_mem_elementTrace
  have own := recordAll_changeTable step alone .empty
  rw [unpromotedStore, whole, ownStore, own, empty, Store.get?_changeTable_filter,
    List.flatMap_assoc, List.filter_flatMap, flatMap_eq_replicate silent, once,
    List.replicate_one, List.flatten_singleton, Store.get?_changeTable_filter []
      ((Walk.elementTrace context target true target).flatMap (Recording.changes false changed))]

private theorem values?_unpromotedStore :
    (unpromotedStore context target order).values? name =
      (ownStore context target).values? name := by
  have annotations := get?_unpromotedStore listed distinct others rfl
    (fun store write => (store.write_annotations write).1)
    (fun _ declared entry made => Store.Write.key?_eq_some_iff.mpr (.inl ⟨entry.2, declared, made⟩))
  have stereotypes := get?_unpromotedStore listed distinct others rfl
    (fun store write => (store.write_stereotypes write).1)
    (fun _ declared entry made => Store.Write.key?_eq_some_iff.mpr (.inr ⟨entry.2, declared, made⟩))
  rw [Store.values?, Store.values?, annotations, stereotypes]

end Named

/-! ## Answers -/

theorem listsDeclared_recordAll (trace : Trace) : (Store.empty.recordAll trace).ListsDeclared :=
  Store.ListsDeclared.recordAll ⟨fun _ => rfl, fun _ => rfl⟩ trace

theorem declaredAnnotations_ofStore_promoted (trace : Trace) :
    (Metadata.ofStore (Store.empty.recordAll trace).promoteDefaultScope).declaredAnnotations =
      (Store.empty.recordAll trace).promoteDefaultScope.declaredAnnotations :=
  (Metadata.declared_ofStore ((listsDeclared_recordAll trace).record .promoteScope)).1

theorem declaredScope?_ownStore (context : Context) (element : Element) :
    (ownStore context element).declaredScope? =
      (((ownStore context element).values? Name.defaultScope).bind
        (Dict.get? · Name.valueMember)).bind Value.name? := by
  obtain ⟨annotations, stereotypes⟩ := ownStore_declared context element
  rw [Store.declaredScope?, Store.declaredValues?, annotations, stereotypes]
  rfl

/-- A value that is recorded counts before a default. -/
theorem Store.nameOf?_of_values? {store : Store} {name member found : String}
    (named : ((store.values? name).bind (Dict.get? · member)).bind Value.name? = some found) :
    store.nameOf? name member = some found := by
  obtain ⟨value, recorded, same⟩ := Option.bind_eq_some_iff.mp named
  rw [nameOf?, value?, recorded, Option.some_or, Option.bind_some, same]

private theorem declaredAnnotations_of_buildDeclared {session : Session}
    (empty : session.context.registry = .empty) {element : Element}
    {annotations : List Annotation} (read : session.model.read element = .ok annotations)
    {scope : String}
    (unscoped : (ownStore session.context element).hasDeclaredStereotype Name.scope = false)
    (named : (ownStore session.context element).declaredScope? = some scope) :
    ∃ declared, (session.serve (.buildDeclared element)).1 = some (.ok declared) ∧
      declared.declaredAnnotations =
        Dict.insertNew (ownStore session.context element).declaredAnnotations scope [] := by
  refine ⟨_, session.serve_buildDeclared (.of_empty empty) read, ?_⟩
  have promoted : (ownStore session.context element).promotedScope? = some scope := by
    rw [Store.promotedScope?_eq_nameOf? unscoped
      (Store.hasDeclaredStereotype_of_declaredScope? named)]
    exact Store.nameOf?_of_values? ((declaredScope?_ownStore _ _).symm.trans named)
  have declared := (ownStore session.context element).declaredAnnotations_promoteDefaultScope
  rw [promoted] at declared
  exact (declaredAnnotations_ofStore_promoted _).trans declared

/-! ## Promoted scopes of builds -/

section Promoted

variable {above : List Element} {scope : String}
  (named : (ownStore context target).declaredScope? = some scope)

include named

/-- With no default scope above the element, its own is looked up. -/
private theorem nameOf?_unpromotedStore_of_bare (distinct : (target :: above).Nodup)
    (bare : ∀ other ∈ above, other ≠ target →
      (Store.empty.recordAll (Walk.elementTrace context target true other)).hasStereotype
        Name.defaultScope = false) :
    (unpromotedStore context target (target :: above).reverse).nameOf? Name.defaultScope
      Name.valueMember = some scope := by
  have listed : target ∈ (target :: above).reverse := List.mem_reverse.mpr List.mem_cons_self
  have others : ∀ current ∈ (target :: above).reverse, current ≠ target →
      (Store.empty.recordAll (Walk.elementTrace context target true current)).hasStereotype
        Name.defaultScope = false := by
    intro current among different
    rcases List.mem_cons.mp (List.mem_reverse.mp among) with same | inherited
    · exact absurd same different
    · exact bare current inherited different
  have values := values?_unpromotedStore listed (List.nodup_reverse.mpr distinct) others
  refine Store.nameOf?_of_values? ?_
  rw [values, ← declaredScope?_ownStore]
  exact named

/-- A default scope that stands on the element with a value hides those above. -/
private theorem nameOf?_unpromotedStore_of_written
    (alone : context.WrittenAlone Name.defaultScope)
    (written : (Walk.written? context Name.defaultScope Name.valueMember target).isSome) :
    (unpromotedStore context target (target :: above).reverse).nameOf? Name.defaultScope
      Name.valueMember = some scope := by
  obtain ⟨value, written⟩ := Option.isSome_iff_exists.mp written
  have recorded : ∀ above, Store.memberOf?
      (unpromotedStore context target (target :: above).reverse).annotations Name.defaultScope
        Name.valueMember = some value := by
    intro above
    have found : Store.memberOf?
        (hierarchyStore context target (target :: above).reverse).annotations Name.defaultScope
          Name.valueMember = (target :: above).findSome? _ :=
      memberOf?_hierarchyStore_of_writtenAlone alone target (target :: above)
    rw [hierarchyStore, Store.memberOf?_promoteDefaultScope, List.findSome?_cons, written] at found
    exact found
  have looked : ∀ above,
      ((unpromotedStore context target (target :: above).reverse).values?
        Name.defaultScope).bind (Dict.get? · Name.valueMember) = some value := by
    intro above
    obtain ⟨members, listed, found⟩ := Option.bind_eq_some_iff.mp (recorded above)
    rw [Store.values?, listed, Option.some_or, Option.bind_some]
    exact found
  have own : unpromotedStore context target [target].reverse = ownStore context target := by
    rw [unpromotedStore, List.reverse_singleton, List.flatMap_singleton]
    rfl
  have single := looked []
  rw [own] at single
  rw [declaredScope?_ownStore, single] at named
  exact Store.nameOf?_of_values? (by rw [looked above]; exact named)

end Promoted

private theorem read_of_build {session : Session} {element : Element} {metadata : Metadata}
    (unregistered : session.mutation? (session.model.declaringType element) element = none)
    (built : (session.serve (.build element)).1 = some (.ok metadata))
    (readable : ¬ (ElementBuild.all.walk session.context element).HasDefect) :
    session.model.read element = .ok (session.model.occurrencesOn element) := by
  have answer : (session.serve (ElementBuild.all.request element)).1 = some (.ok metadata) := built
  rw [ElementBuild.serve_request unregistered] at answer
  obtain ⟨complete, _⟩ := Session.conclude_eq_ok (Option.some.inj answer) readable
  obtain ⟨hierarchy, listed, _⟩ := exists_hierarchyStore_of_build unregistered built readable
  obtain ⟨above, rfl⟩ := Model.hierarchy_eq_cons listed
  have found : ElementBuild.all.hierarchy session.context.model element =
      .ok (element :: above) := by
    rw [ElementBuild.hierarchy_of_parentless rfl]
    exact listed
  have unaborted : session.context.model.abort? element = none := by
    rw [ElementBuild.failure_walk found, Option.map_eq_none_iff] at complete
    exact List.findSome?_eq_none_iff.mp complete element (List.mem_reverse.mpr List.mem_cons_self)
  refine (Model.read_of_declares
    (Model.declares_of_mem_hierarchy listed element List.mem_cons_self)).trans ?_
  rw [show session.model.abort? element = none from unaborted]

/-- Of the declared annotations of a build, at most one is promoted, and none where the
element declares a scope or no default scope. The default scope that the element declares
is promoted if nothing above the element records another one, or if it stands on the
element itself; the declared build then promotes the same. -/
theorem promoted_scope_of_build {session : Session} {element : Element} {metadata : Metadata}
    (empty : session.context.registry = .empty)
    (unregistered : session.mutation? (session.model.declaringType element) element = none)
    (built : (session.serve (.build element)).1 = some (.ok metadata))
    (readable : ¬ (ElementBuild.all.walk session.context element).HasDefect) :
    ∃ above, session.model.hierarchy element true false = .ok (element :: above) ∧
      (∃ added, metadata.declaredAnnotations =
        (ownStore session.context element).declaredAnnotations ++ Store.promotion added) ∧
      ((ownStore session.context element).hasDeclaredStereotype Name.scope = true ∨
          (ownStore session.context element).hasDeclaredStereotype Name.defaultScope = false →
        metadata.declaredAnnotations =
          (ownStore session.context element).declaredAnnotations) ∧
      ∀ scope,
        (ownStore session.context element).hasDeclaredStereotype Name.scope = false →
        (ownStore session.context element).declaredScope? = some scope →
        ((∀ other ∈ above, other ≠ element →
            (Store.empty.recordAll
              (Walk.elementTrace session.context element true other)).hasStereotype
                Name.defaultScope = false) ∨
          session.context.WrittenAlone Name.defaultScope ∧
            (Walk.written? session.context Name.defaultScope Name.valueMember
              element).isSome) →
        metadata.declaredAnnotations =
            Dict.insertNew (ownStore session.context element).declaredAnnotations scope [] ∧
          ∃ declared, (session.serve (.buildDeclared element)).1 = some (.ok declared) ∧
            declared.declaredAnnotations = metadata.declaredAnnotations := by
  obtain ⟨hierarchy, listed, same⟩ := exists_hierarchyStore_of_build unregistered built readable
  obtain ⟨above, rfl⟩ := Model.hierarchy_eq_cons listed
  let whole := unpromotedStore session.context element (element :: above).reverse
  have declared : metadata.declaredAnnotations = whole.promoteDefaultScope.declaredAnnotations := by
    rw [same]
    exact declaredAnnotations_ofStore_promoted _
  have distinct := Model.nodup_of_hierarchy listed
  have last : element ∈ (element :: above).reverse := List.mem_reverse.mpr List.mem_cons_self
  obtain ⟨annotations, stereotypes⟩ :=
    unpromotedStore_declared last (List.nodup_reverse.mpr distinct)
  have present : ∀ name, whole.hasDeclaredStereotype name =
      (ownStore session.context element).hasDeclaredStereotype name := by
    intro name
    rw [Store.hasDeclaredStereotype, annotations, stereotypes]
    rfl
  have promoted := whole.declaredAnnotations_promoteDefaultScope
  refine ⟨above, listed, ?_, ?_, ?_⟩
  · obtain ⟨added, result⟩ := whole.promoteDefaultScope_declaredAnnotations
    exact ⟨added, by rw [declared, result, annotations]⟩
  · intro unpromoted
    rw [← present, ← present] at unpromoted
    rw [Store.promotedScope?_eq_none unpromoted] at promoted
    rw [declared, promoted, annotations]
  · intro scope unscoped named own
    have looked : whole.nameOf? Name.defaultScope Name.valueMember = some scope := by
      rcases own with bare | ⟨alone, written⟩
      · exact nameOf?_unpromotedStore_of_bare named distinct bare
      · exact nameOf?_unpromotedStore_of_written named alone written
    have asked := Store.promotedScope?_eq_nameOf? ((present _).trans unscoped)
      ((present _).trans (Store.hasDeclaredStereotype_of_declaredScope? named))
    rw [asked, looked] at promoted
    have result : metadata.declaredAnnotations =
        Dict.insertNew (ownStore session.context element).declaredAnnotations scope [] := by
      rw [declared, promoted, annotations]
    refine ⟨result, ?_⟩
    rw [result]
    exact declaredAnnotations_of_buildDeclared empty (read_of_build unregistered built readable)
      unscoped named

/-- Two classes with a default scope. Of their supertypes, one has another default scope. -/
def requestContext : Context where
  model :=
    { document :=
        { annotations :=
            [("bean.Plain", {}), ("bean.Shared", scoping "bean.Single"),
              ("bean.Local", scoping "bean.Request")]
          elements :=
            [("bean.Bare", { kind := .classType, annotations := [{ name := "bean.Plain" }] }),
              ("bean.Alone", declaring "bean.Bare"),
              ("bean.Base", { kind := .classType, annotations := [{ name := "bean.Shared" }] }),
              ("bean.Bean", declaring "bean.Base")] } }
where
  scoping (scope : String) : AnnotationDeclaration :=
    { annotations :=
        [{ name := Name.defaultScope, members := [(Name.valueMember, .string scope)] }] }
  declaring (supertype : String) : ElementDeclaration :=
    { kind := .classType, supertypes := [supertype], annotations := [{ name := "bean.Local" }] }

theorem requestContext_hierarchy_alone :
    requestContext.model.hierarchy (.declaration "bean.Alone") true false =
      .ok (["bean.Alone", "bean.Bare"].map .declaration) :=
  Model.hierarchy_of_explored rfl rfl
    (.fresh (by decide) rfl (.fresh (by decide) rfl .done)) true

private theorem requestContext_hierarchy_bean :
    requestContext.model.hierarchy (.declaration "bean.Bean") true false =
      .ok (["bean.Bean", "bean.Base"].map .declaration) :=
  Model.hierarchy_of_explored rfl rfl
    (.fresh (by decide) rfl (.fresh (by decide) rfl .done)) true

/-- The supertype has no default scope, so the class has its own. -/
theorem requestContext_alone :
    ∃ metadata declared : Metadata,
      ((Session.fresh requestContext).serve (.build (.declaration "bean.Alone"))).1 =
        some (.ok metadata) ∧
      ((Session.fresh requestContext).serve (.buildDeclared (.declaration "bean.Alone"))).1 =
        some (.ok declared) ∧
      metadata.declaredAnnotations = [("bean.Local", []), ("bean.Request", [])] ∧
      declared.declaredAnnotations = metadata.declaredAnnotations := by
  have built : ((Session.fresh requestContext).serve (.build (.declaration "bean.Alone"))).1 =
      some (.ok _) := (ElementBuild.serve_all_fresh requestContext_hierarchy_alone).trans rfl
  have complete :
      (ElementBuild.all.walk requestContext (.declaration "bean.Alone")).failure = none := by
    rw [ElementBuild.all_walk requestContext_hierarchy_alone]
    rfl
  obtain ⟨above, listed, _, _, promoted⟩ :=
    promoted_scope_of_build (by rfl) (by rfl) built
      (fun ⟨_, defect⟩ => nomatch complete.symm.trans defect)
  cases requestContext_hierarchy_alone.symm.trans listed
  obtain ⟨declares, declared, builtAlone, same⟩ := promoted "bean.Request" rfl rfl (.inl (by
    intro other among _
    cases List.mem_singleton.mp among
    rfl))
  exact ⟨_, declared, built, builtAlone, declares, same⟩

/-- The class declares a default scope, and has the scope of its supertype promoted. -/
theorem requestContext_bean :
    ∃ metadata declared : Metadata,
      ((Session.fresh requestContext).serve (.build (.declaration "bean.Bean"))).1 =
        some (.ok metadata) ∧
      ((Session.fresh requestContext).serve (.buildDeclared (.declaration "bean.Bean"))).1 =
        some (.ok declared) ∧
      metadata.hasDeclaredStereotype Name.scope = false ∧
      Store.memberOf? metadata.declaredStereotypes Name.defaultScope Name.valueMember =
        some (.string "bean.Request") ∧
      metadata.declaredAnnotations = [("bean.Local", []), ("bean.Single", [])] ∧
      declared.declaredAnnotations = [("bean.Local", []), ("bean.Request", [])] :=
  ⟨_, _, (ElementBuild.serve_all_fresh requestContext_hierarchy_bean).trans rfl, rfl, rfl, rfl,
    rfl, rfl⟩

end AnnotationMetadata
