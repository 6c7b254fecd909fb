import AnnotationMetadata.Proofs.Model.Readability
import AnnotationMetadata.Proofs.Session.RecordedParents
import AnnotationMetadata.Proofs.Store.GivenDefaults
import AnnotationMetadata.Proofs.Walk.Outputs
import AnnotationMetadata.Proofs.Walk.Recordings

set_option autoImplicit false

/-!
# Added and declared annotations

An annotation that is added to metadata is written with the members that it is given.
One that stands on an element is read first: its members are followed as aliases, within
the annotation and to others, and values are resolved. Apart from what reading does, and
from promoting a default scope, adding an annotation records what declaring it records.
-/

namespace AnnotationMetadata

variable {context : Context}

namespace Store

private theorem recordAll_of_settled {store : Store} {trace : Trace}
    (settled : ∀ recording ∈ trace, store.record recording = store) :
    store.recordAll trace = store := by
  induction trace with
  | nil => rfl
  | cons recording rest ih =>
    rw [recordAll_cons, settled recording List.mem_cons_self]
    exact ih fun later member => settled later (List.mem_cons_of_mem _ member)

private theorem recordAll_eq_write {trace : Trace} {name : String} {members : Members}
    (only : ∀ recording ∈ trace, recording = .write (.defaults name members) ∨
      ∃ read, recording = .read read)
    (given : .write (.defaults name members) ∈ trace) (store : Store) :
    store.recordAll trace = store.write (.defaults name members) := by
  induction trace with
  | nil => cases given
  | cons recording rest ih =>
    rcases only recording List.mem_cons_self with rfl | ⟨read, rfl⟩
    · -- Once the defaults are given, nothing that follows changes the store.
      rw [recordAll_cons]
      refine recordAll_of_settled ?_
      intro later member
      rcases only later (List.mem_cons_of_mem _ member) with rfl | ⟨read, rfl⟩
      · have again : (store.recordAll [.write (.defaults name members)]).write
            (.defaults name members) = store.recordAll [.write (.defaults name members)] :=
          write_defaults_recordAll List.mem_cons_self store
        exact again
      · rfl
    · rcases List.mem_cons.mp given with same | below
      · cases same
      · exact ih (fun later member => only later (List.mem_cons_of_mem _ member)) below

end Store

namespace Walk

/-! ## The walks -/

/-- The recordings of reading an occurrence on an element. -/
def readingTrace (context : Context) (element : Element) (occurrence : Annotation) : Trace :=
  carryOut context (populate context element true true [] occurrence).plan

/-- The walk of the meta-annotations of a declared annotation. -/
def metaTrace (context : Context) (name : String) : Trace :=
  stereotypes context (budget context) { ancestors := [], owner := name, declared := true }

/-- What the walk of an element records for an occurrence that alone stands on it. -/
def aloneTrace (context : Context) (element : Element) (occurrence : Annotation) : Trace :=
  readingTrace context element occurrence ++
    Placement.direct.writeIn true (context.model.containerOf? occurrence.name)
        (context.model.reading true occurrence) ::
      metaTrace context occurrence.name

theorem added_of_known (given : Annotation)
    (known : (context.model.annotationType? given.name).isSome)
    (unexcluded : context.config.annotateExcludes = []) :
    added context given =
      Placement.direct.writeIn true (context.model.containerOf? given.name)
          { given with retention := context.model.retentionOf given.name } ::
        context.defaults given.name :: metaTrace context given.name := by
  have unknown : (context.model.annotationType? given.name).isNone = false := by
    simpa [Option.isSome_iff_ne_none] using known
  simp only [added, addition, unknown, unexcluded]
  simp [carryOut, Plan.carryOut, Step.carryOut, metaTrace]

section Alone

variable {target : Element} {occurrence : Annotation}

/-- The declared build walks the element alone. -/
theorem element_declared (declares : context.model.Declares target) :
    element context none target ElementBuild.declared.options =
      elements context target true [target] := by
  have listed : context.model.hierarchy target true true = .ok [target] := by
    cases target with
    | declaration name =>
      obtain ⟨declaration, found⟩ := Option.isSome_iff_exists.mp declares
      simp [Model.hierarchy, found]
    | annotationType name => rfl
    | member owner name => rfl
  have combined : combinedHierarchy context.model none target ElementBuild.declared.options =
      .ok [target] := by
    simp only [combinedHierarchy, ElementBuild.options, listed]
    rfl
  simp only [element, combined, List.reverse_singleton]
  rfl

theorem element_declaredOnly {annotations : List Annotation}
    (read : context.model.read target = .ok annotations) :
    element context none target ElementBuild.declared.options =
      { trace := elementTrace context target true target ++ [.promoteScope] } := by
  have declares : context.model.Declares target := by
    cases target with
    | declaration name =>
      rw [Model.Declares, Option.isSome_iff_ne_none]
      intro unknown
      rw [Model.read, unknown] at read
      cases read
    | annotationType name => trivial
    | member owner name => trivial
  have own := Model.eq_occurrencesOn_of_read read
  subst own
  rw [element_declared declares, elements, read]
  rfl

theorem elementTrace_alone (empty : context.registry = .empty)
    (alone : context.model.occurrencesOn target = [occurrence])
    (recorded : context.config.isInternal occurrence.name = false)
    (root : isRoot context.config occurrence.name = true) :
    elementTrace context target true target =
      deprecation context.config target occurrence.name ++
        aloneTrace context target occurrence := by
  have included : includeOne context target true true occurrence =
      ⟨occurrence.name,
        Plan.ofTrace (deprecation context.config target occurrence.name) ++
            (populate context target true true [] occurrence).plan ++
          [.record (Placement.direct.writeIn true (context.model.containerOf? occurrence.name)
            (context.model.reading true occurrence))], true⟩ := by
    simp only [includeOne, populate_mapped_of_empty empty, replace_of_empty empty,
      populate_members, Bool.false_eq_true, if_false]
    rfl
  have planned : occurrences context target true true [occurrence] =
      (includeOne context target true true occurrence).plan ++
        [.descend { ancestors := [], owner := occurrence.name, declared := true }] := by
    simp [occurrences, recorded, included, root]
  have warned :
      carryOut context (Plan.ofTrace (deprecation context.config target occurrence.name)) =
        deprecation context.config target occurrence.name := by
    simp [carryOut, Plan.carryOut, Plan.ofTrace, Step.carryOut, List.flatMap_map]
  rw [elementTrace, alone, beq_self_eq_true, planned, included]
  simp only [carryOut, Plan.carryOut, List.flatMap_append] at warned ⊢
  rw [warned]
  simp [aloneTrace, readingTrace, metaTrace, carryOut, Plan.carryOut, Step.carryOut]

end Alone

theorem defaults_mem_readingTrace {target : Element} {occurrence : Annotation}
    (kept : context.model.retentionOf occurrence.name = .runtime) :
    context.defaults occurrence.name ∈ readingTrace context target occurrence := by
  have planned : Step.record (context.defaults occurrence.name) ∈
      (populate context target true true [] occurrence).plan := by
    refine runtimeDefaults_subset_populate ?_
    rw [runtimeDefaults, if_pos kept]
    exact List.mem_singleton_self _
  exact List.mem_flatMap.mpr ⟨_, planned, List.mem_singleton_self _⟩

/-- Where no member is an alias for a member of another annotation, reading records nothing
but defaults and values that were read. -/
private theorem eq_defaults_or_read {target : Element} {occurrence : Annotation}
    (empty : context.registry = .empty)
    (own : ∀ member, ∀ found ∈ context.model.aliasesOf (.member occurrence.name member),
      found.target = none) {recording : Recording}
    (recorded : recording ∈ readingTrace context target occurrence) :
    recording = context.defaults occurrence.name ∨ ∃ value, recording = .read value := by
  obtain ⟨step, planned, recorded⟩ := List.mem_flatMap.mp recorded
  rcases step_of_mem_populate planned with taken | ⟨registered, _⟩
  · cases taken with
    | defaults => exact .inl (List.mem_singleton.mp recorded)
    | read => exact .inr ⟨_, List.mem_singleton.mp recorded⟩
    | aliased listed named =>
      rw [own _ _ listed] at named
      cases named
  · exact absurd (mappers_of_empty empty _) registered

end Walk

/-! ## Answers -/

theorem Session.serve_buildDeclared {session : Session} (finish : Walk.AllFinish session.context)
    {element : Element} {annotations : List Annotation}
    (read : session.model.read element = .ok annotations) :
    (session.serve (.buildDeclared element)).1 =
      some (.ok (.ofStore (Store.empty.recordAll
        (Walk.elementTrace session.context element true element)).promoteDefaultScope)) := by
  have walk := Walk.element_declaredOnly read
  have finished := walk_finished finish (.buildDeclared element)
  have same : (Request.buildDeclared element).walk session.context =
      Walk.element session.context none element ElementBuild.declared.options := rfl
  rw [same, walk] at finished
  have built : (session.serve (.buildDeclared element)).1 =
      some (session.conclude element .empty
        (Walk.element session.context none element ElementBuild.declared.options)).1 := rfl
  rw [built, walk, conclude_of_finished (finish.readsEnd _) finished,
    Store.recordAll_append]
  rfl

section Added

variable {element : Element} {occurrence : Annotation}

theorem recordAll_elementTrace_alone (empty : context.registry = .empty)
    (alone : context.model.occurrencesOn element = [occurrence])
    (recorded : context.config.isInternal occurrence.name = false)
    (root : Walk.isRoot context.config occurrence.name = true) :
    Store.empty.recordAll (Walk.elementTrace context element true element) =
      Store.empty.recordAll (Walk.aloneTrace context element occurrence) := by
  have unwarned : Store.empty.recordAll
      (Walk.deprecation context.config element occurrence.name) = .empty := by
    unfold Walk.deprecation
    split <;> rfl
  rw [Walk.elementTrace_alone empty alone recorded root, Store.recordAll_append, unwarned]

private theorem exists_hasStereotype_aloneTrace (empty : context.registry = .empty)
    (alone : context.model.occurrencesOn element = [occurrence])
    (recorded : context.config.isInternal occurrence.name = false)
    (root : Walk.isRoot context.config occurrence.name = true) :
    ∃ key, (Store.empty.recordAll
      (Walk.aloneTrace context element occurrence)).hasStereotype key = true := by
  obtain ⟨write, written, records⟩ := Placement.exists_writeIn .direct true
    (context.model.containerOf? occurrence.name) (context.model.reading true occurrence)
  obtain ⟨key, named⟩ := ((records occurrence.name).mpr (.inl rfl)).exists_key?
  have listed : .write write ∈ Walk.elementTrace context element true element := by
    rw [Walk.elementTrace_alone empty alone recorded root, Walk.aloneTrace, ← written]
    simp
  rw [← recordAll_elementTrace_alone empty alone recorded root]
  exact ⟨key, (Store.hasStereotype_recordAll Walk.promoteScope_not_mem_elementTrace).mpr
    (.inr ⟨write, listed, named⟩)⟩

section Known

variable (known : (context.model.annotationType? occurrence.name).isSome)
  (unexcluded : context.config.annotateExcludes = [])

include known unexcluded

theorem recordAll_added_reading (store : Store) :
    store.recordAll (Walk.added context (context.model.reading true occurrence)) =
      ((store.record (Placement.direct.writeIn true (context.model.containerOf? occurrence.name)
          (context.model.reading true occurrence))).write
        (.defaults occurrence.name (context.model.defaultsOf occurrence.name))).recordAll
          (Walk.metaTrace context occurrence.name) := by
  rw [Walk.added_of_known (context.model.reading true occurrence) known unexcluded]
  rfl

variable (kept : context.model.retentionOf occurrence.name = .runtime)

include kept

/-- Added to the store of what reading an annotation records, the annotation as it is read
makes the store of the annotation that stands on an element. -/
private theorem recordAll_added_over_reading :
    (Store.empty.recordAll (Walk.readingTrace context element occurrence)).recordAll
        (Walk.added context (context.model.reading true occurrence)) =
      Store.empty.recordAll (Walk.aloneTrace context element occurrence) := by
  have given : context.defaults occurrence.name ∈
      Walk.readingTrace context element occurrence ++
        [Placement.direct.writeIn true (context.model.containerOf? occurrence.name)
          (context.model.reading true occurrence)] :=
    List.mem_append_left _ (Walk.defaults_mem_readingTrace kept)
  have again := Store.write_defaults_recordAll given .empty
  rw [Store.recordAll_append] at again
  rw [recordAll_added_reading known unexcluded, Walk.aloneTrace, Store.recordAll_append]
  exact congrArg (Store.recordAll · (Walk.metaTrace context occurrence.name)) again

/-- Where reading records nothing for other annotations, it makes that store by itself. -/
private theorem recordAll_added_of_own (empty : context.registry = .empty)
    (own : ∀ member, ∀ found ∈ context.model.aliasesOf (.member occurrence.name member),
      found.target = none) :
    Store.empty.recordAll (Walk.added context (context.model.reading true occurrence)) =
      Store.empty.recordAll (Walk.aloneTrace context element occurrence) := by
  obtain ⟨write, written, records⟩ := Placement.exists_writeIn .direct true
    (context.model.containerOf? occurrence.name) (context.model.reading true occurrence)
  obtain ⟨key, named⟩ := ((records occurrence.name).mpr (.inl rfl)).exists_key?
  have given : context.defaults occurrence.name ∈ Walk.readingTrace context element occurrence :=
    Walk.defaults_mem_readingTrace kept
  have read := Store.recordAll_eq_write
    (fun _ recorded => Walk.eq_defaults_or_read empty own recorded) given .empty
  have swapped := Store.write_defaults_comm .empty named occurrence.name
    (context.model.defaultsOf occurrence.name)
  rw [recordAll_added_reading known unexcluded, Walk.aloneTrace, Store.recordAll_append, read,
    written]
  exact congrArg (Store.recordAll · (Walk.metaTrace context occurrence.name)) swapped

end Known

end Added

/-- Declaring an annotation and adding it as it is read make the same store, up to the scope
that a build promotes, once the store has what reading the annotation records. Where no
member is an alias for a member of another annotation, reading records nothing that adding
does not, and the annotation can be added to empty metadata. -/
theorem annotate_of_reading {session : Session} (empty : session.context.registry = .empty)
    (unexcluded : session.context.config.annotateExcludes = []) {element : Element}
    {occurrence given : Annotation} (read : session.model.read element = .ok [occurrence])
    (known : (session.model.annotationType? occurrence.name).isSome)
    (kept : session.model.retentionOf occurrence.name = .runtime)
    (recorded : session.context.config.isInternal occurrence.name = false)
    (root : Walk.isRoot session.context.config occurrence.name = true)
    (named : given.name = occurrence.name)
    (members : given.members = (session.model.reading true occurrence).members)
    (bare : given.stereotypes = []) :
    ∃ store,
      (session.serve (.buildDeclared element)).1 =
        some (.ok (.store store.promoteDefaultScope)) ∧
      (session.serve (.annotate
          (.store (Store.empty.recordAll (Walk.readingTrace session.context element occurrence)))
          given)).1 = some (.ok (.store store)) ∧
      ((∀ member, ∀ found ∈ session.model.aliasesOf (.member occurrence.name member),
          found.target = none) →
        (session.serve (.annotate .empty given)).1 = some (.ok (.store store))) := by
  have finish : Walk.AllFinish session.context := .of_empty empty
  have alone := (Model.eq_occurrencesOn_of_read read).symm
  obtain ⟨key, present⟩ := exists_hasStereotype_aloneTrace empty alone recorded root
  have full := Metadata.ofStore_eq_store (Store.isEmpty_eq_false present)
  have promoted := Metadata.ofStore_eq_store
    (Store.isEmpty_eq_false (Store.hasStereotype_promoteDefaultScope present))
  have same : Walk.added session.context given =
      Walk.added session.context (session.context.model.reading true occurrence) := by
    obtain ⟨name, _, retention, stereotypes⟩ := given
    subst named members bare
    have left := Walk.added_of_known
      ⟨occurrence.name, (session.model.reading true occurrence).members, retention, []⟩ known
      unexcluded
    have right := Walk.added_of_known (session.context.model.reading true occurrence) known
      unexcluded
    exact left.trans right.symm
  refine ⟨Store.empty.recordAll (Walk.aloneTrace session.context element occurrence), ?_, ?_, ?_⟩
  · rw [session.serve_buildDeclared finish read,
      recordAll_elementTrace_alone empty alone recorded root, promoted]
  · rw [session.serve_annotate finish, same, Metadata.declaring,
      recordAll_added_over_reading known unexcluded kept, full]
  · intro own
    rw [session.serve_annotate finish, same, Metadata.declaring,
      recordAll_added_of_own known unexcluded kept empty own, full]

/-- An annotation with a default scope. One of its members is an alias for the other. -/
def namedContext : Context where
  config := { annotateExcludes := [] }
  model :=
    { document :=
        { annotations :=
            [("bean.Named",
                { members :=
                    [(Name.valueMember, {}),
                      ("name",
                        { annotations :=
                            [{ name := Name.aliasFor
                               members := [("member", .string Name.valueMember)] }] })]
                  annotations :=
                    [{ name := Name.defaultScope
                       members := [(Name.valueMember, .string "bean.Scoped")] }] })]
          elements :=
            [("bean.field",
                { kind := .field
                  annotations :=
                    [{ name := "bean.Named", members := [("name", .string "x")] }] })] } }

private theorem namedContext_aliases (member : String) :
    ∀ found ∈ namedContext.model.aliasesOf (.member "bean.Named" member), found.target = none := by
  by_cases named : "name" = member
  · subst named
    have own : namedContext.model.aliasesOf (.member "bean.Named" "name") =
        [⟨Name.valueMember, none, false⟩] := by
      rfl
    rw [own]
    intro found listed
    rw [List.mem_singleton.mp listed]
  · have bare : namedContext.model.writtenOn (.member "bean.Named" member) = [] := by
      by_cases value : Name.valueMember = member
      · simp [Model.writtenOn, Model.memberDeclaration?, Model.annotationType?, namedContext,
          Dict.get?, value]
      · simp [Model.writtenOn, Model.memberDeclaration?, Model.annotationType?, namedContext,
          Dict.get?, value, named]
    intro found listed
    simp [Model.aliasesOf, Model.alias?, Model.membersOn, bare, MemberAlias.ofMembers?,
      Dict.get?] at listed

/-- Added as it is read, with both of its members, the annotation is recorded as the build
records it, but for the promoted scope. -/
theorem namedContext_added_as_read :
    ∃ store : Store,
      ((Session.fresh namedContext).serve (.buildDeclared (.declaration "bean.field"))).1 =
        some (.ok (.store store.promoteDefaultScope)) ∧
      ((Session.fresh namedContext).serve
        (.annotate .empty
          { name := "bean.Named"
            members := [(Name.valueMember, .string "x"), ("name", .string "x")] })).1 =
        some (.ok (.store store)) := by
  have empty : (Session.fresh namedContext).context.registry = .empty := rfl
  have read : (Session.fresh namedContext).model.read (.declaration "bean.field") =
      .ok [{ name := "bean.Named", members := [("name", .string "x")] }] := rfl
  have members : ({ name := "bean.Named"
                    members := [(Name.valueMember, .string "x"), ("name", .string "x")] } :
        Annotation).members =
      ((Session.fresh namedContext).model.reading true
        { name := "bean.Named", members := [("name", .string "x")] }).members := rfl
  obtain ⟨store, declared, _, added⟩ := annotate_of_reading empty rfl read rfl rfl (by decide)
    (by decide) (by rfl) members (by rfl)
  exact ⟨store, declared, added namedContext_aliases⟩

/-- The annotation alone stands on the field, with everything that is asked of it; added as
it stands there, it misses a member and the scope that the build records. -/
theorem namedContext_added_as_written :
    namedContext.registry = .empty ∧ namedContext.config.annotateExcludes = [] ∧
    namedContext.model.read (.declaration "bean.field") =
      .ok [{ name := "bean.Named", members := [("name", .string "x")] }] ∧
    (namedContext.model.annotationType? "bean.Named").isSome = true ∧
    namedContext.model.retentionOf "bean.Named" = .runtime ∧
    namedContext.config.isInternal "bean.Named" = false ∧
    Walk.isRoot namedContext.config "bean.Named" = true ∧
    namedContext.model.isContainer "bean.Named" = false ∧
    ∃ declared added : Metadata,
      ((Session.fresh namedContext).serve (.buildDeclared (.declaration "bean.field"))).1 =
        some (.ok declared) ∧
      ((Session.fresh namedContext).serve
        (.annotate .empty { name := "bean.Named", members := [("name", .string "x")] })).1 =
        some (.ok added) ∧
      declared.declaredAnnotations =
        [("bean.Named", [(Name.valueMember, .string "x"), ("name", .string "x")]),
          ("bean.Scoped", [])] ∧
      added.declaredAnnotations = [("bean.Named", [("name", .string "x")])] :=
  ⟨rfl, rfl, rfl, rfl, rfl, by decide, by decide, by decide, _, _, rfl, rfl, rfl, rfl⟩

end AnnotationMetadata
