import AnnotationMetadata.Proofs.Session.DeclaredBuilds
import AnnotationMetadata.Proofs.Store.GroupItems
import AnnotationMetadata.Proofs.Walk.Invariants

set_option autoImplicit false

/-!
# Stereotypes that aliases set

An alias for a member of another annotation writes that annotation as a stereotype and
then walks its meta-annotations at once. Stereotypes keep what is there, so the written
value counts unless an alias that is followed before has led to another value already.
The meta-annotations of the annotation itself come later in any case.
-/

namespace AnnotationMetadata

variable {context : Context} {source : Walk.Source} {name member : String}

/-- What a recording does to a member of a stereotype. -/
def Recording.stereotypeChanges (name member : String) (recording : Recording) :
    List Store.MemberChange :=
  Store.memberChanges name member (recording.changes false Store.Write.stereotype?)

namespace Walk

/-! ## What aliases change -/

/-- What the meta-annotations of an alias target do to a member of a stereotype. A target
that leads to the alias itself is not walked. -/
def targetChanges (context : Context) (source : Source) (name member target : String) :
    List Store.MemberChange :=
  if source.chain.contains target then []
  else
    (stereotypes context (budget context)
      { ancestors := source.chain, owner := target, declared := source.declared }).flatMap
      (Recording.stereotypeChanges name member)

/-- An alias leads to nothing for a member, apart from what it may write there itself. -/
structure Silent (context : Context) (source : Source) (name member : String)
    (found : MemberAlias) : Prop where
  walked : ∀ target, found.target = some target →
    targetChanges context source name member target = []
  ungrouped : ∀ target, found.target = some target →
    context.model.containerOf? target = some name → member ≠ Name.valueMember

private theorem stereotypes_of_unknown {levels : Nat} {descent : Descent}
    (unknown : context.model.annotationType? descent.owner = none) :
    stereotypes context (levels + 1) descent = [] := by
  have bare : context.model.occurrencesOn (.annotationType descent.owner) = [] := by
    simp [Model.occurrencesOn, Model.writtenOn, unknown]
  have nothing : level context descent = [] := by
    simp [level, readMetas, bare, Plan.ofTrace, bindingTrace, Interception.binding?]
  rw [stereotypes, nothing]
  rfl

theorem shown_record (view : Recording → List Store.MemberChange) (recording : Recording) :
    shown context view [.record recording] = view recording := by
  simp [shown, carryOut, Plan.carryOut, Step.carryOut]

/-- Following an alias changes a member by what it writes and by what its target leads to. -/
theorem shown_writeAliased (aliased : String) (value : Value) (target : String) :
    shown context (Recording.stereotypeChanges name member)
        (writeAliased context source aliased value { name := target }) =
      (match context.model.containerOf? target with
        | some container =>
          if container = name ∧ Name.valueMember = member then
            [.add (.nested
              { name := target, members := [(aliased, value)]
                retention := context.model.retentionOf target })]
          else []
        | none => if target = name ∧ aliased = member then [.keep value] else []) ++
        targetChanges context source name member target := by
  have defaults : shown context (Recording.stereotypeChanges name member)
      (if (context.model.annotationType? target).isSome then
        [.record (context.defaults target)] else []) = [] := by
    split <;> rfl
  have walked : shown context (Recording.stereotypeChanges name member)
      (if source.chain.contains target then []
        else if (context.model.annotationType? target).isSome then
          [.descend { ancestors := source.chain, owner := target, declared := source.declared }]
        else [.expand source.declared source.chain { name := target }]) =
      targetChanges context source name member target := by
    unfold targetChanges
    split
    · rfl
    · split
      · simp [shown, carryOut, Plan.carryOut, Step.carryOut]
      · next unknown =>
        obtain ⟨levels, same⟩ : ∃ levels, budget context = levels + 1 :=
          Nat.exists_eq_succ_of_ne_zero (Nat.ne_of_gt (Nat.pow_pos (Nat.succ_pos _)))
        rw [same, stereotypes_of_unknown (by simpa using unknown)]
        simp [shown, carryOut, Plan.carryOut, Step.carryOut, inline_of_bare]
  rw [← walked, writeAliased, shown_append, defaults, List.nil_append,
    ← List.singleton_append, shown_append, shown_record]
  congr 1
  cases grouped : context.model.containerOf? target with
  | some container =>
    refine (Store.memberChanges_write rfl name member).trans ?_
    by_cases same : container = name
    · by_cases wanted : Name.valueMember = member
      · simp [same, wanted]
      · simp [same, wanted]
    · simp [same]
  | none =>
    refine (Store.memberChanges_write rfl name member).trans ?_
    by_cases same : target = name
    · by_cases wanted : aliased = member
      · simp [same, wanted]
      · simp [same, wanted]
    · simp [same]

/-- What following an alias does to a member of a stereotype. -/
def aliasChanges (context : Context) (source : Source) (name member : String) (written : Value)
    (found : MemberAlias) : List Store.MemberChange :=
  match found.target with
  | none => []
  | some target =>
    shown context (Recording.stereotypeChanges name member)
      (writeAliased context source found.member (context.model.resolve written) { name := target })

section Ungrouped

variable (ungrouped : context.model.containerOf? name = none)

include ungrouped

theorem aliasChanges_of_silent {written : Value} {found : MemberAlias}
    (silent : Silent context source name member found) :
    aliasChanges context source name member written found =
      if found.target = some name ∧ found.member = member then
        [.keep (context.model.resolve written)]
      else [] := by
  unfold aliasChanges
  cases named : found.target with
  | none => simp
  | some target =>
    simp only [shown_writeAliased, silent.walked target named, List.append_nil]
    cases grouped : context.model.containerOf? target with
    | some container =>
      have other : target ≠ name := by
        rintro rfl
        cases grouped.symm.trans ungrouped
      have unadded : ¬ (container = name ∧ Name.valueMember = member) := by
        rintro ⟨rfl, wanted⟩
        exact silent.ungrouped target named grouped wanted.symm
      simp [unadded, other]
    | none => simp

private theorem aliasChanges_itself (written : Value) {found : MemberAlias}
    (named : found.target = some name) :
    aliasChanges context source name found.member written found =
      .keep (context.model.resolve written) ::
        targetChanges context source name found.member name := by
  simp [aliasChanges, named, shown_writeAliased, ungrouped]

end Ungrouped

private theorem shown_readOwn (own : String) (written : Value) (progress : Progress) :
    shown context (Recording.stereotypeChanges name member)
        (readOwn context source own written progress).plan =
      shown context (Recording.stereotypeChanges name member) progress.plan := by
  unfold readOwn
  split
  · rfl
  · rw [shown_append, shown_record]
    exact List.append_nil _

section Empty

variable (empty : context.registry = .empty)

include empty

private theorem shown_followAliases (written : Value) (aliases : List MemberAlias)
    (progress : Progress) :
    shown context (Recording.stereotypeChanges name member)
        (aliases.foldl (followAlias context source written) progress).plan =
      shown context (Recording.stereotypeChanges name member) progress.plan ++
        aliases.flatMap (aliasChanges context source name member written) := by
  have one : ∀ (progress : Progress) (found : MemberAlias),
      shown context (Recording.stereotypeChanges name member)
          (followAlias context source written progress found).plan =
        shown context (Recording.stereotypeChanges name member) progress.plan ++
          aliasChanges context source name member written found := by
    intro progress found
    unfold followAlias aliasChanges
    cases found.target with
    | none => exact (List.append_nil _).symm
    | some target =>
      have itself : remapTarget context target = [{ name := target }] := by
        rw [remapTarget, empty]
        rfl
      simp only [itself, List.flatMap_singleton, shown_append]
  induction aliases generalizing progress with
  | nil => exact (List.append_nil _).symm
  | cons found rest ih => rw [List.foldl_cons, ih, one, List.flatMap_cons, List.append_assoc]

/-- Reading changes a member of a stereotype by the aliases that are followed, in order. -/
private theorem shown_readMembers (written : Members) :
    shown context (Recording.stereotypeChanges name member)
        (readMembers context source true written).plan =
      written.flatMap fun entry =>
        (context.model.aliasesOf (.member source.annotation entry.1)).flatMap
          (aliasChanges context source name member entry.2) := by
  have entries : ∀ progress : Progress,
      shown context (Recording.stereotypeChanges name member)
          (written.foldl (readEntry context source true) progress).plan =
        shown context (Recording.stereotypeChanges name member) progress.plan ++
          written.flatMap fun entry =>
            (context.model.aliasesOf (.member source.annotation entry.1)).flatMap
              (aliasChanges context source name member entry.2) := by
    induction written with
    | nil => exact fun _ => (List.append_nil _).symm
    | cons entry rest ih =>
      intro progress
      rw [List.foldl_cons, ih, readEntry, if_pos rfl, readAliased, shown_readOwn,
        shown_followAliases empty, markInstantiated_plan, List.flatMap_cons, List.append_assoc]
  have start : shown context (Recording.stereotypeChanges name member)
      (runtimeDefaults context source.annotation) = [] := by
    unfold runtimeDefaults
    split <;> rfl
  rw [readMembers, entries, start, List.nil_append]

/-- The changes of the one occurrence on an element start with those of reading it. -/
private theorem exists_memberChanges_of_alone (name member : String) {element : Element}
    {occurrence : Annotation} (alone : context.model.occurrencesOn element = [occurrence])
    (recorded : context.config.isInternal occurrence.name = false) :
    ∃ later, memberChanges context element Store.Write.stereotype? name member element =
      shown context (Recording.stereotypeChanges name member)
          (readMembers context (.ofOccurrence element true [] occurrence.name) true
            occurrence.members).plan ++ later := by
  have read : (populate context element true true [] occurrence).plan =
      (readMembers context (.ofOccurrence element true [] occurrence.name) true
        occurrence.members).plan := by
    simp only [populate, mappers_of_empty empty, Source.ofOccurrence]
  have unwarned : shown context (Recording.stereotypeChanges name member)
      (Plan.ofTrace (deprecation context.config element occurrence.name)) = [] := by
    unfold deprecation
    split <;> rfl
  have same : memberChanges context element Store.Write.stereotype? name member element =
      shown context (Recording.stereotypeChanges name member)
        (occurrences context element true true [occurrence]) := by
    rw [memberChanges, elementTrace, alone, beq_self_eq_true]
    rfl
  rw [same, occurrences]
  simp only [List.filter_cons, recorded, Bool.not_false, if_true, List.filter_nil,
    List.map_singleton, List.flatMap_singleton, shown_append, includeOne,
    populate_mapped_of_empty empty, Bool.false_eq_true, if_false, unwarned, List.nil_append,
    read, List.append_assoc]
  exact ⟨_, rfl⟩

end Empty

private theorem grows_of_mem_memberChanges {target current : Element} {entry : Store.MemberChange}
    (listed : entry ∈ memberChanges context target Store.Write.stereotype? name member current) :
    entry.Grows := by
  obtain ⟨recording, _, changes⟩ := List.mem_flatMap.mp listed
  rcases Store.keep_or_add_of_mem_stereotypeChanges changes with ⟨value, rfl⟩ |
    ⟨_, _, item, rfl, _, _⟩
  · exact .keep value
  · exact .add item

private theorem add_not_mem_memberChanges (empty : context.registry = .empty)
    (apart : context.model.isContainer name = true → member ≠ Name.valueMember)
    {target current : Element} (item : Value) :
    .add item ∉ memberChanges context target Store.Write.stereotype? name member current := by
  intro listed
  obtain ⟨recording, recorded, changes⟩ := List.mem_flatMap.mp listed
  rcases Store.keep_or_add_of_mem_stereotypeChanges changes with ⟨value, same⟩ |
    ⟨declared, parents, _, _, wanted, rfl⟩
  · cases same
  · rcases ofMeta_of_mem_elementTrace empty recorded with ofMeta | ⟨message, same⟩ |
      ⟨container, occurrence, same⟩
    · cases ofMeta with
      | grouped groups => exact apart groups wanted
    · cases same
    · cases container <;> cases same

section Followed

variable {before : Members} {own : String} {first rest : List MemberAlias} {found : MemberAlias}

/-- What is followed before an alias changes a member only as the alias itself does. -/
private theorem exists_flatMap_aliasChanges (source : Source) (after : Members) (value : Value)
    (aliases : context.model.aliasesOf (.member source.annotation own) = first ++ found :: rest)
    (named : found.target = some name) (ungrouped : context.model.containerOf? name = none)
    (only : ∀ entry ∈ before, ∀ other ∈ context.model.aliasesOf (.member source.annotation entry.1),
      other.target = some name → other.member ≠ found.member)
    (silent : ∀ earlier ∈
      before.flatMap (fun entry => context.model.aliasesOf (.member source.annotation entry.1)) ++
        first,
      Silent context source name found.member earlier) :
    ∃ kept later,
      ((before ++ (own, value) :: after).flatMap fun entry =>
        (context.model.aliasesOf (.member source.annotation entry.1)).flatMap
          (aliasChanges context source name found.member entry.2)) =
        kept ++ .keep (context.model.resolve value) :: later ∧
      ∀ entry ∈ kept, entry = .keep (context.model.resolve value) := by
  have unchanged : (before.flatMap fun entry =>
      (context.model.aliasesOf (.member source.annotation entry.1)).flatMap
        (aliasChanges context source name found.member entry.2)) = [] := by
    refine List.flatMap_eq_nil_iff.mpr fun entry listed =>
      List.flatMap_eq_nil_iff.mpr fun other followed => ?_
    have differs := only entry listed other followed
    rw [aliasChanges_of_silent ungrouped (silent other (List.mem_append_left _
      (List.mem_flatMap.mpr ⟨entry, listed, followed⟩))), if_neg]
    exact fun same => differs same.1 same.2
  rw [List.flatMap_append, unchanged, List.nil_append, List.flatMap_cons, aliases,
    List.flatMap_append, List.flatMap_cons, aliasChanges_itself ungrouped value named]
  simp only [List.append_assoc, List.cons_append]
  refine ⟨_, _, rfl, fun entry listed => ?_⟩
  obtain ⟨other, followed, listed⟩ := List.mem_flatMap.mp listed
  rw [aliasChanges_of_silent ungrouped (silent other (List.mem_append_right _ followed))] at listed
  split at listed
  · exact List.mem_singleton.mp listed
  · cases listed

end Followed

end Walk

/-- Without extensions, a written member that is an alias for a member of another
annotation sets it: this annotation is a declared stereotype with the written value,
whatever its meta-annotations, those of the annotation that is written and those of later
aliases say. Only where the member holds the group of a container are annotations added to
the value. Of the aliases that are followed before, none may be for the same member and
none may lead to a value for it. -/
theorem aliased_stereotype_of_build {session : Session}
    (empty : session.context.registry = .empty) {element : Element} {occurrence : Annotation}
    (read : session.model.read element = .ok [occurrence])
    (recorded : session.context.config.isInternal occurrence.name = false)
    {before after : Members} {own : String} {value : Value}
    (written : occurrence.members = before ++ (own, value) :: after)
    {first rest : List MemberAlias} {found : MemberAlias}
    (aliases : session.model.aliasesOf (.member occurrence.name own) = first ++ found :: rest)
    {target : String} (named : found.target = some target)
    (ungrouped : session.model.containerOf? target = none)
    (only : ∀ entry ∈ before, ∀ other ∈ session.model.aliasesOf (.member occurrence.name entry.1),
      other.target = some target → other.member ≠ found.member)
    (silent : ∀ earlier ∈
      before.flatMap (fun entry => session.model.aliasesOf (.member occurrence.name entry.1)) ++
        first,
      Walk.Silent session.context (.ofOccurrence element true [] occurrence.name) target
        found.member earlier) :
    ∃ metadata result,
      (session.serve (.buildDeclared element)).1 = some (.ok metadata) ∧
      Store.memberOf? metadata.declaredStereotypes target found.member = some result ∧
      (result = session.model.resolve value ∨
        Store.Grown (session.model.resolve value) result) ∧
      ((session.model.isContainer target = true → found.member ≠ Name.valueMember) →
        result = session.model.resolve value) := by
  obtain ⟨metadata, built, stereotypes, _⟩ := Session.exists_declared_of_buildDeclared empty read
  have alone := (Model.eq_occurrencesOn_of_read read).symm
  obtain ⟨later, changes⟩ := Walk.exists_memberChanges_of_alone empty target found.member alone
    recorded
  obtain ⟨kept, others, followed, first⟩ := Walk.exists_flatMap_aliasChanges
    (.ofOccurrence element true [] occurrence.name) after value aliases named ungrouped only silent
  rw [Walk.shown_readMembers empty, written] at changes
  replace changes := changes.trans (congrArg (· ++ later) followed)
  simp only [List.append_assoc, List.cons_append] at changes
  have grows : ∀ entry ∈ others ++ later, entry.Grows := fun entry listed =>
    Walk.grows_of_mem_memberChanges
      (changes ▸ List.mem_append_right _ (List.mem_cons_of_mem _ listed))
  obtain ⟨result, reached, grown, same⟩ := Store.changedMember_of_first first grows
  refine ⟨metadata, result, built, ?_, grown, fun apart => same fun item listed => ?_⟩
  · rw [stereotypes, Walk.memberOf?_declaredStereotypes, changes]
    exact reached
  · exact Walk.add_not_mem_memberChanges empty apart item
      (changes ▸ List.mem_append_right _ (List.mem_cons_of_mem _ listed))

/-! ## Values that compete -/

/-- The declaration of a member that is an alias for a member of another annotation. -/
def MemberDeclaration.aliasFor (target member : String) : MemberDeclaration where
  annotations :=
    [{ name := Name.aliasFor
       members := [("annotation", .string target), ("member", .string member)] }]

/-- An annotation whose meta-annotation, and the target of whose last alias, give the target
of an alias in between another value. -/
def labelledContext : Context where
  model :=
    { document :=
        { annotations :=
            [("bean.Labelled",
                { members :=
                    [("group", .aliasFor "bean.Group" Name.valueMember),
                      ("name", .aliasFor "bean.Named" Name.valueMember),
                      ("other", .aliasFor "bean.Other" Name.valueMember)]
                  annotations := [named "meta"] }),
              ("bean.Group", {}),
              ("bean.Named", { annotations := [{ name := "bean.Group" }] }),
              ("bean.Other", { annotations := [named "other"] })]
          elements := [("bean.labelled", { kind := .field, annotations := [labelled] })] } }
where
  named (value : String) : Annotation :=
    { name := "bean.Named", members := [(Name.valueMember, .string value)] }
  labelled : Annotation :=
    { name := "bean.Labelled"
      members := [("group", .string "g"), ("name", .string "x"), ("other", .string "y")] }

theorem labelledContext_declared :
    ∃ metadata,
      ((Session.fresh labelledContext).serve (.buildDeclared (.declaration "bean.labelled"))).1 =
        some (.ok metadata) ∧
      Store.memberOf? metadata.declaredStereotypes "bean.Named" Name.valueMember =
        some (.string "x") := by
  have silent : Walk.Silent labelledContext
      (.ofOccurrence (.declaration "bean.labelled") true [] "bean.Labelled") "bean.Named"
      Name.valueMember ⟨Name.valueMember, some "bean.Group", true⟩ :=
    ⟨fun _ named => by cases named; rfl, fun _ named grouped => by cases named; cases grouped⟩
  have empty : (Session.fresh labelledContext).context.registry = .empty := rfl
  have read : (Session.fresh labelledContext).model.read (.declaration "bean.labelled") =
      .ok [labelledContext.labelled] := rfl
  have written : labelledContext.labelled.members =
      [("group", .string "g")] ++ ("name", .string "x") :: [("other", .string "y")] := rfl
  have aliases : (Session.fresh labelledContext).model.aliasesOf
      (.member labelledContext.labelled.name "name") =
        [] ++ ⟨Name.valueMember, some "bean.Named", true⟩ :: [] := rfl
  obtain ⟨metadata, result, built, found, _, same⟩ := aliased_stereotype_of_build empty read
    (by decide) written aliases rfl rfl (by decide) (fun earlier listed => by
      have first : earlier = ⟨Name.valueMember, some "bean.Group", true⟩ :=
        List.mem_singleton.mp listed
      exact first ▸ silent)
  exact ⟨metadata, built, found.trans (congrArg some (same (by decide)))⟩

/-- An alias for the member of a container, in which a meta-annotation is grouped, and an
alias that is followed after another one whose target carries its target. -/
def overtakenContext : Context where
  model :=
    { document :=
        { annotations :=
            [("bean.Grouped",
                { members := [("name", .aliasFor "bean.Labels" Name.valueMember)]
                  annotations := [{ name := "bean.Label" }] }),
              ("bean.Label", { container := some "bean.Labels" }),
              ("bean.Ordered",
                { members :=
                    [("other", .aliasFor "bean.First" Name.valueMember),
                      ("name", .aliasFor "bean.Named" Name.valueMember)] }),
              ("bean.First",
                { annotations :=
                    [{ name := "bean.Named", members := [(Name.valueMember, .string "first")] }] })]
          elements :=
            [("bean.grouped", { kind := .field, annotations := [grouped] }),
              ("bean.ordered", { kind := .field, annotations := [ordered] })] } }
where
  grouped : Annotation := { name := "bean.Grouped", members := [("name", .string "x")] }
  ordered : Annotation :=
    { name := "bean.Ordered", members := [("other", .string "y"), ("name", .string "x")] }

/-- The group takes the written value as its first item, and the meta-annotation of the
earlier target comes before the written value. -/
theorem overtakenContext_declared :
    overtakenContext.registry = .empty ∧
    (overtakenContext.model.read (.declaration "bean.grouped") = .ok [overtakenContext.grouped] ∧
      overtakenContext.config.isInternal "bean.Grouped" = false ∧
      overtakenContext.model.aliasesOf (.member "bean.Grouped" "name") =
        [⟨Name.valueMember, some "bean.Labels", true⟩] ∧
      overtakenContext.model.containerOf? "bean.Labels" = none ∧
      ∃ metadata,
        ((Session.fresh overtakenContext).serve (.buildDeclared (.declaration "bean.grouped"))).1 =
          some (.ok metadata) ∧
        Store.memberOf? metadata.declaredStereotypes "bean.Labels" Name.valueMember =
          some (.array [.string "x", .nested { name := "bean.Label" }])) ∧
    (overtakenContext.model.read (.declaration "bean.ordered") = .ok [overtakenContext.ordered] ∧
      overtakenContext.config.isInternal "bean.Ordered" = false ∧
      overtakenContext.model.aliasesOf (.member "bean.Ordered" "name") =
        [⟨Name.valueMember, some "bean.Named", true⟩] ∧
      overtakenContext.model.aliasesOf (.member "bean.Ordered" "other") =
        [⟨Name.valueMember, some "bean.First", true⟩] ∧
      overtakenContext.model.containerOf? "bean.Named" = none ∧
      ∃ metadata,
        ((Session.fresh overtakenContext).serve (.buildDeclared (.declaration "bean.ordered"))).1 =
          some (.ok metadata) ∧
        Store.memberOf? metadata.declaredStereotypes "bean.Named" Name.valueMember =
          some (.string "first")) := by
  have appended : Value.insertUnlisted [.string "x"] (.nested { name := "bean.Label" }) =
      [.string "x", .nested { name := "bean.Label" }] := by
    simp [Value.insertUnlisted, Value.agrees]
  refine ⟨rfl, ⟨rfl, by decide, rfl, rfl, _, rfl, ?_⟩, rfl, by decide, rfl, rfl, rfl, _, rfl, rfl⟩
  rw [← appended]
  rfl

end AnnotationMetadata
