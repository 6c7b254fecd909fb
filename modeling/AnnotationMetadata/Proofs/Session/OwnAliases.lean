import AnnotationMetadata.Proofs.Session.DeclaredBuilds
import AnnotationMetadata.Proofs.Walk.OwnAliases

set_option autoImplicit false

/-!
# Members that alias each other

An annotation that stands on an element once is declared with the members that are
written on it and those that they are aliases for, and with no others. A written alias
counts before the member itself, and of several aliases the last one.
-/

namespace AnnotationMetadata

/-- Without extensions, the members that a build declares for an annotation are those
that are written on its one occurrence and those that they alias within the annotation.
A member that is aliased has the value of the last written alias for it, wherever that
stands and whether the member is written or not; any other member has its own. -/
theorem declared_members_of_build {session : Session} (empty : session.context.registry = .empty)
    {element : Element} {annotations : List Annotation} {occurrence : Annotation}
    (read : session.model.read element = .ok annotations)
    (single : annotations.filter (fun other => other.name == occurrence.name) = [occurrence])
    (ungrouped : session.model.containerOf? occurrence.name = none)
    (groupless : session.model.isContainer occurrence.name = false)
    (unbound : occurrence.name ≠ Name.interceptorBindings)
    (recorded : session.context.config.isInternal occurrence.name = false)
    (plain : ∀ entry ∈ occurrence.members,
      session.model.hasAnnotation (.member occurrence.name entry.1) Name.instantiatedMember =
        false) :
    ∃ metadata members,
      (session.serve (.buildDeclared element)).1 = some (.ok metadata) ∧
      Dict.get? metadata.declaredAnnotations occurrence.name = some members ∧
      (∀ member, member ∈ Dict.keys members ↔
        member ∈ Dict.keys occurrence.members ∨
          ∃ entry ∈ occurrence.members,
            session.model.isOwnAlias occurrence.name entry.1 member = true) ∧
      ∀ member, Dict.get? members member =
        ((session.model.lastAliased? occurrence.name member occurrence.members).or
          (Dict.get? occurrence.members member)).map session.model.resolve := by
  have alone : session.context.WrittenAlone occurrence.name :=
    ⟨empty, ungrouped, groupless, unbound⟩
  have one : (Walk.recordedOn session.context element).filter
      (fun other => other.name == occurrence.name) = [occurrence] := by
    have listed : session.context.model.occurrencesOn element = annotations :=
      (Model.eq_occurrencesOn_of_read read).symm
    rw [Walk.recordedOn, listed, List.filter_comm, single]
    simp [recorded]
  obtain ⟨metadata, built, _, added, declared⟩ :=
    Session.exists_declared_of_buildDeclared empty read
  have members := Walk.get?_declaredChanges_of_writtenAlone alone one
  have values : ∀ member, Dict.get? (session.model.reading true occurrence).members member = _ :=
    Model.get?_reading plain
  refine ⟨metadata, (session.model.reading true occurrence).members, built, ?_, ?_, values⟩
  · rw [declared, Dict.get?_append, members]
    rfl
  · intro member
    have present : member ∈ Dict.keys (session.model.reading true occurrence).members ↔
        (((session.model.lastAliased? occurrence.name member occurrence.members).or
          (Dict.get? occurrence.members member)).map session.model.resolve).isSome = true := by
      rw [← values, Dict.mem_keys_iff, Option.isSome_iff_exists]
    rw [present, Option.isSome_map, Option.isSome_or, Bool.or_eq_true,
      Model.lastAliased?_isSome_iff, or_comm, Dict.mem_keys_iff, Option.isSome_iff_exists]

/-- An annotation with two aliases for a third member, which is written between them. -/
def titledContext : Context where
  model :=
    { document :=
        { annotations :=
            [("bean.Titled",
                { members :=
                    [(Name.valueMember, {}), ("name", aliasForValue),
                      ("title", aliasForValue)] })]
          elements :=
            [("bean.titled", { kind := .field, annotations := [titled] })] } }
where
  aliasForValue : MemberDeclaration :=
    { annotations :=
        [{ name := Name.aliasFor, members := [("member", .string Name.valueMember)] }] }
  titled : Annotation :=
    { name := "bean.Titled"
      members :=
        [("name", .string "x"), (Name.valueMember, .string "v"), ("title", .string "y")] }

/-- The last alias counts, although the first one and the member itself come before. -/
theorem titledContext_declared :
    ∃ metadata members,
      ((Session.fresh titledContext).serve (.buildDeclared (.declaration "bean.titled"))).1 =
        some (.ok metadata) ∧
      Dict.get? metadata.declaredAnnotations "bean.Titled" = some members ∧
      Dict.get? members Name.valueMember = some (.string "y") ∧
      Dict.get? members "name" = some (.string "x") := by
  have empty : (Session.fresh titledContext).context.registry = .empty := rfl
  have read : (Session.fresh titledContext).model.read (.declaration "bean.titled") =
      .ok [titledContext.titled] := rfl
  have single : [titledContext.titled].filter
      (fun other => other.name == titledContext.titled.name) = [titledContext.titled] := rfl
  obtain ⟨metadata, members, built, declared, _, values⟩ :=
    declared_members_of_build empty read single (by rfl) (by rfl) (by decide) (by rfl) (by decide)
  exact ⟨metadata, members, built, declared, (values _).trans rfl, (values _).trans rfl⟩

end AnnotationMetadata
