import AnnotationMetadata.Proofs.Session.Registry
import AnnotationMetadata.Proofs.Walk.Chain

set_option autoImplicit false

/-!
# Names without extensions

Extensions are looked up by the names of occurrences in the model, by those of given
annotations and by the targets of aliases. A registry that maps none of these might as
well be empty.
-/

namespace AnnotationMetadata

/-- The names that extensions are looked up by because of a model: those of occurrences,
grouped in a container or not, and those of the targets of aliases. -/
inductive Model.Mentions (model : Model) : String → Prop where
  | occurrence {element : Element} {occurrence : Annotation}
      (listed : occurrence ∈ model.occurrencesOn element) : model.Mentions occurrence.name
  | target {name : String} (named : AliasTarget model name) : model.Mentions name

theorem Model.Mentions.mem_mentionedNames {model : Model} {name : String}
    (mentions : model.Mentions name) : name ∈ model.mentionedNames := by
  rw [mentionedNames, List.mem_eraseDups]
  cases mentions with
  | @occurrence element occurrence listed =>
    refine List.mem_append_left _ (List.mem_append_right _ ?_)
    exact List.mem_flatMap.mpr ⟨element, mem_annotatedElements_of_mem_occurrencesOn listed,
      List.mem_map_of_mem (List.mem_append_right _ listed)⟩
  | target named =>
    obtain ⟨owner, member, found, listed, same⟩ := named
    obtain ⟨declaration, declared⟩ :=
      Option.isSome_iff_exists.mp (memberDeclaration?_isSome_of_mem_aliasesOf listed)
    refine List.mem_append_right _ ?_
    exact List.mem_flatMap.mpr ⟨.member owner member,
      mem_memberElements_of_memberDeclaration? declared,
      List.mem_filterMap.mpr ⟨found, listed, same⟩⟩

/-! ## Lookups by unmapped names -/

namespace Registry

variable {registry : Registry} {name : String}

theorem isMapped_eq_false_iff :
    registry.isMapped name = false ↔
      Dict.get? registry.mapperTable name = none ∧
      Dict.get? registry.transformerTable name = none ∧
      Dict.get? registry.remapperTable (Name.packageOf name) = none := by
  simp [isMapped, Dict.contains, and_assoc]

variable (unmapped : registry.isMapped name = false)

include unmapped

private theorem mappers_of_unmapped : registry.mappers name = [] := by
  rw [mappers, (isMapped_eq_false_iff.mp unmapped).1, Option.getD_none]

private theorem transformers_of_unmapped : registry.transformers name = [] := by
  rw [transformers, (isMapped_eq_false_iff.mp unmapped).2.1, Option.getD_none]

theorem remappersFor_of_unmapped : registry.remappersFor name = [] := by
  rw [remappersFor, remappers, (isMapped_eq_false_iff.mp unmapped).2.2, Option.getD_none]

end Registry

namespace Context

variable {context : Context} {given : List Annotation}
  (mentioned : ∀ name, context.model.Mentions name → context.registry.isMapped name = false)
  (listed : ∀ occurrence ∈ given, context.registry.isMapped occurrence.name = false)

include mentioned listed

theorem isMapped_of_met {aliases : Bool} {occurrence : Annotation}
    (met : Met context.model given aliases occurrence) :
    context.registry.isMapped occurrence.name = false := by
  cases met with
  | carried carried => exact mentioned _ (.occurrence carried)
  | validated carried => exact mentioned _ (.occurrence carried)
  | given among => exact listed _ among

/-- Occurrences are read without changing their names. -/
private theorem isMapped_of_asked {read : Annotation} (asked : Asked context given read) :
    context.registry.isMapped read.name = false := by
  obtain ⟨aliases, occurrence, met, rfl⟩ := asked.exists_met
  have unmapped := isMapped_of_met mentioned listed met
  exact unmapped

private theorem treatsAlike_empty : context.TreatsAlike given .empty where
  mappers aliases occurrence met :=
    (Registry.mappers_of_unmapped (isMapped_of_met mentioned listed met)).symm
  replace {name members} asked declared placement := by
    have unmapped : context.registry.isMapped name = false :=
      isMapped_of_asked mentioned listed asked
    simp only [Walk.replace, Registry.remappersFor_of_unmapped unmapped,
      Registry.transformers_of_unmapped unmapped]
    rfl
  targets name named := by
    have unmapped := mentioned name (.target named)
    simp only [Walk.remapTarget, Registry.remappersFor_of_unmapped unmapped]
    rfl

end Context

/-- Extensions for names that neither the model nor a request mentions are as good as
none: after any run every builder answers as it would without them, and leaves behind
the same. -/
theorem unmapped_names_are_untouched {shared : SharedSession} {run : List (Nat × Request)}
    {builder : Nat} {request : Request}
    (mentioned : ∀ name, shared.session.model.Mentions name →
      shared.session.context.registry.isMapped name = false)
    (given : ∀ call ∈ run ++ [(builder, request)], ∀ occurrence ∈ call.2.given,
      shared.session.context.registry.isMapped occurrence.name = false) :
    ((shared.withRegistry .empty).serveAll run).serve builder request =
      (((shared.serveAll run).serve builder request).1,
        ((shared.serveAll run).serve builder request).2.withRegistry .empty) := by
  have alike : ∀ call ∈ run ++ [(builder, request)],
      shared.session.context.TreatsAlike call.2.given .empty :=
    fun call listed => Context.treatsAlike_empty mentioned (given call listed)
  rw [SharedSession.serveAll_withRegistry fun call listed =>
    alike call (List.mem_append_left _ listed)]
  refine SharedSession.serve_withRegistry builder ?_
  rw [SharedSession.serveAll_context]
  exact alike (builder, request) List.mem_concat_self

/-- A repeatable annotation with a meta-annotation and an alias of another one, beside
extensions for others. -/
def besideContext : Context where
  registry := .ofExtensions [.rename "old.Name" "new.Name", .movePackage "moved" "new"]
  model :=
    { document :=
        { annotations :=
            [("bean.Tag",
                { container := some "bean.Tags"
                  annotations := [{ name := "bean.Mark" }]
                  members :=
                    [("name",
                        { annotations :=
                            [{ name := Name.aliasFor
                               members :=
                                [("member", .string "value"),
                                  ("annotation", .string "bean.Named")] }] })] })]
          elements :=
            [("bean.field",
                { kind := .field
                  annotations :=
                    [{ name := "bean.Tags"
                       members :=
                        [("value",
                          .array
                            [.nested { name := "bean.Tag", members := [("name", .string "a")] },
                              .nested { name := "bean.Tag" }])] }] })] } }

private theorem besideContext_unmapped {name : String}
    (mentions : besideContext.model.Mentions name) :
    besideContext.registry.isMapped name = false := by
  have unmapped : ∀ name ∈ besideContext.model.mentionedNames,
      besideContext.registry.isMapped name = false := by decide +kernel
  exact unmapped name mentions.mem_mentionedNames

/-- One builder builds the field, then another one builds a given annotation over it. -/
theorem besideContext_untouched :
    ∃ metadata : Metadata,
      (((SharedSession.fresh besideContext none).serveAll
        [(0, .build (.declaration "bean.field"))]).serve 1
          (.buildGiven (.declaration "bean.field") [{ name := "given.Tag" }] true)).1 =
        some (.ok metadata) ∧
      (((SharedSession.fresh (besideContext.withRegistry .empty) none).serveAll
        [(0, .build (.declaration "bean.field"))]).serve 1
          (.buildGiven (.declaration "bean.field") [{ name := "given.Tag" }] true)).1 =
        some (.ok metadata) ∧
      metadata.annotationNames = ["bean.Tags", "given.Tag"] ∧
      metadata.stereotypeNames = ["bean.Named", "bean.Mark"] := by
  have mentioned : ∀ name, (SharedSession.fresh besideContext none).session.model.Mentions name →
      (SharedSession.fresh besideContext none).session.context.registry.isMapped name = false :=
    fun _ => besideContext_unmapped
  have given : ∀ call ∈ ([(0, .build (.declaration "bean.field"))] ++
      [(1, .buildGiven (.declaration "bean.field") [{ name := "given.Tag" }] true)] :
        List (Nat × Request)),
      ∀ occurrence ∈ call.2.given,
        (SharedSession.fresh besideContext none).session.context.registry.isMapped
          occurrence.name = false := by decide
  have untouched := unmapped_names_are_untouched mentioned given
  have bare : SharedSession.fresh (besideContext.withRegistry .empty) none =
      (SharedSession.fresh besideContext none).withRegistry .empty := rfl
  obtain ⟨metadata, answer, names⟩ : ∃ metadata : Metadata,
      (((SharedSession.fresh besideContext none).serveAll
        [(0, .build (.declaration "bean.field"))]).serve 1
          (.buildGiven (.declaration "bean.field") [{ name := "given.Tag" }] true)).1 =
        some (.ok metadata) ∧
      metadata.annotationNames = ["bean.Tags", "given.Tag"] ∧
      metadata.stereotypeNames = ["bean.Named", "bean.Mark"] := ⟨_, rfl, rfl, rfl⟩
  rw [bare, untouched]
  exact ⟨metadata, answer, answer, names⟩

end AnnotationMetadata
