import AnnotationMetadata.Proofs.Session.RegisteredDefaults

set_option autoImplicit false

/-!
# Whose defaults are registered

Without extensions, reading an annotation registers its defaults only if it is kept at
runtime. Two other places register defaults without asking for the retention: an alias to a
member of another annotation, and adding an annotation. There are no more.
-/

namespace AnnotationMetadata

namespace Session

variable {P : String → Prop}

/-- All annotations that the session has defaults of have a property. -/
def RegistersOnly (P : String → Prop) (session : Session) : Prop :=
  ∀ name ∈ Dict.keys session.defaults, P name

/-! ## Taking in a trace -/

theorem RegistersOnly.foldl_note {session : Session} (before : session.RegistersOnly P)
    {trace : Trace} (gives : ∀ recording ∈ trace, recording.GivesFor P) :
    (trace.foldl note session).RegistersOnly P := by
  intro name registered
  rw [foldl_note_defaults, Store.mem_keys_addTable] at registered
  rcases registered with held | given
  · exact before name held
  · obtain ⟨entry, listed, rfl⟩ := List.mem_map.mp given
    obtain ⟨recording, recorded, listed⟩ := List.mem_flatMap.mp listed
    exact gives recording recorded entry listed

/-- Validation walks the annotations of a member, and reporting registers nothing. -/
theorem RegistersOnly.validate {session : Session} (before : session.RegistersOnly P)
    (walks : ∀ recording, Walk.OfElements session.context recording → recording.GivesFor P)
    (validator : Validator) (read : ReadValue) :
    (session.validate validator read).RegistersOnly P := by
  have noted : ((Walk.annotationMember session.context read.annotation read.member).foldl note
      session).RegistersOnly P :=
    before.foldl_note fun recording recorded =>
      walks recording (Walk.ofElements_of_mem_annotationMember recorded)
  intro name registered
  rw [Session.validate, reportViolations_keeps Session.defaults (fun _ _ _ => rfl) (fun _ _ => rfl)]
    at registered
  exact noted name registered

theorem RegistersOnly.observe {session : Session} (before : session.RegistersOnly P)
    (walks : ∀ recording, Walk.OfElements session.context recording → recording.GivesFor P)
    {recording : Recording} (gives : recording.GivesFor P) :
    (session.observe recording).RegistersOnly P := by
  have noted : (session.note recording).RegistersOnly P :=
    before.foldl_note fun _ listed => List.mem_singleton.mp listed ▸ gives
  cases recording with
  | read read =>
    simp only [Session.observe]
    split
    · split
      · exact before.validate walks _ read
      · exact before
    · exact before
  | write => exact noted
  | warning => exact noted
  | promoteScope => exact noted
  | unfinished => exact noted

theorem RegistersOnly.observeAll {session : Session} (before : session.RegistersOnly P)
    (walks : ∀ recording, Walk.OfElements session.context recording → recording.GivesFor P)
    {trace : Trace} (gives : ∀ recording ∈ trace, recording.GivesFor P) :
    (session.observeAll trace).RegistersOnly P := by
  induction trace generalizing session with
  | nil => exact before
  | cons recording rest ih =>
    -- The walks of later validations are those of the same context.
    have same := (observe_sameSetting session recording).context
    exact ih (before.observe walks (gives recording List.mem_cons_self))
      (fun later walked => walks later (same ▸ walked))
      fun later listed => gives later (List.mem_cons_of_mem _ listed)

/-! ## Serving a request -/

theorem RegistersOnly.serve {session : Session} (before : session.RegistersOnly P)
    (walks : ∀ recording, Walk.OfElements session.context recording → recording.GivesFor P)
    {request : Request}
    (adds : ∀ metadata occurrence, request = .annotate metadata occurrence →
      ∀ recording ∈ Walk.added session.context occurrence, recording.GivesFor P) :
    (session.serve request).2.RegistersOnly P := by
  have gives : ∀ recording ∈ (request.walk session.context).trace, recording.GivesFor P := by
    intro recording recorded
    rcases Request.ofElements_or_added recorded with walked | ⟨metadata, occurrence, asked, added⟩
    · exact walks recording walked
    · exact adds metadata occurrence asked recording added
  have uncut : RegistersOnly P { session with cutOff := false } := before
  intro name registered
  rcases session.serve_defaults request with observed | ⟨_, kept⟩
  · rw [observed] at registered
    exact uncut.observeAll walks gives name registered
  · rw [kept] at registered
    exact before name registered

/-! ## Runs -/

theorem RegistersOnly.serveAll {context : Context}
    (walks : ∀ recording, Walk.OfElements context recording → recording.GivesFor P)
    {run : List (Nat × Request)}
    (adds : ∀ call ∈ run, ∀ metadata occurrence, call.2 = .annotate metadata occurrence →
      ∀ recording ∈ Walk.added context occurrence, recording.GivesFor P)
    (validator : Option Validator) :
    ((SharedSession.fresh context validator).serveAll run).session.RegistersOnly P := by
  induction run using List.reverseRecOn with
  | nil => exact fun _ none => nomatch none
  | append_singleton run call ih =>
    have same := (SharedSession.serveAll_leaves context validator run).1
    have before : (((SharedSession.fresh context validator).serveAll run).seenBy
        call.1).RegistersOnly P :=
      ih fun earlier listed => adds earlier (List.mem_append_left _ listed)
    rw [SharedSession.serveAll_concat]
    refine before.serve (fun recording walked => walks recording (same ▸ walked)) ?_
    intro metadata occurrence asked recording added
    exact adds call (List.mem_append_right _ List.mem_cons_self) metadata occurrence asked recording
      (same ▸ added)

/-! ## Registered defaults stay -/

private theorem keys_subset_validate (session : Session) (validator : Validator)
    (read : ReadValue) :
    Dict.keys session.defaults ⊆ Dict.keys (session.validate validator read).defaults := by
  intro name held
  rw [validate, reportViolations_keeps Session.defaults (fun _ _ _ => rfl) (fun _ _ => rfl)]
  simp only [foldl_note_defaults]
  exact Store.mem_keys_addTable.mpr (.inl held)

private theorem keys_subset_observe (session : Session) (recording : Recording) :
    Dict.keys session.defaults ⊆ Dict.keys (session.observe recording).defaults := by
  have noted : Dict.keys session.defaults ⊆ Dict.keys (session.note recording).defaults := by
    intro name held
    rw [note_defaults]
    exact Store.mem_keys_addTable.mpr (.inl held)
  cases recording with
  | read read =>
    simp only [observe]
    split
    · split
      · exact keys_subset_validate session _ read
      · exact List.Subset.refl _
    · exact List.Subset.refl _
  | write => exact noted
  | warning => exact noted
  | promoteScope => exact noted
  | unfinished => exact noted

theorem keys_subset_observeAll (session : Session) (trace : Trace) :
    Dict.keys session.defaults ⊆ Dict.keys (session.observeAll trace).defaults := by
  induction trace generalizing session with
  | nil => exact List.Subset.refl _
  | cons recording rest ih =>
    exact List.Subset.trans (keys_subset_observe session recording)
      (ih (session.observe recording))

private theorem mem_keys_observeAll_of_given {session : Session} {trace : Trace} {name : String}
    {members : Members} (given : .write (.defaults name members) ∈ trace) :
    name ∈ Dict.keys (session.observeAll trace).defaults := by
  induction trace generalizing session with
  | nil => cases given
  | cons recording rest ih =>
    rcases List.mem_cons.mp given with rfl | below
    · refine keys_subset_observeAll _ rest ?_
      have noted : name ∈ Dict.keys (session.note (.write (.defaults name members))).defaults := by
        rw [note_defaults]
        exact Store.mem_keys_addTable.mpr (.inr (List.mem_singleton_self _))
      exact noted
    · exact ih below

private theorem keys_subset_serve (session : Session) (request : Request) :
    Dict.keys session.defaults ⊆ Dict.keys (session.serve request).2.defaults := by
  rcases session.serve_defaults request with observed | ⟨_, kept⟩
  · rw [observed]
    exact keys_subset_observeAll { session with cutOff := false } _
  · rw [kept]
    exact List.Subset.refl _

private theorem mem_keys_serve_annotate {session : Session} {occurrence : Annotation}
    (known : (session.model.annotationType? occurrence.name).isSome) (metadata : Metadata) :
    occurrence.name ∈
      Dict.keys (session.serve (.annotate metadata occurrence)).2.defaults := by
  have observed : (session.serve (.annotate metadata occurrence)).2 =
      { session with cutOff := false }.observeAll (Walk.added session.context occurrence) := by
    simp only [serve, answered, annotate]
    split <;> rfl
  rw [observed]
  exact mem_keys_observeAll_of_given (Walk.defaults_mem_added known)

private theorem mem_keys_serveAll_annotate {context : Context} (validator : Option Validator)
    {run : List (Nat × Request)} {builder : Nat} {metadata : Metadata} {occurrence : Annotation}
    (asked : (builder, .annotate metadata occurrence) ∈ run)
    (known : (context.model.annotationType? occurrence.name).isSome) :
    occurrence.name ∈
      Dict.keys ((SharedSession.fresh context validator).serveAll run).session.defaults := by
  induction run using List.reverseRecOn with
  | nil => cases asked
  | append_singleton run call ih =>
    rw [SharedSession.serveAll_concat]
    rcases List.mem_append.mp asked with earlier | last
    · exact keys_subset_serve _ call.2 (ih earlier)
    · cases List.mem_singleton.mp last
      have same := (SharedSession.serveAll_leaves context validator run).1
      have declared : ((((SharedSession.fresh context validator).serveAll run).seenBy
          builder).model.annotationType? occurrence.name).isSome := by
        rw [← same] at known
        exact known
      exact mem_keys_serve_annotate declared metadata

end Session

/-- An annotation that a run has registered is kept at runtime, or else it is declared and
an alias targets it or it was added to metadata. If it is declared, adding it has registered
it, whatever its retention is. -/
theorem registered_of_run {context : Context} (empty : context.registry = .empty)
    (validator : Option Validator) (run : List (Nat × Request)) (name : String) :
    (Dict.contains
        ((SharedSession.fresh context validator).serveAll run).session.defaults name = true →
      context.model.retentionOf name = .runtime ∨
        (context.model.annotationType? name).isSome ∧
          (context.model.IsAliasTarget name ∨
            ∃ builder metadata occurrence,
              (builder, Request.annotate metadata occurrence) ∈ run ∧ occurrence.name = name)) ∧
    ((context.model.annotationType? name).isSome → ∀ builder metadata occurrence,
      (builder, Request.annotate metadata occurrence) ∈ run → occurrence.name = name →
        Dict.contains
          ((SharedSession.fresh context validator).serveAll run).session.defaults name = true) := by
  refine ⟨fun registered => ?_, ?_⟩
  · have only : ((SharedSession.fresh context validator).serveAll run).session.RegistersOnly
        fun name => Walk.GivenByReading context name ∨
          (context.model.annotationType? name).isSome ∧
            ∃ builder metadata occurrence,
              (builder, Request.annotate metadata occurrence) ∈ run ∧ occurrence.name = name := by
      refine Session.RegistersOnly.serveAll ?_ ?_ validator
      · exact fun recording walked => (walked.givesFor empty).mono fun _ => .inl
      · rintro ⟨builder, _⟩ asked metadata occurrence rfl recording added
        refine (Walk.givesFor_of_mem_added empty added).mono fun name gives => ?_
        exact gives.imp_right fun ⟨named, known⟩ =>
          ⟨known, builder, metadata, occurrence, asked, named.symm⟩
    rcases only name (Dict.contains_iff.mp registered) with
      (kept | ⟨known, aliased⟩) | ⟨known, added⟩
    · exact .inl kept
    · exact .inr ⟨known, .inl aliased⟩
    · exact .inr ⟨known, .inr added⟩
  · rintro known builder metadata occurrence asked rfl
    exact Dict.contains_iff.mpr (Session.mem_keys_serveAll_annotate validator asked known)

/-- A mark that is kept in class files only is the target of an alias, and a note is not kept
at all. -/
def markedContext : Context where
  model :=
    { document :=
        { annotations :=
            [("bean.Named",
                { members :=
                    [("name",
                        { annotations :=
                            [{ name := Name.aliasFor
                               members :=
                                [("annotation", .string "bean.Mark"),
                                  ("member", .string Name.valueMember)] }] })] }),
              ("bean.Mark",
                { retention := .classFile
                  members :=
                    [(Name.valueMember, {}), ("level", { default := some (.string "low") })] }),
              ("bean.Note",
                { retention := .source
                  members := [("level", { default := some (.string "low") })] })]
          elements :=
            [("bean.field",
                { kind := .field
                  annotations :=
                    [{ name := "bean.Named", members := [("name", .string "x")] },
                      { name := "bean.Note" }] })] } }

theorem markedContext_registered :
    Dict.contains ((SharedSession.fresh markedContext none).serveAll
      [(0, .buildDeclared (.declaration "bean.field"))]).session.defaults "bean.Mark" = true ∧
    markedContext.model.IsAliasTarget "bean.Mark" := by
  have empty : markedContext.registry = .empty := rfl
  obtain ⟨reached, _⟩ := registered_of_run empty none
    [(0, .buildDeclared (.declaration "bean.field"))] "bean.Mark"
  refine ⟨rfl, ?_⟩
  rcases reached rfl with kept | ⟨_, aliased | ⟨_, _, _, asked, _⟩⟩
  · cases kept
  · exact aliased
  · cases List.mem_singleton.mp asked

/-- A build registers the mark, and leaves out the note, which stands on the field; adding a
note registers it. -/
theorem markedContext_unguarded :
    markedContext.registry = .empty ∧
    markedContext.model.retentionOf "bean.Mark" = .classFile ∧
    markedContext.model.retentionOf "bean.Note" = .source ∧
    Dict.keys ((SharedSession.fresh markedContext none).serveAll
        [(0, .buildDeclared (.declaration "bean.field"))]).session.defaults =
      ["bean.Named", "bean.Mark"] ∧
    Dict.keys ((SharedSession.fresh markedContext none).serveAll
        [(0, .buildDeclared (.declaration "bean.field")),
          (0, .annotate .empty { name := "bean.Note" })]).session.defaults =
      ["bean.Named", "bean.Mark", "bean.Note"] :=
  ⟨rfl, rfl, rfl, rfl, rfl⟩

end AnnotationMetadata
