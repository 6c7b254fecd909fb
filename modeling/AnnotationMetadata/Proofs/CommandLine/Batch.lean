import AnnotationMetadata.Proofs.CommandLine.Spelling
import AnnotationMetadata.Proofs.Json.RoundTrip
import AnnotationMetadata.Proofs.Session.Unvalidated

set_option autoImplicit false

/-!
# Batches of builds

The command line builds the selected elements in one session, one after the other. Nothing is
registered in it and nothing is validated, so the batch holds what the elements give when each
is built in a session of its own.
-/

namespace AnnotationMetadata.CommandLine

variable {context : Context} {mode : Mode}

/-! ## Single builds -/

def Mode.kind : Mode → ElementBuild
  | .full => .all
  | .declared => .declared
  | .overridden => .overridden
  | .method => .forMethod

theorem Mode.build_eq_conclude {session : Session} (unregistered : session.mutations = .empty)
    (mode : Mode) (element : Element) :
    mode.build session element =
      session.conclude element .empty (mode.kind.walk session.context element) := by
  have fresh : ∀ declaringType options,
      session.buildUnlessMutated declaringType element options =
        session.buildFresh none element .empty options := by
    intro declaringType options
    rw [Session.buildUnlessMutated, Session.mutation?, unregistered]
    rfl
  cases mode with
  | full => exact fresh _ _
  | declared => rfl
  | overridden => exact fresh _ _
  | method => exact fresh _ _

/-- The build of a declaration in a session that nothing was asked of. -/
def Mode.fresh (mode : Mode) (context : Context) (name : String) : Session.Built :=
  mode.build (.fresh context) (.declaration name)

theorem Mode.fresh_eq_conclude (mode : Mode) (context : Context) (name : String) :
    mode.fresh context name = (Session.fresh context).conclude (.declaration name) .empty
      (mode.kind.walk context (.declaration name)) :=
  mode.build_eq_conclude rfl _

section SameSetting

variable {session : Session} (same : session.SameSetting (.fresh context)) (mode : Mode)
  (name : String)

include same

private theorem Mode.build_fst_eq_fresh :
    (mode.build session (.declaration name)).1 = (mode.fresh context name).1 := by
  rw [mode.build_eq_conclude same.mutations, same.context, mode.fresh_eq_conclude]
  exact Session.conclude_fst_of_unvalidated same.validator rfl _ _ _

private theorem Mode.build_sameSetting :
    (mode.build session (.declaration name)).2.SameSetting (.fresh context) := by
  rw [mode.build_eq_conclude same.mutations, Session.conclude_snd]
  exact (Session.observeAll_uncut_sameSetting session _).trans same

private theorem Mode.build_diagnostics :
    (mode.build session (.declaration name)).2.diagnostics =
      session.diagnostics ++ (mode.fresh context name).2.diagnostics := by
  rw [mode.build_eq_conclude same.mutations, same.context, mode.fresh_eq_conclude,
    Session.conclude_diagnostics same.validator, Session.conclude_diagnostics rfl]
  rfl

end SameSetting

/-! ## Batches -/

/-- The declarations that can be built, each with its metadata. -/
def Mode.succeeded (mode : Mode) (context : Context) (names : List String) :
    List (String × Metadata) :=
  names.filterMap fun name => (mode.fresh context name).1.toOption.map (name, ·)

/-- The failures of declarations that cannot be built. -/
def Mode.failed (mode : Mode) (context : Context) (names : List String) : List BuildError :=
  names.filterMap fun name =>
    match (mode.fresh context name).1 with
    | .ok _ => none
    | .error failure => some failure

def Mode.diagnostics (mode : Mode) (context : Context) (names : List String) : List Diagnostic :=
  names.flatMap fun name => (mode.fresh context name).2.diagnostics

/-- What a batch has come to, on top of another one. -/
structure Batch.Adds (mode : Mode) (context : Context) (names : List String)
    (before after : Batch) : Prop where
  setting : after.session.SameSetting (.fresh context)
  built : after.built = Dict.overlay before.built (mode.succeeded context names)
  failures : after.failures = before.failures ++ mode.failed context names
  diagnostics :
    after.session.diagnostics = before.session.diagnostics ++ mode.diagnostics context names

private theorem Batch.step_adds {batch : Batch} (same : batch.session.SameSetting (.fresh context))
    (mode : Mode) (name : String) :
    Adds mode context [name] batch (batch.step mode (name, .declaration name)) := by
  have answer := mode.build_fst_eq_fresh same name
  have setting := mode.build_sameSetting same name
  have diagnostics := mode.build_diagnostics same name
  unfold step
  generalize mode.build batch.session (.declaration name) = result at answer setting diagnostics
  obtain ⟨built, session⟩ := result
  cases built with
  | ok metadata =>
    refine ⟨setting, ?_, ?_, ?_⟩
    · simp [Mode.succeeded, ← answer, Except.toOption, Dict.overlay]
    · simp [Mode.failed, ← answer]
    · simpa [Mode.diagnostics] using diagnostics
  | error failure =>
    refine ⟨setting, ?_, ?_, ?_⟩
    · simp [Mode.succeeded, ← answer, Except.toOption, Dict.overlay]
    · simp [Mode.failed, ← answer]
    · simpa [Mode.diagnostics] using diagnostics

theorem Batch.Adds.trans {first second : List String} {before between after : Batch}
    (left : Adds mode context first before between)
    (right : Adds mode context second between after) :
    Adds mode context (first ++ second) before after where
  setting := right.setting
  built := by
    rw [right.built, left.built]
    simp [Mode.succeeded, Dict.overlay]
  failures := by
    rw [right.failures, left.failures]
    simp [Mode.failed]
  diagnostics := by
    rw [right.diagnostics, left.diagnostics]
    simp [Mode.diagnostics]

def declarations (names : List String) : List (String × Element) :=
  names.map fun name => (name, .declaration name)

/-- By induction on the selection: each build finds the session as a new one, but for what
others have reported. -/
private theorem Batch.foldl_adds {batch : Batch} (same : batch.session.SameSetting (.fresh context))
    (mode : Mode) (names : List String) :
    Adds mode context names batch ((declarations names).foldl (step mode) batch) := by
  induction names generalizing batch with
  | nil => exact ⟨same, by simp [Mode.succeeded, Dict.overlay, declarations],
      by simp [Mode.failed, declarations], by simp [Mode.diagnostics, declarations]⟩
  | cons name rest ih =>
    have first := step_adds same mode name
    exact first.trans (ih first.setting)

/-! ## What single builds come to -/

private theorem Mode.keys_succeeded (mode : Mode) (context : Context) (names : List String) :
    Dict.keys (mode.succeeded context names) =
      names.filter fun name => (mode.fresh context name).1.isOk := by
  induction names with
  | nil => rfl
  | cons name rest ih =>
    simp only [succeeded, List.filterMap_cons, List.filter_cons] at ih ⊢
    cases (mode.fresh context name).1 with
    | ok metadata => exact congrArg (name :: ·) ih
    | error failure => exact ih

private theorem Mode.fresh_of_mem_succeeded {names : List String} {entry : String × Metadata}
    (listed : entry ∈ mode.succeeded context names) :
    (mode.fresh context entry.1).1 = .ok entry.2 := by
  obtain ⟨name, _, made⟩ := List.mem_filterMap.mp listed
  cases answer : (mode.fresh context name).1 with
  | ok metadata =>
    rw [answer] at made
    cases made
    exact answer
  | error failure =>
    rw [answer] at made
    cases made

private theorem Mode.failed_eq_nil_iff {names : List String} :
    mode.failed context names = [] ↔ ∀ name ∈ names, (mode.fresh context name).1.isOk = true := by
  rw [failed, List.filterMap_eq_nil_iff]
  refine forall₂_congr fun name _ => ?_
  cases (mode.fresh context name).1 with
  | ok metadata => exact iff_of_true rfl rfl
  | error failure => exact iff_of_false (fun none => nomatch none) Bool.false_ne_true

theorem Mode.isError_eq_false {names : List String} {diagnostic : Diagnostic}
    (reported : diagnostic ∈ mode.diagnostics context names) : diagnostic.isError = false := by
  obtain ⟨name, _, own⟩ := List.mem_flatMap.mp reported
  rw [mode.fresh_eq_conclude, Session.conclude_diagnostics rfl] at own
  obtain ⟨recording, _, noted⟩ := List.mem_filterMap.mp own
  exact recording.isError_eq_false noted

/-! ## Build commands -/

/-- The declarations that a command selects: all of the document when it names none. -/
def BuildCommand.selected (command : BuildCommand) (document : Document) : List String :=
  if command.elements.isEmpty then Dict.keys document.elements else command.elements

/-- What a command builds in. -/
def buildContext (config : Config) (document : Document) : Context where
  model := { document, visitorOptions := config.visitorOptions }
  config
  registry := config.registry

/-- The outcome is that of building the selected declarations, each in a session of its own. -/
structure Outcome.OfBuilds (outcome : Outcome) (mode : Mode) (context : Context)
    (selected : List String) : Prop where
  /-- The output holds the declarations that can be built, where they were first selected. -/
  output : ∃ built : Dict Metadata,
    Dict.keys built =
        unionInOrder [] (selected.filter fun name => (mode.fresh context name).1.isOk) ∧
      (∀ entry ∈ built, (mode.fresh context entry.1).1 = .ok entry.2) ∧
      outcome.output =
        (Json.object (built.map fun entry => (entry.1, entry.2.snapshot.toJson))).compact ++ "\n"
  /-- Failures come first, one message for each selection, then warnings. -/
  messages : outcome.messages =
    (mode.failed context selected).map (fun failure => "Error: " ++ failure.message) ++
      (mode.diagnostics context selected).map Diagnostic.text
  exitCode : outcome.exitCode = 0 ↔
    ∀ name ∈ selected, (mode.fresh context name).1.isOk = true

private theorem Batch.outcome_ofBuilds (mode : Mode) (context : Context) (selected : List String) :
    ((run mode (.fresh context) (declarations selected)).outcome false).OfBuilds mode context
      selected := by
  have adds : Adds mode context selected { session := .fresh context }
      (run mode (.fresh context) (declarations selected)) :=
    foldl_adds (Session.SameSetting.refl (.fresh context)) mode selected
  generalize run mode (.fresh context) (declarations selected) = batch at adds
  have failures : batch.failures = mode.failed context selected := adds.failures
  have diagnostics : batch.session.diagnostics = mode.diagnostics context selected :=
    adds.diagnostics
  refine ⟨⟨batch.built, ?_, ?_, rfl⟩, ?_, ?_⟩
  · rw [adds.built, Dict.keys_overlay, mode.keys_succeeded]
    rfl
  · intro entry listed
    rw [adds.built] at listed
    rcases Dict.mem_of_mem_overlay listed with before | made
    · cases before
    · exact Mode.fresh_of_mem_succeeded made
  · rw [← failures, ← diagnostics]
    rfl
  · have unreported : batch.session.hasErrors = false := by
      rw [Session.hasErrors, diagnostics]
      exact List.any_eq_false.mpr fun diagnostic reported => by
        simp [Mode.isError_eq_false reported]
    have code : (batch.outcome false).exitCode = if batch.failures.isEmpty then 0 else 1 := by
      simp only [outcome, unreported, Bool.or_false]
      cases batch.failures.isEmpty <;> rfl
    rw [code, ← Mode.failed_eq_nil_iff, ← failures, ← List.isEmpty_iff]
    cases batch.failures.isEmpty <;> simp

private theorem findElements_of_known {model : Model} {names : List String}
    (known : ∀ name ∈ names, name ∈ model.elementNames) :
    findElements model names = .ok (declarations names) := by
  induction names with
  | nil => rfl
  | cons name rest ih =>
    obtain ⟨declaration, found⟩ := Dict.mem_keys_iff.mp (known name List.mem_cons_self)
    have element : model.element? name = some (.declaration name) := by
      rw [Model.element?, Model.declaration?, found]
      rfl
    have others := ih fun later member => known later (List.mem_cons_of_mem _ member)
    unfold findElements at others ⊢
    rw [List.mapM_cons, element, others]
    rfl

private theorem runBuild_eq {files : FileAccess} {command : BuildCommand} {config : Config}
    {document : Document} (configured : loadConfig files command.configPath = .ok config)
    (loaded : loadDocument files command.modelPath = .ok document)
    (known : ∀ name ∈ command.elements, name ∈ Dict.keys document.elements) :
    runBuild files command =
      .ok ((Batch.run command.mode (.fresh (buildContext config document))
        (declarations (command.selected document))).outcome command.pretty) := by
  have listed : ∀ name ∈ command.selected document,
      name ∈ (buildContext config document).model.elementNames := by
    unfold BuildCommand.selected
    split
    · exact fun _ own => own
    · exact known
  have found : findElements
      { document := document, visitorOptions := config.visitorOptions }
      (if command.elements.isEmpty then Dict.keys document.elements else command.elements) =
        .ok (declarations (command.selected document)) := findElements_of_known listed
  simp only [runBuild, configured, loaded, bind, Except.bind, Model.elementNames, found]
  rfl

/-- A build command comes to what its selection comes to when each of the declarations is built
in a session of its own. A declaration whose build breaks off has the metadata of one without
annotations. -/
theorem build_command_eq_single_builds {files : FileAccess} {arguments : List String}
    {command : BuildCommand} {config : Config} {document : Document}
    (asked : Request.ofArguments arguments = .command (.build command))
    (plain : command.pretty = false)
    (configured : loadConfig files command.configPath = .ok config)
    (loaded : loadDocument files command.modelPath = .ok document)
    (known : ∀ name ∈ command.elements, name ∈ Dict.keys document.elements) :
    (run files (Request.ofArguments arguments)).OfBuilds command.mode
        (buildContext config document) (command.selected document) ∧
      ∀ name listed,
        command.mode.kind.hierarchy (buildContext config document).model (.declaration name) =
          .ok listed →
        ((∃ current ∈ listed, ((buildContext config document).model.abort? current).isSome) ∧
            (∀ cut, (command.mode.fresh (buildContext config document) name).1 ≠
              .error (.unfinished cut))) ∨
          (∀ current ∈ listed, Walk.recordedOn (buildContext config document) current = []) →
        ∃ metadata, (command.mode.fresh (buildContext config document) name).1 = .ok metadata ∧
          metadata.snapshot.toJson.compact = "\x7b\x7d" := by
  refine ⟨?_, ?_⟩
  · have carriedOut : run files (Request.ofArguments arguments) =
        (Batch.run command.mode (.fresh (buildContext config document))
          (declarations (command.selected document))).outcome false := by
      rw [asked, run, Command.run, runBuild_eq configured loaded known, plain]
    rw [carriedOut]
    exact Batch.outcome_ofBuilds _ _ _
  · intro name listed found empty
    refine ⟨.empty, ?_, rfl⟩
    rw [Mode.fresh_eq_conclude] at empty ⊢
    rcases empty with ⟨breaks, ends⟩ | bare
    · exact ElementBuild.conclude_of_aborted found breaks ends
    · exact ElementBuild.conclude_of_bare rfl found bare

/-- A document of two fields. One breaks off, the other one is annotated. -/
def fieldsJson : Json :=
  .object
    [("elements", .object
      [("bean.broken", .object [("kind", .string "field"), ("abort", .string "no source")]),
        ("bean.field", .object
          [("kind", .string "field"),
            ("annotations", .array [.object [("annotation", .string "bean.Mark")]])])])]

def fieldsDocument : Document where
  elements :=
    [("bean.broken", { kind := .field, abort := some "no source" }),
      ("bean.field", { kind := .field, annotations := [{ name := "bean.Mark" }] })]

def fieldsAccess : FileAccess := fun path =>
  if path = "model.json" then .ok fieldsJson.compact else .error .missing

def fieldsCommand : BuildCommand where
  modelPath := "model.json"
  elements := ["bean.field", "bean.broken", "bean.field"]
  mode := .declared
  configPath := none
  pretty := false

private theorem fieldsAccess_loaded :
    loadDocument fieldsAccess "model.json" = .ok fieldsDocument := by
  have legible : fieldsJson.Legible := by
    simp [fieldsJson, Json.Legible, Json.LegibleFields, Json.LegibleItems]
  have content : fieldsAccess "model.json" = .ok fieldsJson.compact := rfl
  have document : Document.ofText? fieldsJson.compact = some fieldsDocument := by
    rw [Document.ofText?, Json.ofShallowText?_compact legible (by decide)]
    rfl
  rw [loadDocument, content]
  simp only [document]

/-- The metadata of both fields, in the order in which the command names them. -/
def fieldsOutput : Json :=
  .object
    [("bean.field", .object
        [("declaredAnnotations", .object [("bean.Mark", .object [])]),
          ("annotations", .object [("bean.Mark", .object [])]),
          ("defaults", .object [("bean.Mark", .object [])])]),
      ("bean.broken", .object [])]

theorem fieldsCommand_outcome :
    (run fieldsAccess (Request.ofArguments fieldsCommand.arguments)).exitCode = 0 ∧
      (run fieldsAccess (Request.ofArguments fieldsCommand.arguments)).output =
        fieldsOutput.compact ++ "\n" ∧
      ∃ metadata,
        (Mode.declared.fresh (buildContext {} fieldsDocument) "bean.broken").1 = .ok metadata ∧
          metadata.snapshot.toJson.compact = "\x7b\x7d" := by
  have asked : Request.ofArguments fieldsCommand.arguments = .command (.build fieldsCommand) :=
    ofArguments_arguments rfl
  have configured : loadConfig fieldsAccess fieldsCommand.configPath = .ok {} := rfl
  have loaded : loadDocument fieldsAccess fieldsCommand.modelPath = .ok fieldsDocument :=
    fieldsAccess_loaded
  obtain ⟨outcome, bare⟩ :=
    build_command_eq_single_builds asked rfl configured loaded (by decide)
  refine ⟨outcome.exitCode.mpr (by decide), ?_, ?_⟩
  · obtain ⟨built, keys, answers, printed⟩ := outcome.output
    rw [printed]
    have listed : Dict.keys built = ["bean.field", "bean.broken"] := keys.trans (by decide)
    rcases built with _ | ⟨⟨first, marked⟩, _ | ⟨⟨second, broken⟩, _ | _⟩⟩ <;> cases listed
    have own : (Mode.declared.fresh (buildContext {} fieldsDocument) "bean.field").1 = .ok _ := rfl
    have aborted : (Mode.declared.fresh (buildContext {} fieldsDocument) "bean.broken").1 =
        .ok _ := rfl
    cases own.symm.trans (answers _ List.mem_cons_self)
    cases aborted.symm.trans (answers _ (List.mem_cons_of_mem _ List.mem_cons_self))
    rfl
  · refine bare "bean.broken" [.declaration "bean.broken"] rfl
      (.inl ⟨?_, fun _ same => nomatch same⟩)
    exact ⟨_, List.mem_singleton_self _, rfl⟩

end AnnotationMetadata.CommandLine
