import AnnotationMetadata.Proofs.Session.History

set_option autoImplicit false

/-!
# What is validated

Values that a walk reads are passed to the validator in the order of the walk, each until
its member is reported. The walk that finds the metadata of a member for the validator
passes on nothing. So a builder reports each member at most once, whatever it builds.
-/

namespace AnnotationMetadata

/-! ## Read values -/

namespace ReadValue

/-- The value has to be validated, unless its member is reported already. -/
def isDue (model : Model) (read : ReadValue) : Bool :=
  read.annotation != Name.aliasFor && !read.value.isPlaceholder &&
    model.requiresValidation read.element

def violations (context : Context) (validator : Validator) (read : ReadValue) : List String :=
  validator read.member (read.call context).metadata read.value

def errorsFor (read : ReadValue) (messages : List String) : List Diagnostic :=
  messages.map fun message =>
    ⟨.error, read.originating.label, Session.violationMessage read message⟩

def complaints (context : Context) (validator : Validator) (read : ReadValue) : List Diagnostic :=
  read.errorsFor (read.violations context validator)

end ReadValue

def dueReads (model : Model) (trace : Trace) : List ReadValue :=
  trace.filterMap fun
    | .read read => if read.isDue model then some read else none
    | _ => none

private theorem dueReads_append (model : Model) (before after : Trace) :
    dueReads model (before ++ after) = dueReads model before ++ dueReads model after :=
  List.filterMap_append

namespace Session

def errors (session : Session) : List Diagnostic :=
  session.diagnostics.filter Diagnostic.isError

theorem isValidated_eq (session : Session) (read : ReadValue) :
    session.isValidated read =
      (!session.erroneous.contains read.element && read.isDue session.context.model) := by
  simp only [isValidated, ReadValue.isDue, model, Bool.and_assoc]

/-! ## One validation -/

private theorem foldl_addError (read : ReadValue) (violations : List String) (session : Session) :
    violations.foldl
        (fun result violation => result.addError read.originating (violationMessage read violation))
        session =
      { session with diagnostics := session.diagnostics ++ read.errorsFor violations } := by
  induction violations generalizing session with
  | nil => simp [ReadValue.errorsFor]
  | cons violation rest ih =>
    rw [List.foldl_cons, ih]
    simp [ReadValue.errorsFor, addError, addDiagnostic]

theorem reportViolations_eq (session : Session) (read : ReadValue) (violations : List String) :
    session.reportViolations read violations =
      { session with
        diagnostics := session.diagnostics ++ read.errorsFor violations
        erroneous :=
          if violations = [] then session.erroneous else read.element :: session.erroneous } := by
  unfold reportViolations
  rw [foldl_addError]
  cases violations with
  | nil => simp [ReadValue.errorsFor]
  | cons violation rest => rfl

private theorem errors_reportViolations (session : Session) (read : ReadValue)
    (violations : List String) :
    (session.reportViolations read violations).errors =
      session.errors ++ read.errorsFor violations := by
  simp [reportViolations_eq, errors, ReadValue.errorsFor, Diagnostic.isError]

private theorem erroneous_reportViolations (session : Session) (read : ReadValue)
    (violations : List String) :
    (session.reportViolations read violations).erroneous =
      if violations = [] then session.erroneous else read.element :: session.erroneous := by
  rw [reportViolations_eq]

theorem note_keeps_reports (session : Session) (recording : Recording) :
    (session.note recording).errors = session.errors ∧
      (session.note recording).erroneous = session.erroneous := by
  cases recording with
  | write write => cases write <;> exact ⟨rfl, rfl⟩
  | warning => simp [note, addWarning, addDiagnostic, errors, Diagnostic.isError]
  | read => exact ⟨rfl, rfl⟩
  | promoteScope => exact ⟨rfl, rfl⟩
  | unfinished => exact ⟨rfl, rfl⟩

theorem foldl_note_keeps_reports (session : Session) (trace : Trace) :
    (trace.foldl note session).errors = session.errors ∧
      (trace.foldl note session).erroneous = session.erroneous := by
  induction trace generalizing session with
  | nil => exact ⟨rfl, rfl⟩
  | cons recording rest ih =>
    obtain ⟨errors, erroneous⟩ := note_keeps_reports session recording
    obtain ⟨errorsThen, erroneousThen⟩ := ih (session.note recording)
    exact ⟨errorsThen.trans errors, erroneousThen.trans erroneous⟩

section Validate

variable (session : Session) (validator : Validator) (read : ReadValue)

private theorem errors_validate :
    (session.validate validator read).errors =
      session.errors ++ read.complaints session.context validator := by
  have noted := (foldl_note_keeps_reports session
    (Walk.annotationMember session.context read.annotation read.member)).1
  rw [validate, errors_reportViolations]
  simp only [errors] at noted
  simp only [errors, noted, ReadValue.complaints, ReadValue.violations, ReadValue.call]

private theorem erroneous_validate :
    (session.validate validator read).erroneous =
      if read.violations session.context validator = [] then session.erroneous
      else read.element :: session.erroneous := by
  have noted := (foldl_note_keeps_reports session
    (Walk.annotationMember session.context read.annotation read.member)).2
  rw [validate, erroneous_reportViolations]
  simp only [noted]
  rfl

end Validate

/-! ## Traces -/

/-- How a session goes on when, of the values that are `due`, those `made` are passed to the
validator: the ones whose members it has not complained of before. -/
structure Validated (context : Context) (validator : Validator) (due made : List ReadValue)
    (session after : Session) : Prop where
  calls : after.calls = session.calls ++ made.map (ReadValue.call context)
  errors : after.errors = session.errors ++ made.flatMap (ReadValue.complaints context validator)
  among : made.Sublist due
  unreported : ∀ read ∈ made, read.element ∉ session.erroneous
  once : made.Pairwise fun earlier later =>
    earlier.violations context validator ≠ [] → earlier.element ≠ later.element
  reported : ∀ element, element ∈ after.erroneous ↔ element ∈ session.erroneous ∨
    ∃ read ∈ made, read.violations context validator ≠ [] ∧ read.element = element
  complete : ∀ read ∈ due, read ∈ made ∨ read.element ∈ after.erroneous

section Traces

variable {context : Context} {validator : Validator} {session between after : Session}
  {due made dueThen madeThen : List ReadValue}

theorem Validated.nothing (calls : after.calls = session.calls)
    (errors : after.errors = session.errors) (erroneous : after.erroneous = session.erroneous)
    (known : ∀ read ∈ due, read.element ∈ session.erroneous) :
    Validated context validator due [] session after where
  calls := by rw [calls, List.map_nil, List.append_nil]
  errors := by rw [errors, List.flatMap_nil, List.append_nil]
  among := List.nil_sublist due
  unreported _ listed := nomatch listed
  once := .nil
  reported element := by simp [erroneous]
  complete read listed := .inr (erroneous ▸ known read listed)

theorem Validated.append (first : Validated context validator due made session between)
    (second : Validated context validator dueThen madeThen between after) :
    Validated context validator (due ++ dueThen) (made ++ madeThen) session after where
  calls := by rw [second.calls, first.calls, List.map_append, List.append_assoc]
  errors := by rw [second.errors, first.errors, List.flatMap_append, List.append_assoc]
  among := first.among.append second.among
  unreported := by
    intro read listed before
    rcases List.mem_append.mp listed with own | later
    · exact first.unreported read own before
    · exact second.unreported read later ((first.reported _).mpr (.inl before))
  once := by
    refine List.pairwise_append.mpr ⟨first.once, second.once, ?_⟩
    intro earlier listed later listedThen complains same
    -- The first part has reported the member, so the second one passes on none of its values.
    exact second.unreported later listedThen
      ((first.reported _).mpr (.inr ⟨earlier, listed, complains, same⟩))
  reported := by
    intro element
    simp only [second.reported, first.reported, List.mem_append, or_and_right, exists_or, or_assoc]
  complete := by
    intro read listed
    rcases List.mem_append.mp listed with own | later
    · rcases first.complete read own with validated | known
      · exact .inl (List.mem_append_left _ validated)
      · exact .inr ((second.reported _).mpr (.inl known))
    · exact (second.complete read later).imp_left (List.mem_append_right _)

private theorem validate_validated (session : Session) (validator : Validator) {read : ReadValue}
    (unreported : read.element ∉ session.erroneous) :
    Validated session.context validator [read] [read] session
      (session.validate validator read) where
  calls := calls_validate session validator read
  errors := by rw [errors_validate, List.flatMap_singleton]
  among := List.Sublist.refl _
  unreported := List.forall_mem_singleton.mpr unreported
  once := List.pairwise_singleton _ _
  reported := by
    intro element
    rw [erroneous_validate]
    by_cases silent : read.violations session.context validator = []
    · simp [silent]
    · simp [silent, or_comm, eq_comm (a := element)]
  complete := List.forall_mem_singleton.mpr (.inl List.mem_cons_self)

private theorem observe_validated (found : session.validator = some validator)
    (recording : Recording) :
    ∃ made, Validated session.context validator (dueReads session.context.model [recording]) made
      session (session.observe recording) := by
  have noted : ∀ other : Session, other = session.note recording →
      Validated session.context validator [] [] session other := by
    rintro other rfl
    obtain ⟨errors, erroneous⟩ := note_keeps_reports session recording
    exact .nothing (note_calls session recording) errors erroneous fun _ listed => nomatch listed
  cases recording with
  | read read =>
    by_cases due : read.isDue session.context.model
    · have dues : dueReads session.context.model [.read read] = [read] := by simp [dueReads, due]
      rw [dues]
      by_cases reported : read.element ∈ session.erroneous
      · refine ⟨[], ?_⟩
        simp only [observe, found, isValidated_eq, List.contains_eq_mem, reported, decide_true,
          Bool.not_true, Bool.false_and, Bool.false_eq_true, if_false]
        exact .nothing rfl rfl rfl (List.forall_mem_singleton.mpr reported)
      · refine ⟨[read], ?_⟩
        simp only [observe, found, isValidated_eq, List.contains_eq_mem, reported, due,
          decide_false, Bool.not_false, Bool.true_and, if_true]
        exact validate_validated session validator reported
    · have dues : dueReads session.context.model [.read read] = [] := by simp [dueReads, due]
      rw [dues]
      refine ⟨[], ?_⟩
      simp only [observe, found, isValidated_eq, due, Bool.and_false, Bool.false_eq_true, if_false]
      exact noted session rfl
  | write write => exact ⟨[], noted _ rfl⟩
  | warning => exact ⟨[], noted _ rfl⟩
  | promoteScope => exact ⟨[], noted _ rfl⟩
  | unfinished => exact ⟨[], noted _ rfl⟩

private theorem observeAll_validated (found : session.validator = some validator) (trace : Trace) :
    ∃ made, Validated session.context validator (dueReads session.context.model trace) made session
      (session.observeAll trace) := by
  induction trace generalizing session with
  | nil => exact ⟨[], .nothing rfl rfl rfl fun _ listed => nomatch listed⟩
  | cons recording rest ih =>
    have same := observe_sameSetting session recording
    obtain ⟨first, validated⟩ := observe_validated found recording
    obtain ⟨others, validatedThen⟩ := ih (same.validator.trans found)
    -- Both parts refer to the context that the session keeps.
    rw [same.context] at validatedThen
    have all := validated.append validatedThen
    rw [← dueReads_append] at all
    exact ⟨first ++ others, all⟩

/-- Every request but one that is answered with registered metadata passes on what is due
of its walk. -/
private theorem serve_validated (found : session.validator = some validator) (request : Request) :
    ∃ due made, Validated session.context validator due made session (session.serve request).2 ∧
      due.Sublist (dueReads session.context.model (request.walk session.context).trace) ∧
      ((∀ declaringType element, session.mutation? declaringType element = none) →
        due = dueReads session.context.model (request.walk session.context).trace) := by
  have none : ∀ after : Session, after.calls = session.calls → after.errors = session.errors →
      after.erroneous = session.erroneous →
      Validated session.context validator [] [] session after :=
    fun _ calls errors erroneous => .nothing calls errors erroneous fun _ listed => nomatch listed
  have served := serve_served session request
  generalize session.serve request = result at served ⊢
  cases served with
  | known _ known =>
    refine ⟨[], [], none _ rfl rfl rfl, List.nil_sublist _, fun unregistered => ?_⟩
    rcases known with ⟨_, walked⟩ | ⟨declaringType, element, registered⟩
    · rw [walked]
      rfl
    · rw [unregistered] at registered
      cases registered
  | observed =>
    -- Starting a build touches nothing that validation looks at.
    have started : ({ session with cutOff := false } : Session).validator = some validator :=
      found
    obtain ⟨made, validated⟩ := observeAll_validated started (request.walk session.context).trace
    exact ⟨_, made, ⟨validated.calls, validated.errors, validated.among, validated.unreported,
      validated.once, validated.reported, validated.complete⟩, List.Sublist.refl _, fun _ => rfl⟩
  | registered asked =>
    subst asked
    exact ⟨[], [], none _ rfl rfl rfl, List.nil_sublist _, fun _ => rfl⟩
  | cleared asked =>
    subst asked
    exact ⟨[], [], none _ rfl rfl rfl, List.nil_sublist _, fun _ => rfl⟩

end Traces

end Session

/-! ## Runs -/

/-- What is due of the walks of a run, each value with the builder that reads it. -/
def dueInRun (context : Context) (run : List (Nat × Request)) : List (Nat × ReadValue) :=
  run.flatMap fun call =>
    (dueReads context.model (call.2.walk context).trace).map (call.1, ·)

def reportsAbout (context : Context) (validator : Validator) (made : List (Nat × ReadValue))
    (builder : Nat) (member : Element) : List Diagnostic :=
  (made.filter fun entry => entry.1 = builder ∧ entry.2.element = member).flatMap fun entry =>
    entry.2.complaints context validator

namespace SharedSession

/-- What a run leaves behind when the values `made` of those that are due in it were passed
to the validator, each by a builder that had not reported the member yet. -/
structure Validated (context : Context) (validator : Validator) (run : List (Nat × Request))
    (made : List (Nat × ReadValue)) (after : SharedSession) : Prop where
  calls : after.session.calls = made.map fun entry => entry.2.call context
  errors : after.session.errors = made.flatMap fun entry => entry.2.complaints context validator
  among : made.Sublist (dueInRun context run)
  once : made.Pairwise fun earlier later => earlier.1 = later.1 →
    earlier.2.violations context validator ≠ [] → earlier.2.element ≠ later.2.element
  reported : ∀ builder member, member ∈ after.reported builder ↔
    ∃ read, (builder, read) ∈ made ∧ read.violations context validator ≠ [] ∧
      read.element = member
  complete : (∀ call ∈ run, call.2.KeepsMutations) → ∀ entry ∈ dueInRun context run,
    entry ∈ made ∨ entry.2.element ∈ after.reported entry.1

variable {context : Context} {validator : Validator} {run : List (Nat × Request)}
  {made : List (Nat × ReadValue)} {shared : SharedSession}

theorem dueInRun_concat (context : Context) (run : List (Nat × Request)) (builder : Nat)
    (request : Request) :
    dueInRun context (run ++ [(builder, request)]) = dueInRun context run ++
      (dueReads context.model (request.walk context).trace).map (builder, ·) := by
  simp [dueInRun]

private theorem reported_serve {context : Context} {builder : Nat} {request : Request}
    {due more : List ReadValue} (before : ∀ other member, member ∈ shared.reported other ↔
      ∃ read, (other, read) ∈ made ∧ read.violations context validator ≠ [] ∧ read.element = member)
    (validated : Session.Validated context validator due more (shared.seenBy builder)
      ((shared.seenBy builder).serve request).2)
    (other : Nat) (member : Element) :
    member ∈ (shared.serve builder request).2.reported other ↔
      ∃ read, (other, read) ∈ made ++ more.map (builder, ·) ∧
        read.violations context validator ≠ [] ∧ read.element = member := by
  have after : (shared.serve builder request).2.reported other =
      if other = builder then ((shared.seenBy builder).serve request).2.erroneous
      else shared.reported other := rfl
  rw [after]
  by_cases own : other = builder
  · subst own
    have seen : (shared.seenBy other).erroneous = shared.reported other := rfl
    rw [if_pos rfl, validated.reported, seen, before]
    simp [or_and_right, exists_or]
  · have foreign : ∀ read, (other, read) ∉ more.map (builder, ·) := by
      intro read listed
      obtain ⟨_, _, same⟩ := List.mem_map.mp listed
      exact own (Prod.mk.inj same).1.symm
    rw [if_neg own, before]
    simp only [List.mem_append, foreign, or_false]

theorem Validated.serve (before : Validated context validator run made shared)
    (same : shared.session.context = context) (found : shared.session.validator = some validator)
    (unregistered : (∀ call ∈ run, call.2.KeepsMutations) → ∀ declaringType element,
      shared.session.mutation? declaringType element = none)
    (builder : Nat) (request : Request) :
    ∃ more : List ReadValue, Validated context validator (run ++ [(builder, request)])
      (made ++ more.map (builder, ·)) (shared.serve builder request).2 := by
  subst same
  have seen : (shared.seenBy builder).validator = some validator := found
  obtain ⟨due, more, validated, walked, all⟩ := Session.serve_validated seen request
  have reported := reported_serve before.reported validated
  refine ⟨more,
    { calls := ?calls
      errors := ?errors
      among := ?among
      once := ?once
      reported
      complete := ?complete }⟩
  case calls =>
    refine validated.calls.trans ?_
    rw [List.map_append, List.map_map, ← before.calls]
    rfl
  case errors =>
    refine validated.errors.trans ?_
    rw [List.flatMap_append, List.flatMap_map, ← before.errors]
    rfl
  case among =>
    rw [dueInRun_concat]
    exact before.among.append ((validated.among.trans walked).map _)
  case once =>
    refine List.pairwise_append.mpr ⟨before.once, List.pairwise_map.mpr ?_, ?_⟩
    · refine validated.once.imp ?_
      exact fun once _ => once
    · rintro ⟨other, earlier⟩ listed _ later own complains same
      obtain ⟨read, passed, rfl⟩ := List.mem_map.mp later
      cases own
      exact validated.unreported read passed
        ((before.reported builder _).mpr ⟨earlier, listed, complains, same⟩)
  case complete =>
    intro keeps entry listed
    rw [dueInRun_concat] at listed
    have keepsBefore : ∀ call ∈ run, call.2.KeepsMutations :=
      fun call served => keeps call (List.mem_append_left _ served)
    rcases List.mem_append.mp listed with earlier | later
    · rcases before.complete keepsBefore entry earlier with passed | known
      · exact .inl (List.mem_append_left _ passed)
      · obtain ⟨read, passed, complains, same⟩ := (before.reported _ _).mp known
        exact .inr ((reported _ _).mpr ⟨read, List.mem_append_left _ passed, complains, same⟩)
    · obtain ⟨read, own, rfl⟩ := List.mem_map.mp later
      -- With nothing registered the request takes in its whole walk.
      have passedOn := all (unregistered keepsBefore)
      rcases validated.complete read (passedOn ▸ own) with passed | known
      · exact .inl (List.mem_append_right _ (List.mem_map_of_mem passed))
      · exact .inr (by simpa [SharedSession.serve] using known)

private theorem exists_validated (context : Context) (validator : Validator)
    (run : List (Nat × Request)) :
    ∃ made, Validated context validator run made
      ((fresh context (some validator)).serveAll run) := by
  induction run using List.reverseRecOn with
  | nil =>
    exact ⟨[], rfl, rfl, List.Sublist.refl _, .nil, fun _ _ => by simp [serveAll, fresh],
      fun _ _ listed => nomatch listed⟩
  | append_singleton run call ih =>
    obtain ⟨made, before⟩ := ih
    obtain ⟨same, mutations⟩ := serveAll_leaves context (some validator) run
    have found := serveAll_validator context (some validator) run
    obtain ⟨more, validated⟩ := before.serve same found
      (fun keeps declaringType element => (mutations declaringType element).trans
        (lastRegistered_eq_none keeps declaringType element)) call.1 call.2
    rw [serveAll_concat]
    exact ⟨_, validated⟩

end SharedSession

/-! ## Reports about a member -/

section Reports

variable {context : Context} {validator : Validator} {builder : Nat} {member : Element}

private theorem reportsAbout_cons (entry : Nat × ReadValue) (rest : List (Nat × ReadValue)) :
    reportsAbout context validator (entry :: rest) builder member =
      (if entry.1 = builder ∧ entry.2.element = member then entry.2.complaints context validator
        else []) ++ reportsAbout context validator rest builder member := by
  by_cases about : entry.1 = builder ∧ entry.2.element = member
  · simp [reportsAbout, about]
  · simp [reportsAbout, about]

private theorem reportsAbout_eq_nil {made : List (Nat × ReadValue)}
    (others : ∀ entry ∈ made, entry.1 = builder → entry.2.element ≠ member) :
    reportsAbout context validator made builder member = [] := by
  have unlisted : made.filter (fun entry => entry.1 = builder ∧ entry.2.element = member) = [] :=
    List.filter_eq_nil_iff.mpr fun entry listed about => by
      obtain ⟨own, same⟩ := of_decide_eq_true about
      exact others entry listed own same
  rw [reportsAbout, unlisted, List.flatMap_nil]

private theorem reportsAbout_of_once {made : List (Nat × ReadValue)}
    (once : made.Pairwise fun earlier later => earlier.1 = later.1 →
      earlier.2.violations context validator ≠ [] → earlier.2.element ≠ later.2.element) :
    reportsAbout context validator made builder member = [] ∨
      ∃ read, (builder, read) ∈ made ∧ read.element = member ∧
        reportsAbout context validator made builder member = read.complaints context validator := by
  induction made with
  | nil => exact .inl rfl
  | cons entry rest ih =>
    obtain ⟨later, others⟩ := List.pairwise_cons.mp once
    rw [reportsAbout_cons]
    by_cases complains : (entry.1 = builder ∧ entry.2.element = member) ∧
        entry.2.violations context validator ≠ []
    · obtain ⟨⟨rfl, rfl⟩, complains⟩ := complains
      have silent : reportsAbout context validator rest entry.1 entry.2.element = [] :=
        reportsAbout_eq_nil fun other listed own same =>
          later other listed own.symm complains same.symm
      refine .inr ⟨entry.2, List.mem_cons_self, rfl, ?_⟩
      rw [silent, if_pos ⟨rfl, rfl⟩, List.append_nil]
    · have silent : (if entry.1 = builder ∧ entry.2.element = member then
          entry.2.complaints context validator else []) = [] := by
        split
        · next about =>
          have none : entry.2.violations context validator = [] := by
            simpa [about] using complains
          rw [ReadValue.complaints, none, ReadValue.errorsFor, List.map_nil]
        · rfl
      rw [silent, List.nil_append]
      rcases ih others with none | ⟨read, listed, about⟩
      · exact .inl none
      · exact .inr ⟨read, List.mem_cons_of_mem _ listed, about⟩

end Reports

/-- Once the validator has complained of a value, the builder passes on no other value of
its member, so that all errors about the member are those of one call; until then it passes
on every value that is due. A validation makes one call, whatever is read for it. -/
theorem members_reported_once (context : Context) (validator : Validator)
    (run : List (Nat × Request)) :
    (∃ made, SharedSession.Validated context validator run made
        ((SharedSession.fresh context (some validator)).serveAll run) ∧
      ∀ builder member, reportsAbout context validator made builder member = [] ∨
        ∃ read, (builder, read) ∈ made ∧ read.element = member ∧
          reportsAbout context validator made builder member =
            read.complaints context validator) ∧
    ∀ (session : Session) (read : ReadValue),
      (session.validate validator read).calls = session.calls ++ [read.call session.context] := by
  obtain ⟨made, validated⟩ := SharedSession.exists_validated context validator run
  exact ⟨⟨made, validated, fun _ _ => reportsAbout_of_once validated.once⟩,
    fun session read => session.calls_validate validator read⟩

/-- Two fields with an annotation whose member is constrained. The constraint has a
constrained member itself. -/
def boundContext : Context where
  model :=
    { document :=
        { annotations :=
            [("limit.Limit",
                { members :=
                    [("max",
                        { annotations :=
                            [{ name := "limit.AtLeast", members := [("bound", .long 1)] }] })] }),
              ("limit.AtLeast",
                { annotations := [{ name := Name.constraint }]
                  members :=
                    [("bound",
                        { annotations :=
                            [{ name := "limit.AtLeast", members := [("bound", .long 0)] }] })] })]
          elements :=
            [("limit.first",
                { kind := .field
                  annotations := [{ name := "limit.Limit", members := [("max", .long 0)] }] }),
              ("limit.second",
                { kind := .field
                  annotations := [{ name := "limit.Limit", members := [("max", .long 2)] }] })] } }

/-- One builder reads the member twice, another one once. -/
example :
    ((SharedSession.fresh boundContext (some fun _ _ _ => ["too small", "odd"])).serveAll
      [(0, .build (.declaration "limit.first")), (0, .build (.declaration "limit.second")),
        (1, .build (.declaration "limit.second"))]).session.diagnostics =
      [⟨.error, "limit.first", "@Limit.max: too small"⟩,
        ⟨.error, "limit.first", "@Limit.max: odd"⟩,
        ⟨.error, "limit.second", "@Limit.max: too small"⟩,
        ⟨.error, "limit.second", "@Limit.max: odd"⟩] := by
  rfl

end AnnotationMetadata
