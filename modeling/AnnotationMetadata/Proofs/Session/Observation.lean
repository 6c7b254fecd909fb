import AnnotationMetadata.Session.Run

set_option autoImplicit false

/-!
# What taking in a trace changes

A session takes in traces for their defaults, diagnostics and values to validate.
That leaves alone everything a result can depend on. A build counts as cut off
exactly when its own walk was, as long as the walks that validation starts end;
and validation starts no validation.
-/

namespace AnnotationMetadata

/-- How the validator is called for a value. -/
def ReadValue.call (context : Context) (read : ReadValue) : ValidationCall where
  member := read.element
  metadata := .ofStore
    (Store.empty.recordAll (Walk.annotationMember context read.annotation read.member))
  value := read.value

namespace Session

/-! ## The setting of builds -/

/-- The sessions agree on everything that a result can depend on. -/
structure SameSetting (session other : Session) : Prop where
  context : session.context = other.context
  validator : session.validator = other.validator
  mutations : session.mutations = other.mutations

theorem SameSetting.refl (session : Session) : session.SameSetting session :=
  ⟨rfl, rfl, rfl⟩

theorem SameSetting.trans {first second third : Session} (left : first.SameSetting second)
    (right : second.SameSetting third) : first.SameSetting third :=
  ⟨left.context.trans right.context, left.validator.trans right.validator,
    left.mutations.trans right.mutations⟩

/-- A fold keeps the setting if each of its steps does. -/
theorem SameSetting.foldl {α : Type} {step : Session → α → Session}
    (keeps : ∀ session item, (step session item).SameSetting session) (items : List α)
    (session : Session) : (items.foldl step session).SameSetting session := by
  induction items generalizing session with
  | nil => exact .refl session
  | cons item rest ih => exact (ih (step session item)).trans (keeps session item)

theorem note_sameSetting (session : Session) (recording : Recording) :
    (session.note recording).SameSetting session := by
  cases recording with
  | write write => cases write <;> exact ⟨rfl, rfl, rfl⟩
  | warning => exact ⟨rfl, rfl, rfl⟩
  | read => exact .refl session
  | promoteScope => exact .refl session
  | unfinished => exact ⟨rfl, rfl, rfl⟩

/-- Reporting violations adds diagnostics and marks the member, nothing else. -/
theorem reportViolations_keeps {α : Type} (field : Session → α)
    (addError : ∀ session element message, field (session.addError element message) = field session)
    (marked : ∀ session members, field { session with erroneous := members } = field session)
    (session : Session) (read : ReadValue) (violations : List String) :
    field (session.reportViolations read violations) = field session := by
  have reported : ∀ start : Session,
      field (violations.foldl
        (fun result violation => result.addError read.originating (violationMessage read violation))
        start) = field start := by
    induction violations with
    | nil => exact fun _ => rfl
    | cons violation rest ih => exact fun start => (ih _).trans (addError start _ _)
  unfold reportViolations
  split
  · rfl
  · exact (reported _).trans (marked session _)

private theorem reportViolations_sameSetting (session : Session) (read : ReadValue)
    (violations : List String) : (session.reportViolations read violations).SameSetting session :=
  ⟨reportViolations_keeps Session.context (fun _ _ _ => rfl) (fun _ _ => rfl) session read violations,
    reportViolations_keeps Session.validator (fun _ _ _ => rfl) (fun _ _ => rfl) session read
      violations,
    reportViolations_keeps Session.mutations (fun _ _ _ => rfl) (fun _ _ => rfl) session read
      violations⟩

private theorem validate_sameSetting (session : Session) (validator : Validator)
    (read : ReadValue) :
    (session.validate validator read).SameSetting session := by
  have noted := SameSetting.foldl note_sameSetting
    (Walk.annotationMember session.context read.annotation read.member) session
  exact (reportViolations_sameSetting _ _ _).trans
    ⟨noted.context, noted.validator, noted.mutations⟩

theorem observe_sameSetting (session : Session) (recording : Recording) :
    (session.observe recording).SameSetting session := by
  cases recording with
  | read read =>
    simp only [observe]
    split
    · split
      · exact validate_sameSetting session _ read
      · exact .refl session
    · exact .refl session
  | write write => exact note_sameSetting session (.write write)
  | warning element message => exact note_sameSetting session (.warning element message)
  | promoteScope => exact .refl session
  | unfinished => exact note_sameSetting session .unfinished

theorem observeAll_sameSetting (session : Session) (trace : Trace) :
    (session.observeAll trace).SameSetting session :=
  SameSetting.foldl observe_sameSetting trace session

/-! ## Cut-off walks -/

theorem note_cutOff (session : Session) (recording : Recording) :
    (session.note recording).cutOff = true ↔
      session.cutOff = true ∨ recording = .unfinished := by
  cases recording with
  | write write => cases write <;> simp [note]
  | warning => simp [note, addWarning, addDiagnostic]
  | read => simp [note]
  | promoteScope => simp [note]
  | unfinished => simp [note]

private theorem foldl_note_cutOff (session : Session) (trace : Trace) :
    (trace.foldl note session).cutOff = true ↔
      session.cutOff = true ∨ Recording.unfinished ∈ trace := by
  induction trace generalizing session with
  | nil => simp
  | cons recording rest ih =>
    rw [List.foldl_cons, ih, note_cutOff, or_assoc, List.mem_cons, eq_comm (a := recording)]

/-- The walks that validation starts are never cut off. -/
def ValidationEnds (context : Context) : Prop :=
  ∀ owner member, Recording.unfinished ∉ Walk.annotationMember context owner member

/-- The walks that validating what a trace reads can start are never cut off. Without a
validator there are none. -/
def ReadsEnd (session : Session) (trace : Trace) : Prop :=
  session.validator.isSome → ∀ read, .read read ∈ trace →
    Recording.unfinished ∉ Walk.annotationMember session.context read.annotation read.member

theorem ValidationEnds.reads {session : Session} (ends : ValidationEnds session.context)
    (trace : Trace) : session.ReadsEnd trace :=
  fun _ read _ => ends read.annotation read.member

private theorem validate_cutOff {session : Session} {read : ReadValue}
    (ends : Recording.unfinished ∉
      Walk.annotationMember session.context read.annotation read.member)
    (validator : Validator) :
    (session.validate validator read).cutOff = session.cutOff := by
  have noted := foldl_note_cutOff session
    (Walk.annotationMember session.context read.annotation read.member)
  simp only [ends, or_false] at noted
  have reported := reportViolations_keeps Session.cutOff (fun _ _ _ => rfl) (fun _ _ => rfl)
  rw [validate, reported]
  exact Bool.eq_iff_iff.mpr noted

private theorem observe_cutOff {session : Session} {recording : Recording}
    (ends : session.ReadsEnd [recording]) :
    (session.observe recording).cutOff = true ↔
      session.cutOff = true ∨ recording = .unfinished := by
  cases recording with
  | read read =>
    have kept : (session.observe (.read read)).cutOff = session.cutOff := by
      simp only [observe]
      split
      · next found =>
        split
        · have validated : session.validator.isSome := found ▸ rfl
          exact validate_cutOff (ends validated read List.mem_cons_self) _
        · rfl
      · rfl
    simp [kept]
  | write write => exact note_cutOff session (.write write)
  | warning element message => exact note_cutOff session (.warning element message)
  | promoteScope => exact note_cutOff session .promoteScope
  | unfinished => exact note_cutOff session .unfinished

/-- Validation does not cut off a build. -/
theorem observeAll_cutOff {session : Session} {trace : Trace}
    (ends : session.ReadsEnd trace) :
    (session.observeAll trace).cutOff = true ↔
      session.cutOff = true ∨ Recording.unfinished ∈ trace := by
  induction trace generalizing session with
  | nil => simp [observeAll]
  | cons recording rest ih =>
    have below : (session.observe recording).ReadsEnd rest := by
      have same := observe_sameSetting session recording
      rw [ReadsEnd, same.context, same.validator]
      exact fun validated read later => ends validated read (List.mem_cons_of_mem _ later)
    have step := ih below
    have here : session.ReadsEnd [recording] := fun validated read own =>
      ends validated read (List.mem_cons.mpr (.inl (List.mem_singleton.mp own)))
    have first := observe_cutOff here
    simp only [observeAll, List.foldl_cons] at step ⊢
    rw [step, first, or_assoc, List.mem_cons, eq_comm (a := recording)]

/-! ## Validator calls -/

theorem note_calls (session : Session) (recording : Recording) :
    (session.note recording).calls = session.calls := by
  cases recording with
  | write write => cases write <;> rfl
  | warning => rfl
  | read => rfl
  | promoteScope => rfl
  | unfinished => rfl

private theorem foldl_note_calls (session : Session) (trace : Trace) :
    (trace.foldl note session).calls = session.calls := by
  induction trace generalizing session with
  | nil => rfl
  | cons recording rest ih => exact (ih (session.note recording)).trans (note_calls session recording)

/-- The values that a trace reads, each with its member. -/
def readsOf (trace : Trace) : List (Element × Value) :=
  trace.filterMap fun
    | .read read => some (read.element, read.value)
    | _ => none

/-- Whether the trace reads values of no other member. -/
def readsOnly (trace : Trace) (owner member : String) : Bool :=
  trace.all fun
    | .read read => read.annotation == owner && read.member == member
    | _ => true

theorem eq_of_readsOnly {trace : Trace} {owner member : String} {read : ReadValue}
    (only : readsOnly trace owner member = true) (recorded : .read read ∈ trace) :
    read.annotation = owner ∧ read.member = member := by
  simpa using List.all_eq_true.mp only _ recorded

/-- The values of validator calls, each with its member. -/
def subjectsOf (calls : List ValidationCall) : List (Element × Value) :=
  calls.map fun call => (call.member, call.value)

/-- A validation calls the validator once, whatever its walk reads. -/
theorem calls_validate (session : Session) (validator : Validator) (read : ReadValue) :
    (session.validate validator read).calls = session.calls ++ [read.call session.context] := by
  have reported := reportViolations_keeps Session.calls (fun _ _ _ => rfl) (fun _ _ => rfl)
  rw [validate, reported]
  simp only [foldl_note_calls]
  rfl

theorem validate_calls (session : Session) (validator : Validator) (read : ReadValue) :
    ∃ metadata, (session.validate validator read).calls =
      session.calls ++ [⟨read.element, metadata, read.value⟩] :=
  ⟨_, session.calls_validate validator read⟩

private theorem observe_calls (session : Session) (recording : Recording) :
    ∃ made, (session.observe recording).calls = session.calls ++ made ∧
      (subjectsOf made).Sublist (readsOf [recording]) := by
  have none : ∃ made, session.calls = session.calls ++ made ∧
      (subjectsOf made).Sublist (readsOf [recording]) :=
    ⟨[], (List.append_nil _).symm, List.nil_sublist _⟩
  cases recording with
  | read read =>
    simp only [observe]
    split
    · next validator _ =>
      split
      · obtain ⟨metadata, made⟩ := validate_calls session validator read
        exact ⟨_, made, List.Sublist.refl _⟩
      · exact none
    · exact none
  | write write => cases write <;> exact none
  | warning => exact none
  | promoteScope => exact none
  | unfinished => exact none

/-- Validator calls are made for what a trace reads itself, in its order. The
walks that validation starts cause none. -/
theorem observeAll_calls (session : Session) (trace : Trace) :
    ∃ made, (session.observeAll trace).calls = session.calls ++ made ∧
      (subjectsOf made).Sublist (readsOf trace) := by
  induction trace generalizing session with
  | nil => exact ⟨[], (List.append_nil _).symm, List.nil_sublist _⟩
  | cons recording rest ih =>
    obtain ⟨first, firstMade, firstRead⟩ := observe_calls session recording
    obtain ⟨others, othersMade, othersRead⟩ := ih (session.observe recording)
    refine ⟨first ++ others, ?_, ?_⟩
    · rw [← List.append_assoc, ← firstMade]
      exact othersMade
    · have split : readsOf ([recording] ++ rest) = readsOf [recording] ++ readsOf rest :=
        List.filterMap_append
      rw [List.singleton_append] at split
      rw [split, subjectsOf, List.map_append]
      exact firstRead.append othersRead

end Session

end AnnotationMetadata
