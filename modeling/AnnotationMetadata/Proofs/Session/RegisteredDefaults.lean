import AnnotationMetadata.Proofs.Session.History
import AnnotationMetadata.Proofs.Walk.GivenDefaults

set_option autoImplicit false

/-!
# Registered defaults

A session registers the defaults that the walks of its requests give, and nothing else.
Without a validator and without registered metadata the walk of a request is the same in
every session, so a run registers the same defaults in whatever order it is served.
-/

namespace AnnotationMetadata

namespace Session

/-! ## Taking in a trace -/

theorem note_defaults (session : Session) (recording : Recording) :
    (session.note recording).defaults = Store.addTable session.defaults recording.given := by
  cases recording with
  | write write => cases write <;> rfl
  | warning => rfl
  | read => rfl
  | promoteScope => rfl
  | unfinished => rfl

theorem foldl_note_defaults (session : Session) (trace : Trace) :
    (trace.foldl note session).defaults = Store.addTable session.defaults trace.given := by
  induction trace generalizing session with
  | nil => rfl
  | cons recording rest ih =>
    rw [List.foldl_cons, ih, note_defaults, ← Store.addTable_append]
    rfl

private theorem observe_of_unvalidated {session : Session} (unvalidated : session.validator = none)
    (recording : Recording) : session.observe recording = session.note recording := by
  cases recording with
  | read read => simp only [observe, unvalidated, note]
  | write => rfl
  | warning => rfl
  | promoteScope => rfl
  | unfinished => rfl

/-- Without a validator a session only notes what is recorded. -/
theorem observeAll_of_unvalidated {session : Session} (unvalidated : session.validator = none)
    (trace : Trace) : session.observeAll trace = trace.foldl note session := by
  induction trace generalizing session with
  | nil => rfl
  | cons recording rest ih =>
    have kept : (session.note recording).validator = none :=
      (note_sameSetting session recording).validator.trans unvalidated
    rw [observeAll, List.foldl_cons, observe_of_unvalidated unvalidated, List.foldl_cons]
    exact ih kept

private theorem observeAll_defaults {session : Session} (unvalidated : session.validator = none)
    (trace : Trace) :
    (session.observeAll trace).defaults = Store.addTable session.defaults trace.given := by
  rw [observeAll_of_unvalidated unvalidated, foldl_note_defaults]

/-! ## Serving a request -/

/-- A request registers what its walk gives, unless it is answered with registered metadata. -/
theorem serve_defaults (session : Session) (request : Request) :
    (session.serve request).2.defaults =
        ({ session with cutOff := false }.observeAll
          (request.walk session.context).trace).defaults ∨
      (∃ declaringType element, (session.mutation? declaringType element).isSome) ∧
        (session.serve request).2.defaults = session.defaults := by
  have served := serve_served session request
  generalize session.serve request = result at served ⊢
  cases served with
  | known _ found =>
    rcases found with ⟨_, walked⟩ | ⟨declaringType, element, known⟩
    · rw [walked]
      exact .inl rfl
    · exact .inr ⟨⟨declaringType, element, known ▸ rfl⟩, rfl⟩
  | observed => exact .inl rfl
  | registered asked => subst asked; exact .inl rfl
  | cleared asked => subst asked; exact .inl rfl

/-! ## Answers -/

private theorem get?_defaults_of_ofStore {store : Store} {name : String} {members : Members}
    (found : (Metadata.ofStore store).defaultValues? name = some members) :
    Dict.get? store.defaults name = some members := by
  cases recorded : store.isEmpty with
  | true =>
    simp only [Metadata.ofStore, recorded, if_true] at found
    cases found
  | false =>
    rw [Metadata.ofStore_eq_store recorded, Metadata.defaultValues?, Metadata.layers,
      List.findSome?_singleton] at found
    exact found

theorem eq_ofStore_of_conclude {session : Session} {element : Element} {seed : Store}
    {walk : ElementWalk} {metadata : Metadata}
    (built : (session.conclude element seed walk).1 = .ok metadata) :
    metadata = .empty ∨ metadata = .ofStore (seed.recordAll walk.trace) := by
  simp only [conclude] at built
  split at built
  · cases built
  · split at built
    · exact .inr (Except.ok.inj built).symm
    · exact .inl (Except.ok.inj built).symm
    · cases built

/-- Where nothing is registered, a build returns what its walk records, if anything. -/
theorem eq_ofStore_of_serve {session : Session} {request : Request} {metadata : Metadata}
    (unregistered : ∀ declaringType element, session.mutation? declaringType element = none)
    (builds : ∀ given occurrence, request ≠ .annotate given occurrence)
    (returned : (session.serve request).1 = some (.ok metadata)) :
    metadata = .empty ∨
      metadata = .ofStore (Store.empty.recordAll (request.walk session.context).trace) := by
  have fresh : ∀ declaringType element options,
      session.buildUnlessMutated declaringType element options =
        session.buildFresh none element .empty options := by
    intro declaringType element options
    rw [buildUnlessMutated, unregistered]
  have seed : seedOf none = .empty := rfl
  cases request with
  | build element =>
    simp only [serve, answered, build, buildWithDeclaringType, fresh, Option.some.injEq] at returned
    exact eq_ofStore_of_conclude returned
  | buildWithDeclaringType declaringType element =>
    simp only [serve, answered, buildWithDeclaringType, fresh, Option.some.injEq] at returned
    exact eq_ofStore_of_conclude returned
  | buildDeclared element => exact eq_ofStore_of_conclude (Option.some.inj returned)
  | buildOverridden element =>
    simp only [serve, answered, buildOverridden, fresh, Option.some.injEq] at returned
    exact eq_ofStore_of_conclude returned
  | buildForMethod element =>
    simp only [serve, answered, buildForMethod, fresh, Option.some.injEq] at returned
    exact eq_ofStore_of_conclude returned
  | buildGiven element annotations includeElement =>
    simp only [serve, answered, buildGiven, Request.walk] at returned ⊢
    split at returned
    · cases returned
      exact .inl rfl
    · next given =>
      rw [if_neg given]
      exact eq_ofStore_of_conclude (Option.some.inj returned)
  | buildForParent parent element =>
    simp only [serve, answered, buildForParent, buildForParentWith, unregistered, seed,
      Option.some.injEq] at returned
    exact eq_ofStore_of_conclude returned
  | buildForParentWithDeclaringType declaringType parent element =>
    simp only [serve, answered, buildForParentWithDeclaringType, buildForParentWith, unregistered,
      seed, Option.some.injEq] at returned
    exact eq_ofStore_of_conclude returned
  | buildForParentInheriting parent element inheritTypes =>
    simp only [serve, answered, buildForParentInheriting, buildForParentWith, unregistered, seed,
      Option.some.injEq] at returned
    exact eq_ofStore_of_conclude returned
  | annotate metadata occurrence => exact absurd rfl (builds metadata occurrence)
  | addMutation => cases returned
  | clearMutations => cases returned

end Session

/-! ## Runs -/

/-- The defaults that a run registers in a fresh session without a validator. -/
def registeredBy (context : Context) (run : List (Nat × Request)) : Defaults :=
  ((SharedSession.fresh context none).serveAll run).session.defaults

/-- What the walks of all requests of a run give defaults for, with these. -/
def givenBy (context : Context) (run : List (Nat × Request)) : List (String × Members) :=
  run.flatMap fun call => (call.2.walk context).trace.given

section Runs

variable {context : Context} {run : List (Nat × Request)}

private theorem registeredBy_eq (keeps : ∀ call ∈ run, call.2.KeepsMutations) :
    registeredBy context run = Store.addTable [] (givenBy context run) := by
  induction run using List.reverseRecOn with
  | nil => rfl
  | append_singleton run call ih =>
    have before : ∀ earlier ∈ run, earlier.2.KeepsMutations :=
      fun earlier served => keeps earlier (List.mem_append_left _ served)
    obtain ⟨same, mutations⟩ := SharedSession.serveAll_leaves context none run
    have unvalidated := SharedSession.serveAll_validator context none run
    have reached := ih before
    have step : registeredBy context (run ++ [call]) =
        ((((SharedSession.fresh context none).serveAll run).seenBy call.1).serve
          call.2).2.defaults := by
      rw [registeredBy, SharedSession.serveAll_concat]
      rfl
    rw [registeredBy] at reached
    generalize (SharedSession.fresh context none).serveAll run = shared
      at same mutations unvalidated reached step
    have given : givenBy context (run ++ [call]) =
        givenBy context run ++ (call.2.walk context).trace.given := by
      simp [givenBy]
    subst same
    rw [step, given, Store.addTable_append, ← reached]
    rcases (shared.seenBy call.1).serve_defaults call.2 with walked | ⟨⟨type, element, known⟩, _⟩
    · have uncut : ({ shared.seenBy call.1 with cutOff := false } : Session).validator = none :=
        unvalidated
      exact walked.trans (Session.observeAll_defaults uncut _)
    · have unknown : (shared.seenBy call.1).mutation? type element = none :=
        (mutations type element).trans (lastRegistered_eq_none before type element)
      rw [unknown] at known
      cases known

theorem eq_defaultsOf_of_mem_given {request : Request} {entry : String × Members}
    (given : entry ∈ (request.walk context).trace.given) :
    entry.2 = context.model.defaultsOf entry.1 := by
  have recorded := Trace.mem_given_iff.mp given
  rcases Request.ofElements_or_added recorded with walked | ⟨_, occurrence, _, added⟩
  · exact walked.givesDeclared
  · exact (Walk.IsStart.addition occurrence).givesDeclared _ _ added

theorem get?_registeredBy (keeps : ∀ call ∈ run, call.2.KeepsMutations) (name : String) :
    Dict.get? (registeredBy context run) name =
      if name ∈ (givenBy context run).map Prod.fst then
        some (Dict.underlay [] (context.model.defaultsOf name))
      else none := by
  rw [registeredBy_eq keeps]
  refine Store.get?_addTable_declared ?_ name
  intro entry given
  obtain ⟨call, _, given⟩ := List.mem_flatMap.mp given
  exact eq_defaultsOf_of_mem_given given

/-- Only what is given counts, not how often or in which order. -/
private theorem get?_registeredBy_of_perm {other : List (Nat × Request)}
    (keeps : ∀ call ∈ run, call.2.KeepsMutations) (reordered : run.Perm other) (name : String) :
    Dict.get? (registeredBy context run) name = Dict.get? (registeredBy context other) name := by
  have same : name ∈ (givenBy context run).map Prod.fst ↔
      name ∈ (givenBy context other).map Prod.fst :=
    ((reordered.flatMap_right _).map Prod.fst).mem_iff
  rw [get?_registeredBy keeps, get?_registeredBy fun call member =>
    keeps call (reordered.mem_iff.mpr member)]
  simp only [same]

private theorem get?_members_of_registeredBy (keeps : ∀ call ∈ run, call.2.KeepsMutations)
    {name : String}
    {members : Members} (registered : Dict.get? (registeredBy context run) name = some members)
    (member : String) :
    Dict.get? members member = Dict.get? (context.model.defaultsOf name) member := by
  rw [get?_registeredBy keeps] at registered
  split at registered
  · cases registered
    rw [Dict.get?_underlay]
    rfl
  · cases registered

private theorem get?_registeredBy_append {after : List (Nat × Request)}
    (keeps : ∀ call ∈ run ++ after, call.2.KeepsMutations) {name : String} {members : Members}
    (registered : Dict.get? (registeredBy context run) name = some members) :
    Dict.get? (registeredBy context (run ++ after)) name = some members := by
  rw [get?_registeredBy fun call member => keeps call (List.mem_append_left _ member)]
    at registered
  split at registered
  · next given =>
    have still : name ∈ (givenBy context (run ++ after)).map Prod.fst := by
      rw [givenBy, List.flatMap_append, List.map_append]
      exact List.mem_append_left _ given
    rw [get?_registeredBy keeps, if_pos still]
    exact registered
  · cases registered

/-- The store that a build returns has its defaults from the trace that the session takes in. -/
private theorem get?_registeredBy_of_build {call : Nat × Request}
    (keeps : ∀ served ∈ run ++ [call], served.2.KeepsMutations)
    (builds : ∀ given occurrence, call.2 ≠ .annotate given occurrence) {metadata : Metadata}
    (answered : (((SharedSession.fresh context none).serveAll run).serve call.1 call.2).1 =
      some (.ok metadata))
    {name : String} {recorded : Members} (found : metadata.defaultValues? name = some recorded) :
    Dict.get? (registeredBy context (run ++ [call])) name = some recorded := by
  obtain ⟨same, mutations⟩ := SharedSession.serveAll_leaves context none run
  have unknown : ∀ declaringType element,
      (((SharedSession.fresh context none).serveAll run).seenBy call.1).mutation?
        declaringType element = none := fun declaringType element =>
    (mutations declaringType element).trans
      (lastRegistered_eq_none (fun earlier member => keeps earlier (List.mem_append_left _ member))
        declaringType element)
  have walked : Dict.get? (Store.addTable [] (call.2.walk context).trace.given) name =
      some recorded := by
    have seen : (((SharedSession.fresh context none).serveAll run).seenBy call.1).context =
        context := same
    rcases Session.eq_ofStore_of_serve unknown builds answered with rfl | rfl
    · cases found
    · rw [seen] at found
      have held := Session.get?_defaults_of_ofStore found
      rwa [Store.recordAll_defaults] at held
  rw [Store.get?_addTable_declared fun entry given => eq_defaultsOf_of_mem_given given] at walked
  split at walked
  · next given =>
    have registered : name ∈ (givenBy context (run ++ [call])).map Prod.fst := by
      rw [givenBy, List.flatMap_append, List.map_append, List.flatMap_singleton]
      exact List.mem_append_right _ given
    rw [get?_registeredBy keeps, if_pos registered, walked]
  · cases walked

end Runs

/-- Builds and additions of annotations that run in a fresh session register the same defaults
in any order. All along, they are the declared ones, with nested aliases resolved, and stay as
they are. The defaults that a build records in its result are among them. -/
theorem registered_defaults_of_run {context : Context} {run : List (Nat × Request)}
    (keeps : ∀ call ∈ run, call.2.KeepsMutations) :
    (∀ other, run.Perm other → ∀ name,
      Dict.get? (registeredBy context run) name = Dict.get? (registeredBy context other) name) ∧
    (∀ before, before <+: run → ∀ name members,
      Dict.get? (registeredBy context before) name = some members →
        (∀ member,
          Dict.get? members member = Dict.get? (context.model.defaultsOf name) member) ∧
        Dict.get? (registeredBy context run) name = some members) ∧
    ∀ before call, before ++ [call] <+: run →
      (∀ given occurrence, call.2 ≠ .annotate given occurrence) →
      ∀ metadata, (((SharedSession.fresh context none).serveAll before).serve call.1 call.2).1 =
          some (.ok metadata) →
        ∀ name recorded, metadata.defaultValues? name = some recorded →
          Dict.get? (registeredBy context (before ++ [call])) name = some recorded := by
  have kept : ∀ {served}, served <+: run → ∀ call ∈ served, call.2.KeepsMutations :=
    fun before call member => keeps call (before.subset member)
  refine ⟨?_, ?_, ?_⟩
  · intro other reordered name
    exact get?_registeredBy_of_perm keeps reordered name
  · intro before earlier name members registered
    refine ⟨get?_members_of_registeredBy (kept earlier) registered, ?_⟩
    obtain ⟨after, rfl⟩ := earlier
    exact get?_registeredBy_append keeps registered
  · intro before call earlier builds metadata answered name recorded found
    exact get?_registeredBy_of_build (kept earlier) builds answered found

/-- The default of an annotation is an annotation that has an alias among its members, and
another annotation is an alias for the first one. -/
def pricedContext : Context where
  registry := .ofExtensions [.rename "old.Priced" "shop.Priced"]
  model :=
    { document :=
        { annotations :=
            [("shop.Amount",
                { members :=
                    [("cents", {}),
                      ("price",
                        { annotations :=
                            [{ name := Name.aliasFor
                               members := [("member", .string "cents")] }] })] }),
              ("shop.Priced",
                { members :=
                    [("amount",
                        { default :=
                            some (.nested
                              { name := "shop.Amount", members := [("price", .string "5")] }) }),
                      ("label", {})] }),
              ("shop.Sale",
                { members :=
                    [("label",
                        { default := some (.string "sale")
                          annotations :=
                            [{ name := Name.aliasFor
                               members :=
                                [("annotation", .string "shop.Priced"),
                                  ("member", .string "label")] }] })] })]
          elements :=
            [("shop.book",
                { kind := .field
                  annotations :=
                    [{ name := "shop.Sale", members := [("label", .string "spring")] }] })] } }

/-- A build that reaches the annotation as the target of an alias registers the defaults that
adding it registers, and records them. -/
theorem pricedContext_registered :
    (∀ name,
      Dict.get? (registeredBy pricedContext
          [(0, .annotate .empty { name := "shop.Priced" }),
            (1, .build (.declaration "shop.book"))]) name =
        Dict.get? (registeredBy pricedContext
          [(1, .build (.declaration "shop.book")),
            (0, .annotate .empty { name := "shop.Priced" })]) name) ∧
      ∃ metadata : Metadata,
        (((SharedSession.fresh pricedContext none).serveAll []).serve 1
          (.build (.declaration "shop.book"))).1 = some (.ok metadata) ∧
        metadata.defaultValues? "shop.Priced" =
          some [("amount", .nested
            { name := "shop.Amount"
              members := [("cents", .string "5"), ("price", .string "5")] })] ∧
        metadata.defaultValues? "shop.Priced" =
          Dict.get? (registeredBy pricedContext [(1, .build (.declaration "shop.book"))])
            "shop.Priced" := by
  have keeps : ∀ call ∈
      [(1, Request.build (.declaration "shop.book")),
        (0, .annotate .empty { name := "shop.Priced" })], call.2.KeepsMutations := by
    simp only [List.mem_cons, List.not_mem_nil, or_false]
    rintro call (rfl | rfl)
    · exact ⟨rfl, fun _ _ => rfl⟩
    · exact ⟨rfl, fun _ _ => rfl⟩
  obtain ⟨reordered, _, recorded⟩ := registered_defaults_of_run keeps
  refine ⟨fun name => (reordered _ (.swap _ _ _) name).symm, _, rfl, rfl, ?_⟩
  exact (recorded [] _ ⟨_, rfl⟩ (fun _ _ same => nomatch same) _ rfl "shop.Priced" _ rfl).symm

end AnnotationMetadata
