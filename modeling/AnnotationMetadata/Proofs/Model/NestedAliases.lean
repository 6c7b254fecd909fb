import AnnotationMetadata.Dict.Lemmas
import AnnotationMetadata.Model.Alias

set_option autoImplicit false

/-!
# Aliases in nested annotations

The members of a nested annotation are gone through in order. Each of them counts for the
member that it is an alias for, then for itself, and what is there is kept. So the first
written member that counts for a member decides its value: the member itself, unless an
alias for it is written before.
-/

namespace AnnotationMetadata

theorem Dict.get?_eq_find? {β : Type} (dict : Dict β) (key : String) :
    get? dict key = (dict.find? fun entry => entry.1 == key).map Prod.snd := by
  induction dict with
  | nil => rfl
  | cons entry rest ih =>
    rw [get?, List.find?_cons, ih]
    by_cases named : entry.1 = key
    · simp [named]
    · rw [if_neg named, beq_false_of_ne named]

/-! ## Parts of a value -/

/-- One step down into a value: to an item of an array, or to a member of an annotation. -/
inductive Value.Step where
  | item (index : Nat)
  | member (name : String)

namespace Value

def step? : Value → Step → Option Value
  | .array items, .item index => items[index]?
  | .nested written, .member name => written.value? name
  | _, _ => none

/-- The part of a value that a path leads to. -/
def at? (value : Value) : List Step → Option Value
  | [] => some value
  | step :: rest => (value.step? step).bind fun part => part.at? rest

end Value

namespace Model

variable {model : Model}

/-! ## Members of one annotation -/

/-- A member counts for another one that it is an alias for, and for itself. -/
def countsFor (model : Model) (owner member : String) (entry : String × Value) : Bool :=
  model.ownAlias? owner entry.1 == some member || entry.1 == member

/-- The value of the first written member that counts for a member. -/
def supplied? (model : Model) (nested : Annotation) (member : String) : Option Value :=
  (nested.members.find? (model.countsFor nested.name member)).map Prod.snd

/-- No member that is written before a member is an alias for it. -/
def Keeps (model : Model) (nested : Annotation) (member : String) : Prop :=
  ∀ entry ∈ nested.members.takeWhile fun entry => entry.1 != member,
    model.ownAlias? nested.name entry.1 ≠ some member

private theorem get?_addAliased (owner : String) (members : Members) (entry : String × Value)
    (member : String) :
    Dict.get? (model.addAliased owner members entry) member =
      (Dict.get? members member).or
        (if model.countsFor owner member entry then some entry.2 else none) := by
  unfold addAliased countsFor
  cases aliased : model.ownAlias? owner entry.1 with
  | none => simp [Dict.get?_insertNew]
  | some target =>
    simp only [Dict.get?_insertNew, Option.or_assoc]
    congr 1
    by_cases named : target = member
    · simp [named]
    · simp [named]

private theorem get?_foldl_addAliased (owner : String) (written members : Members)
    (member : String) :
    Dict.get? (written.foldl (model.addAliased owner) members) member =
      (Dict.get? members member).or
        ((written.find? (model.countsFor owner member)).map Prod.snd) := by
  induction written generalizing members with
  | nil => simp
  | cons entry rest ih =>
    rw [List.foldl_cons, ih, get?_addAliased, Option.or_assoc, List.find?_cons]
    congr 1
    cases model.countsFor owner member entry <;> rfl

private theorem get?_resolveMembers (owner : String) (written : Members) (member : String) :
    Dict.get? (model.resolveMembers owner written) member =
      (written.find? (model.countsFor owner member)).map Prod.snd := by
  unfold resolveMembers
  cases declared : model.annotationType? owner with
  | some _ => exact get?_foldl_addAliased owner written [] member
  | none =>
    have own : model.countsFor owner member = fun entry => entry.1 == member := by
      funext entry
      simp [countsFor, ownAlias?, memberDeclaration?, declared]
    rw [own, Dict.get?_eq_find?]

/-- What is supplied for a member is written for it, or for an alias for it. -/
theorem exists_written_of_supplied? {nested : Annotation} {member : String} {value : Value}
    (supplied : model.supplied? nested member = some value) :
    ∃ name, nested.value? name = some value ∧
      (name = member ∨ model.ownAlias? nested.name name = some member) := by
  obtain ⟨entry, found, rfl⟩ := Option.map_eq_some_iff.mp supplied
  refine ⟨entry.1, ?_, ?_⟩
  · -- Whether an entry counts depends on its name, so no other entry of that name is before it.
    unfold Annotation.value?
    rw [Dict.get?_eq_find?]
    obtain ⟨counts, before, after, split, passed⟩ := List.find?_eq_some_iff_append.mp found
    have first : ∀ other ∈ before, (!(other.1 == entry.1)) = true := by
      intro other listed
      rw [Bool.not_eq_true', beq_eq_false_iff_ne]
      intro same
      have counted := passed other listed
      rw [countsFor, same, ← countsFor, counts] at counted
      cases counted
    have own : nested.members.find? (fun other => other.1 == entry.1) = some entry :=
      List.find?_eq_some_iff_append.mpr ⟨beq_self_eq_true _, before, after, split, first⟩
    rw [own, Option.map_some]
  · have counts := List.find?_some found
    rw [countsFor, Bool.or_eq_true, beq_iff_eq, beq_iff_eq] at counts
    exact counts.symm

/-- A member that keeps its place is supplied by what is written for it. -/
theorem supplied?_of_keeps {nested : Annotation} {member : String}
    (keeps : model.Keeps nested member) :
    model.supplied? nested member = nested.value? member := by
  obtain ⟨owner, written, retention, stereotypes⟩ := nested
  unfold Keeps at keeps
  unfold supplied? Annotation.value?
  dsimp only at keeps ⊢
  induction written with
  | nil => rfl
  | cons entry rest ih =>
    rw [List.find?_cons, Dict.get?]
    by_cases named : entry.1 = member
    · simp [countsFor, named]
    · have before : (entry.1 != member) = true := by simpa using named
      simp only [List.takeWhile_cons, before, if_true] at keeps
      have elsewhere : model.countsFor owner member entry = false := by
        simpa [countsFor, named] using keeps entry List.mem_cons_self
      rw [elsewhere, if_neg named]
      exact ih fun later listed => keeps later (List.mem_cons_of_mem _ listed)

/-! ## Resolved values -/

/-- An annotation with all aliases resolved, its own and those of what is nested in it. -/
def resolveNested (model : Model) (nested : Annotation) : Annotation :=
  { nested with members := model.resolveMembers nested.name (model.resolveEntries nested.members) }

theorem resolve_nested (nested : Annotation) :
    model.resolve (.nested nested) = .nested (model.resolveNested nested) := by
  obtain ⟨name, members, retention, stereotypes⟩ := nested
  rw [resolve, resolveNested]

private theorem resolveItems_eq_map (items : List Value) :
    model.resolveItems items = items.map model.resolve := by
  induction items with
  | nil => rfl
  | cons item rest ih => rw [resolveItems, ih, List.map_cons]

private theorem resolveEntries_eq_map (written : Members) :
    model.resolveEntries written = written.map fun entry => (entry.1, model.resolve entry.2) := by
  induction written with
  | nil => rfl
  | cons entry rest ih => rw [resolveEntries, ih, List.map_cons]

theorem value?_resolveNested (nested : Annotation) (member : String) :
    (model.resolveNested nested).value? member =
      (model.supplied? nested member).map model.resolve := by
  unfold Annotation.value?
  rw [resolveNested, get?_resolveMembers, resolveEntries_eq_map,
    List.find?_map, supplied?, Option.map_map, Option.map_map]
  rfl

/-- The part of a value that a step into the resolved value leads to. -/
def source? (model : Model) : Value → Value.Step → Option Value
  | .array items, .item index => items[index]?
  | .nested nested, .member name => model.supplied? nested name
  | _, _ => none

theorem step?_resolve (value : Value) (step : Value.Step) :
    (model.resolve value).step? step = (model.source? value step).map model.resolve := by
  cases value with
  | array items =>
    rw [resolve, resolveItems_eq_map]
    cases step with
    | item index => simp [Value.step?, source?]
    | member => rfl
  | nested nested =>
    rw [resolve_nested]
    cases step with
    | item => rfl
    | member name => simpa [Value.step?, source?] using value?_resolveNested nested name
  | _ => cases step <;> simp [resolve, Value.step?, source?]

private theorem exists_step_of_source? {value part : Value} {step : Value.Step}
    (led : model.source? value step = some part) : ∃ first, value.step? first = some part := by
  unfold source? at led
  split at led
  · next index => exact ⟨.item index, led⟩
  · next nested name =>
    obtain ⟨written, held, -⟩ := exists_written_of_supplied? led
    exact ⟨.member written, held⟩
  · cases led

/-- Resolution makes nothing up: a part of a resolved value is a part of the value, resolved. -/
theorem exists_part_of_resolve {value resolved : Value} {path : List Value.Step}
    (held : (model.resolve value).at? path = some resolved) :
    ∃ source written, value.at? source = some written ∧ source.length = path.length ∧
      resolved = model.resolve written := by
  induction path generalizing value with
  | nil =>
    cases held
    exact ⟨[], value, rfl, rfl, rfl⟩
  | cons step rest ih =>
    rw [Value.at?, step?_resolve, Option.bind_map] at held
    obtain ⟨part, led, below⟩ := Option.bind_eq_some_iff.mp held
    obtain ⟨source, written, there, long, same⟩ := ih below
    obtain ⟨first, reached⟩ := exists_step_of_source? led
    refine ⟨first :: source, written, ?_, congrArg Nat.succ long, same⟩
    rw [Value.at?, reached]
    exact there

/-! ## Parts that are kept -/

def KeepsStep (model : Model) : Value → Value.Step → Prop
  | .nested nested, .member name => model.Keeps nested name
  | _, _ => True

/-- Every member that a path goes through keeps its place. -/
def KeepsAlong (model : Model) : Value → List Value.Step → Prop
  | _, [] => True
  | value, step :: rest =>
    model.KeepsStep value step ∧
      ∀ part, value.step? step = some part → model.KeepsAlong part rest

private theorem source?_of_keepsStep {value : Value} {step : Value.Step}
    (keeps : model.KeepsStep value step) : model.source? value step = value.step? step := by
  unfold KeepsStep at keeps
  split at keeps
  · exact supplied?_of_keeps keeps
  · unfold source? Value.step?
    split <;> simp_all

private theorem at?_resolve_of_keepsAlong {value part : Value} {path : List Value.Step}
    (keeps : model.KeepsAlong value path) (held : value.at? path = some part) :
    (model.resolve value).at? path = some (model.resolve part) := by
  induction path generalizing value with
  | nil =>
    cases held
    rfl
  | cons step rest ih =>
    obtain ⟨here, below⟩ := keeps
    obtain ⟨next, stepped, led⟩ := Option.bind_eq_some_iff.mp held
    rw [Value.at?, step?_resolve, source?_of_keepsStep here, stepped]
    exact ih (below next stepped) led

/-- An annotation that is nested in a value is there in the resolved value, too, when every
member on the way to it keeps its place. It has the same name, retention and stereotypes. For
each member it holds what the first written member that counts for it holds. A member that keeps
its place holds what is written for it, and a member that is not written is the target of an
alias. -/
theorem nested_annotation_of_resolved {value : Value} {path : List Value.Step}
    {nested : Annotation} (written : value.at? path = some (.nested nested))
    (keeps : model.KeepsAlong value path) :
    ∃ resolved : Annotation, (model.resolve value).at? path = some (.nested resolved) ∧
      resolved.name = nested.name ∧ resolved.retention = nested.retention ∧
      resolved.stereotypes = nested.stereotypes ∧
      (∀ member, resolved.value? member = (model.supplied? nested member).map model.resolve) ∧
      (∀ member held, nested.value? member = some held → model.Keeps nested member →
        resolved.value? member = some (model.resolve held)) ∧
      ∀ member, (resolved.value? member).isSome = true →
        (nested.value? member).isSome = true ∨
          ∃ name, (nested.value? name).isSome = true ∧
            model.ownAlias? nested.name name = some member := by
  have resolved := at?_resolve_of_keepsAlong keeps written
  rw [resolve_nested] at resolved
  refine ⟨_, resolved, rfl, rfl, rfl, value?_resolveNested nested, ?_, ?_⟩
  · intro member held own first
    rw [value?_resolveNested, supplied?_of_keeps first, own, Option.map_some]
  · intro member present
    rw [value?_resolveNested, Option.isSome_map] at present
    obtain ⟨held, supplied⟩ := Option.isSome_iff_exists.mp present
    obtain ⟨name, own, rfl | aliased⟩ := exists_written_of_supplied? supplied
    · exact .inl (own ▸ rfl)
    · exact .inr ⟨name, own ▸ rfl, aliased⟩

/-- A name that is an alias for the value. -/
def namedModel : Model where
  document :=
    { annotations :=
        [("bean.Named",
            { members :=
                [(Name.valueMember, {}),
                  ("name",
                    { annotations :=
                        [{ name := Name.aliasFor
                           members := [("member", .string Name.valueMember)] }] })] }),
          ("bean.Row", { members := [("primary", {})] })] }
where
  /-- A row with both members, the value first or the name first. -/
  row (valueFirst : Bool) : Value :=
    .nested { name := "bean.Row", members := [("primary", .nested (named valueFirst))] }
  named (valueFirst : Bool) : Annotation :=
    { name := "bean.Named"
      members :=
        if valueFirst then [(Name.valueMember, .string "b"), ("name", .string "a")]
        else [("name", .string "a"), (Name.valueMember, .string "b")] }

/-- The value stands first, and is kept. -/
theorem namedModel_kept :
    ∃ resolved : Annotation,
      (namedModel.resolve (.array [namedModel.row true])).at? [.item 0, .member "primary"] =
        some (.nested resolved) ∧
      resolved.value? Name.valueMember = some (.string "b") ∧
      resolved.value? "name" = some (.string "a") := by
  have value : namedModel.Keeps (namedModel.named true) Name.valueMember :=
    fun _ passed => nomatch passed
  have name : namedModel.Keeps (namedModel.named true) "name" := by
    intro entry passed
    cases List.mem_singleton.mp passed
    decide
  have along : namedModel.KeepsAlong (.array [namedModel.row true])
      [.item 0, .member "primary"] := by
    refine ⟨trivial, fun row first => ?_⟩
    cases first
    exact ⟨fun _ passed => (nomatch passed), fun _ _ => trivial⟩
  have written : (Value.array [namedModel.row true]).at? [.item 0, .member "primary"] =
      some (.nested (namedModel.named true)) := rfl
  obtain ⟨resolved, held, _, _, _, _, kept, _⟩ := nested_annotation_of_resolved written along
  exact ⟨resolved, held, kept _ (.string "b") rfl value, kept _ (.string "a") rfl name⟩

/-- The name stands first, and takes the place of the value that is written after it. -/
theorem namedModel_replaced :
    (namedModel.named false).value? Name.valueMember = some (.string "b") ∧
    ∃ resolved : Annotation,
      (namedModel.resolve (.array [namedModel.row false])).at? [.item 0, .member "primary"] =
        some (.nested resolved) ∧
      resolved.value? Name.valueMember = some (.string "a") :=
  ⟨rfl, _, rfl, rfl⟩

end Model

end AnnotationMetadata
