import AnnotationMetadata.Dict.Lemmas
import AnnotationMetadata.Value.Basic
import Mathlib.Data.List.Nodup
import Mathlib.Data.List.Perm.Subperm

set_option autoImplicit false

/-!
# Agreement

A value agrees with itself unless it holds a double that is no number. Where agreement is asked
for, a value therefore counts that is the same or agrees. Annotations agree if they have the
same members with values that agree, in whatever order.
-/

namespace AnnotationMetadata

/-! ## The doubles in a value -/

mutual

/-- The binary64 numbers in the value. -/
def Value.doubles : Value → List Double
  | .double value => [value]
  | .array items => Value.doublesOfItems items
  | .nested occurrence => occurrence.doubles
  | _ => []

def Value.doublesOfItems : List Value → List Double
  | [] => []
  | item :: rest => item.doubles ++ Value.doublesOfItems rest

def Annotation.doubles : Annotation → List Double
  | ⟨_, members, _, stereotypes⟩ =>
    Value.doublesOfMembers members ++ Annotation.doublesOfAll stereotypes

def Value.doublesOfMembers : List (String × Value) → List Double
  | [] => []
  | (_, value) :: rest => value.doubles ++ Value.doublesOfMembers rest

def Annotation.doublesOfAll : List Annotation → List Double
  | [] => []
  | occurrence :: rest => occurrence.doubles ++ Annotation.doublesOfAll rest

end

/-! ## Values that agree with themselves -/

private theorem Double.sameNumber_self_iff {x : Double} :
    x.sameNumber x = true ↔ x.isNaN = false := by
  have number : x.isZero = true → x.isNaN = false := by
    intro zero
    have code : x.code = 0 := beq_iff_eq.mp zero
    rw [isNaN, code]
    rfl
  simpa [sameNumber] using number

/-- What is no number is not the same as itself. -/
def Double.nan : Double := ⟨false, 0x7ff8000000000000, by decide⟩

mutual

theorem Value.agrees_self : (value : Value) → (∀ x ∈ value.doubles, x.isNaN = false) →
    value.agrees value = true
  | .bool _, _ => by simp [Value.agrees]
  | .long _, _ => by simp [Value.agrees]
  | .double _, numbers => by
    simpa only [Value.agrees] using Double.sameNumber_self_iff.mpr (numbers _ List.mem_cons_self)
  | .string _, _ => by simp [Value.agrees]
  | .array items, numbers => by
    simpa only [Value.agrees] using Value.itemsAgree_self items numbers
  | .classRef _, _ => by simp [Value.agrees]
  | .enumConstant _, _ => by simp [Value.agrees]
  | .nested occurrence, numbers => by
    simpa only [Value.agrees] using occurrence.agrees_self numbers

theorem Value.itemsAgree_self : (items : List Value) →
    (∀ x ∈ Value.doublesOfItems items, x.isNaN = false) → Value.itemsAgree items items = true
  | [], _ => by simp [Value.itemsAgree]
  | item :: rest, numbers => by
    have first := item.agrees_self fun x held => numbers x (List.mem_append_left _ held)
    have others := Value.itemsAgree_self rest fun x held => numbers x (List.mem_append_right _ held)
    rw [Value.itemsAgree, first, others, Bool.and_self]

theorem Annotation.agrees_self : (occurrence : Annotation) →
    (∀ x ∈ occurrence.doubles, x.isNaN = false) → occurrence.agrees occurrence = true
  | ⟨name, members, retention, stereotypes⟩, numbers => by
    have within : Value.membersWithin [] members members = true :=
      Value.membersWithin_append [] members fun x held =>
        numbers x (List.mem_append_left _ held)
    have alike := Annotation.allAgree_self stereotypes fun x held =>
      numbers x (List.mem_append_right _ held)
    simp only [within, alike, Annotation.agrees, beq_self_eq_true, Bool.and_self]

/-- The members that come after some others are found among all of them, unless
they are hidden by those. -/
theorem Value.membersWithin_append (before : List (String × Value)) :
    (members : List (String × Value)) →
      (∀ x ∈ Value.doublesOfMembers members, x.isNaN = false) →
        Value.membersWithin (Dict.keys before).reverse members (before ++ members) = true
  | [], _ => by simp [Value.membersWithin]
  | (member, value) :: rest, numbers => by
    have others := Value.membersWithin_append (before ++ [(member, value)]) rest
      fun x held => numbers x (List.mem_append_right _ held)
    have listed : (Dict.keys (before ++ [(member, value)])).reverse =
        member :: (Dict.keys before).reverse := by
      simp [Dict.keys]
    rw [listed, List.append_assoc, List.singleton_append] at others
    simp only [Value.membersWithin, others, Bool.and_true, Bool.or_eq_true]
    by_cases hidden : member ∈ Dict.keys before
    · exact .inl (by simpa using hidden)
    · have found : Dict.get? (before ++ (member, value) :: rest) member = some value := by
        rw [Dict.get?_append, Dict.get?_eq_none_iff.mpr hidden]
        simp [Dict.get?]
      refine .inr ?_
      rw [found]
      exact value.agrees_self fun x held => numbers x (List.mem_append_left _ held)

theorem Annotation.allAgree_self : (occurrences : List Annotation) →
    (∀ x ∈ Annotation.doublesOfAll occurrences, x.isNaN = false) →
      Annotation.allAgree occurrences occurrences = true
  | [], _ => by unfold Annotation.allAgree; rfl
  | occurrence :: rest, numbers => by
    have first := occurrence.agrees_self fun x held => numbers x (List.mem_append_left _ held)
    have others := Annotation.allAgree_self rest fun x held =>
      numbers x (List.mem_append_right _ held)
    simp only [first, others, Annotation.allAgree, Bool.and_self]

end

theorem Annotation.name_eq_of_agrees {first second : Annotation}
    (agrees : first.agrees second = true) : first.name = second.name := by
  obtain ⟨name, members, retention, stereotypes⟩ := first
  simp only [Bool.and_eq_true, beq_iff_eq, Annotation.agrees] at agrees
  exact agrees.1.1.1.1

theorem Value.exists_nested_of_agrees {value : Value} {item : Annotation}
    (agrees : value.agrees (.nested item) = true) :
    ∃ occurrence, value = .nested occurrence ∧ occurrence.agrees item = true := by
  cases value with
  | nested occurrence => exact ⟨occurrence, rfl, by simpa only [Value.agrees] using agrees⟩
  | _ => simp only [Value.agrees, Bool.false_eq_true] at agrees

/-! ## Matches -/

/-- The value is the other one or agrees with it. -/
def Value.Matches (value other : Value) : Prop :=
  value = other ∨ value.agrees other = true

/-- The occurrence is the other one or agrees with it. -/
def Annotation.Matches (occurrence other : Annotation) : Prop :=
  occurrence = other ∨ occurrence.agrees other = true

theorem Annotation.Matches.name_eq {occurrence other : Annotation}
    (same : occurrence.Matches other) : occurrence.name = other.name :=
  same.elim (congrArg Annotation.name) name_eq_of_agrees

theorem Value.Matches.exists_nested {value : Value} {item : Annotation}
    (same : value.Matches (.nested item)) :
    ∃ occurrence, value = .nested occurrence ∧ occurrence.Matches item := by
  rcases same with rfl | agrees
  · exact ⟨item, rfl, .inl rfl⟩
  · obtain ⟨occurrence, nested, agreeing⟩ := Value.exists_nested_of_agrees agrees
    exact ⟨occurrence, nested, .inr agreeing⟩

theorem Value.exists_matches_insertUnlisted (items : List Value) (item : Value) :
    ∃ present ∈ Value.insertUnlisted items item, present.Matches item := by
  unfold Value.insertUnlisted
  split
  · next listed =>
    obtain ⟨present, member, agrees⟩ := List.any_eq_true.mp listed
    exact ⟨present, member, .inr agrees⟩
  · exact ⟨item, by simp, .inl rfl⟩

theorem Value.subset_insertUnlisted (items : List Value) (item : Value) :
    items ⊆ Value.insertUnlisted items item := by
  unfold Value.insertUnlisted
  split
  · exact List.Subset.refl _
  · exact List.subset_append_left _ _

/-! ## Members -/

private theorem Value.membersWithin_cons_iff {hidden : List String} {name : String} {value : Value}
    {rest other : List (String × Value)} :
    Value.membersWithin hidden ((name, value) :: rest) other = true ↔
      (name ∈ hidden ∨ ∃ found, Dict.get? other name = some found ∧ value.agrees found = true) ∧
        Value.membersWithin (name :: hidden) rest other = true := by
  rw [Value.membersWithin]
  cases Dict.get? other name with
  | none => simp
  | some found => simp

private theorem Value.membersWithin_iff {hidden : List String}
    {members other : List (String × Value)} :
    Value.membersWithin hidden members other = true ↔
      ∀ member value, member ∉ hidden → Dict.get? members member = some value →
        ∃ found, Dict.get? other member = some found ∧ value.agrees found = true := by
  induction members generalizing hidden with
  | nil => simp [Value.membersWithin, Dict.get?]
  | cons entry rest ih =>
    obtain ⟨name, value⟩ := entry
    rw [Value.membersWithin_cons_iff, ih]
    constructor
    · rintro ⟨listed, below⟩ member held unhidden found
      by_cases same : name = member
      · subst same
        rw [Dict.get?, if_pos rfl] at found
        cases found
        exact listed.resolve_left unhidden
      · rw [Dict.get?, if_neg same] at found
        refine below member held (fun hides => ?_) found
        rcases List.mem_cons.mp hides with rfl | before
        · exact same rfl
        · exact unhidden before
    · intro all
      refine ⟨?_, fun member held unhidden found => ?_⟩
      · by_cases hides : name ∈ hidden
        · exact .inl hides
        · exact .inr (all name value hides (if_pos rfl))
      · have different : name ≠ member := fun same => unhidden (same ▸ List.mem_cons_self)
        exact all member held (fun hides => unhidden (List.mem_cons_of_mem _ hides))
          ((if_neg different).trans found)

private theorem Dict.length_eq_of_mem_keys_iff {β : Type} {first second : Dict β}
    (firstDistinct : (keys first).Nodup) (secondDistinct : (keys second).Nodup)
    (same : ∀ key, key ∈ keys first ↔ key ∈ keys second) : first.length = second.length := by
  have permuted := (List.perm_ext_iff_of_nodup firstDistinct secondDistinct).mpr same
  simpa [keys] using permuted.length_eq

private theorem isSome_iff_of_rel {α β : Type} {related : α → β → Prop} {first : Option α}
    {second : Option β} (rel : Option.Rel related first second) :
    first.isSome = true ↔ second.isSome = true := by
  cases rel with
  | some => simp
  | none => simp

private theorem exists_of_rel_some {α β : Type} {related : α → β → Prop} {value : α}
    {second : Option β} (rel : Option.Rel related (some value) second) :
    ∃ found, second = some found ∧ related value found := by
  cases rel with
  | some holds => exact ⟨_, rfl, holds⟩

/-- The order of members is ignored. -/
theorem Annotation.agrees_iff {first second : Annotation}
    (firstDistinct : (Dict.keys first.members).Nodup)
    (secondDistinct : (Dict.keys second.members).Nodup) :
    first.agrees second = true ↔
      first.name = second.name ∧ first.retention = second.retention ∧
        Annotation.allAgree first.stereotypes second.stereotypes = true ∧
        ∀ member, Option.Rel (fun value found => value.agrees found = true)
          (Dict.get? first.members member) (Dict.get? second.members member) := by
  obtain ⟨name, members, retention, stereotypes⟩ := first
  simp only [Bool.and_eq_true, beq_iff_eq, Annotation.agrees, Value.membersWithin_iff,
    List.not_mem_nil, not_false_eq_true, true_implies]
  constructor
  · rintro ⟨⟨⟨⟨sameName, sameRetention⟩, sameLength⟩, within⟩, alike⟩
    refine ⟨sameName, sameRetention, alike, fun member => ?_⟩
    have listed : Dict.keys members ⊆ Dict.keys second.members := by
      intro member present
      obtain ⟨value, held⟩ := Dict.mem_keys_iff.mp present
      obtain ⟨found, there, _⟩ := within member value held
      exact Dict.mem_keys_iff.mpr ⟨found, there⟩
    have permuted : (Dict.keys members).Perm (Dict.keys second.members) :=
      (firstDistinct.subperm listed).perm_of_length_le (by simp [Dict.keys, sameLength])
    cases held : Dict.get? members member with
    | some value =>
      obtain ⟨found, there, agreeing⟩ := within member value held
      rw [there]
      exact .some agreeing
    | none =>
      have missing := mt permuted.mem_iff.mpr (Dict.get?_eq_none_iff.mp held)
      rw [Dict.get?_eq_none_iff.mpr missing]
      exact .none
  · rintro ⟨sameName, sameRetention, alike, related⟩
    refine ⟨⟨⟨⟨sameName, sameRetention⟩, ?_⟩, fun member value held => ?_⟩, alike⟩
    · refine Dict.length_eq_of_mem_keys_iff firstDistinct secondDistinct fun member => ?_
      rw [Dict.mem_keys_iff, Dict.mem_keys_iff, ← Option.isSome_iff_exists,
        ← Option.isSome_iff_exists]
      exact isSome_iff_of_rel (related member)
    · have found := related member
      rw [held] at found
      exact exists_of_rel_some found

end AnnotationMetadata
