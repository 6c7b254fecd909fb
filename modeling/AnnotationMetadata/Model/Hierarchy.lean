import AnnotationMetadata.Dict.Lemmas
import AnnotationMetadata.Model.Query

set_option autoImplicit false

/-!
# The hierarchy of an element

An element inherits annotations from its supertypes or from the members it
overrides. Its hierarchy lists the element and everything it inherits from, each
once, in the order of a depth-first walk. The walk ends on cyclic models, too:
every element it lists is declared, and none is listed twice.
-/

namespace AnnotationMetadata.Model

/-! ## Exploring declarations -/

/-- An element that is next in line, with what to say if it is not declared. -/
structure Link where
  name : String
  complaint : String

def unlisted (model : Model) (listed : List String) : Nat :=
  model.elementNames.countP fun name => !listed.contains name

private theorem countP_unlisted_lt {names listed : List String} {name : String}
    (member : name ∈ names) (fresh : name ∉ listed) :
    names.countP (fun other => !(listed ++ [name]).contains other) <
      names.countP fun other => !listed.contains other := by
  induction names with
  | nil => simp at member
  | cons head rest ih =>
    have weaker : rest.countP (fun other => !(listed ++ [name]).contains other) ≤
        rest.countP fun other => !listed.contains other := by
      apply List.countP_mono_left
      intro other _ unlisted
      simp only [Bool.not_eq_true', List.contains_eq_mem, decide_eq_false_iff_not] at unlisted ⊢
      exact fun listed => unlisted (List.mem_append_left _ listed)
    rw [List.countP_cons, List.countP_cons]
    by_cases same : head = name
    · subst head
      have before : (!listed.contains name) = true := by simp [fresh]
      have after : (!(listed ++ [name]).contains name) = false := by simp
      simp only [before, after, if_true, Bool.false_eq_true, if_false]
      omega
    · have smaller := ih (List.mem_of_ne_of_mem (Ne.symm same) member)
      have kept : (listed ++ [name]).contains head = listed.contains head := by
        simp [same]
      rw [kept]
      omega

/-- Listing a declared element leaves fewer to list. -/
theorem unlisted_lt {model : Model} {listed : List String} {name : String}
    {declaration : ElementDeclaration} (found : model.declaration? name = some declaration)
    (fresh : name ∉ listed) : model.unlisted (listed ++ [name]) < model.unlisted listed :=
  countP_unlisted_lt (Dict.mem_keys_iff.mpr ⟨declaration, found⟩) fresh

/-- Lists what is pending and everything linked from it, depth first, after what
is listed already. -/
def explore (model : Model) (links : String → ElementDeclaration → List Link)
    (pending : List Link) (listed : List String) : Except ModelError (List String) :=
  match pending with
  | [] => .ok listed
  | link :: rest =>
    if _ : link.name ∈ listed then explore model links rest listed
    else
      match _ : model.declaration? link.name with
      | none => .error (.failure link.complaint)
      | some declaration =>
        explore model links (links link.name declaration ++ rest) (listed ++ [link.name])
termination_by (model.unlisted listed, pending.length)
decreasing_by
  · exact Prod.Lex.right _ (by simp)
  · exact Prod.Lex.left _ _ (unlisted_lt (by assumption) (by assumption))

/-! ## Links -/

def unknownElement (name : String) : Link :=
  ⟨name, "unknown element " ++ name⟩

def supertypeLinks (name : String) (declaration : ElementDeclaration) : List Link :=
  declaration.supertypes.map fun supertype =>
    ⟨supertype, "unresolved supertype " ++ supertype ++ " of " ++ name⟩

def overrideLinks (_ : String) (declaration : ElementDeclaration) : List Link :=
  declaration.overrides.map unknownElement

def withTypes (model : Model) (name : String) (listed : List String) :
    Except ModelError (List String) :=
  model.explore supertypeLinks [unknownElement name] listed

def withOverridden (model : Model) (name : String) (declaration : ElementDeclaration)
    (listed : List String) : Except ModelError (List String) :=
  model.explore overrideLinks (overrideLinks name declaration) listed

/-! ## Hierarchies -/

/-- The hierarchy of a declared element by name. A method or constructor inherits
the hierarchy of its declaring type only when `inheritTypes` is set. -/
def declaredHierarchy (model : Model) (name : String) (declaration : ElementDeclaration)
    (inheritTypes : Bool) : Except ModelError (List String) :=
  match declaration.kind with
  | .classType => model.withTypes name []
  | .field => .ok [name]
  | _ => do
    let listed ←
      match inheritTypes, declaration.declaringType with
      | true, some owner => model.withTypes owner [name]
      | _, _ => .ok [name]
    model.withOverridden name declaration listed

/-- The element followed by what it inherits annotations from, or the element
alone when only declared annotations are asked for. -/
def hierarchy (model : Model) (element : Element) (inheritTypes declaredOnly : Bool) :
    Except ModelError (List Element) :=
  match element with
  | .declaration name =>
    match model.declaration? name with
    | none => .error (.failure ("unknown element " ++ name))
    | some declaration =>
      if declaredOnly then .ok [element]
      else (model.declaredHierarchy name declaration inheritTypes).map (·.map .declaration)
  | _ => .ok [element]

end AnnotationMetadata.Model
