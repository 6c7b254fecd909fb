import AnnotationMetadata.Dict.Lemmas
import AnnotationMetadata.Extension.Registry

set_option autoImplicit false

/-!
# Renaming extensions

A repeatable annotation is renamed by itself, together with its container, or with its whole
package. A registry of such extensions finds at most one of them for each annotation, and the
names that they give never meet.
-/

namespace AnnotationMetadata

/-! ## Parts of a name -/

namespace Name

theorem splitLastDot_eq_none_iff {text : List Char} : splitLastDot text = none ↔ '.' ∉ text := by
  induction text with
  | nil => simp [splitLastDot]
  | cons c rest ih =>
    rw [splitLastDot]
    cases found : splitLastDot rest with
    | some parts =>
      have dotted : '.' ∈ rest := Decidable.not_not.mp fun undotted =>
        nomatch found.symm.trans (ih.mpr undotted)
      simp [dotted]
    | none => simp [ih.mp found, eq_comm]

private theorem splitLastDot_append {before after : List Char} (undotted : '.' ∉ after) :
    splitLastDot (before ++ '.' :: after) = some (before, after) := by
  induction before with
  | nil => simp [splitLastDot, splitLastDot_eq_none_iff.mpr undotted]
  | cons c rest ih => rw [List.cons_append, splitLastDot, ih]

theorem eq_append_of_splitLastDot {text before after : List Char}
    (found : splitLastDot text = some (before, after)) :
    text = before ++ '.' :: after ∧ '.' ∉ after := by
  induction text generalizing before with
  | nil => cases found
  | cons c rest ih =>
    rw [splitLastDot] at found
    cases below : splitLastDot rest with
    | some parts =>
      rw [below] at found
      cases found
      obtain ⟨same, undotted⟩ := ih below
      exact ⟨congrArg (c :: ·) same, undotted⟩
    | none =>
      rw [below] at found
      obtain ⟨rfl, same⟩ := Option.ite_none_right_eq_some.mp found
      cases same
      exact ⟨rfl, splitLastDot_eq_none_iff.mp below⟩

private theorem undotted_simpleOf (name : String) : '.' ∉ (simpleOf name).toList := by
  unfold simpleOf
  split
  · next found => simpa using (eq_append_of_splitLastDot found).2
  · next missing => exact splitLastDot_eq_none_iff.mp missing

theorem packageOf_append_simpleOf {name : String} (packaged : packageOf name ≠ "") :
    packageOf name ++ "." ++ simpleOf name = name := by
  unfold packageOf at packaged
  unfold packageOf simpleOf
  cases found : splitLastDot name.toList with
  | none => exact absurd (by rw [found]) packaged
  | some parts =>
    obtain ⟨same, _⟩ := eq_append_of_splitLastDot found
    refine String.toList_injective ?_
    simp [same]

theorem simpleOf_moved (package name : String) :
    simpleOf (package ++ "." ++ simpleOf name) = simpleOf name := by
  have parts : (package ++ "." ++ simpleOf name).toList =
      package.toList ++ '.' :: (simpleOf name).toList := by simp
  rw [simpleOf, parts, splitLastDot_append (undotted_simpleOf name)]
  exact String.ofList_toList

end Name

/-! ## Registered extensions -/

namespace Extension

/-- The entries that registering the extension adds to the tables. -/
def mapper? : Extension → Option (String × Expansion)
  | .mapper key expand => if key = "" then none else some (key, expand)
  | _ => none

def transformer? : Extension → Option (String × Expansion)
  | .transformer key expand => if key = "" then none else some (key, expand)
  | _ => none

def remapper? : Extension → Option (String × Remapping)
  | .remapper key remap => if key = "" then none else some (key, remap)
  | _ => none

end Extension

namespace Registry

/-- The items of entries that are kept under a key. -/
def itemsAt {α : Type} (key : String) (entries : List (String × α)) : List α :=
  (entries.filter fun entry => entry.1 = key).map Prod.snd

@[simp]
theorem itemsAt_nil {α : Type} (key : String) : itemsAt key ([] : List (String × α)) = [] := rfl

@[simp]
theorem itemsAt_cons {α : Type} (key : String) (entry : String × α) (rest : List (String × α)) :
    itemsAt key (entry :: rest) =
      if entry.1 = key then entry.2 :: itemsAt key rest else itemsAt key rest := by
  rw [itemsAt, List.filter_cons]
  by_cases same : entry.1 = key
  · simp [itemsAt, same]
  · simp [itemsAt, same]

private theorem get?_addTo {α : Type} (table : Dict (List α)) (entry : String × α) (key : String) :
    (Dict.get? (addTo table entry.1 entry.2) key).getD [] =
      (Dict.get? table key).getD [] ++ itemsAt key [entry] := by
  rw [addTo, Dict.alter, Dict.get?_insert]
  by_cases same : entry.1 = key
  · simp [same]
  · simp [same]

def addEntry {α : Type} (table : Dict (List α)) : Option (String × α) → Dict (List α)
  | some entry => addTo table entry.1 entry.2
  | none => table

theorem tables_register (registry : Registry) (extension : Extension) :
    (registry.register extension).mapperTable = addEntry registry.mapperTable extension.mapper? ∧
      (registry.register extension).transformerTable =
        addEntry registry.transformerTable extension.transformer? ∧
      (registry.register extension).remapperTable =
        addEntry registry.remapperTable extension.remapper? := by
  unfold register
  split
  · next unnamed =>
    cases extension <;> simp_all [Extension.key, Extension.mapper?, Extension.transformer?,
      Extension.remapper?, addEntry]
  · next named =>
    cases extension <;> simp_all [Extension.key, Extension.mapper?, Extension.transformer?,
      Extension.remapper?, addEntry]

theorem getD_get?_ofExtensions {α : Type} {table : Registry → Dict (List α)}
    {item? : Extension → Option (String × α)} (empty : table .empty = [])
    (step : ∀ registry extension,
      table (register registry extension) = addEntry (table registry) (item? extension))
    (extensions : List Extension) (key : String) :
    (Dict.get? (table (ofExtensions extensions)) key).getD [] =
      itemsAt key (extensions.filterMap item?) := by
  have all : ∀ registry, (Dict.get? (table (extensions.foldl register registry)) key).getD [] =
      (Dict.get? (table registry) key).getD [] ++ itemsAt key (extensions.filterMap item?) := by
    induction extensions with
    | nil => exact fun registry => (List.append_nil _).symm
    | cons extension rest ih =>
      intro registry
      rw [List.foldl_cons, ih, step]
      cases found : item? extension with
      | none => rw [List.filterMap_cons_none found, addEntry]
      | some entry =>
        rw [addEntry, get?_addTo, List.filterMap_cons_some found, List.append_assoc, itemsAt,
          itemsAt, itemsAt, ← List.map_append, ← List.filter_append, List.singleton_append]
  rw [ofExtensions, all, empty]
  rfl

variable (extensions : List Extension) (name : String)

theorem mappers_ofExtensions :
    (ofExtensions extensions).mappers name =
      itemsAt name (extensions.filterMap Extension.mapper?) :=
  getD_get?_ofExtensions rfl (fun registry extension => (tables_register registry extension).1)
    extensions name

theorem transformers_ofExtensions :
    (ofExtensions extensions).transformers name =
      itemsAt name (extensions.filterMap Extension.transformer?) :=
  getD_get?_ofExtensions rfl (fun registry extension => (tables_register registry extension).2.1)
    extensions name

theorem remappers_ofExtensions :
    (ofExtensions extensions).remappers name =
      itemsAt name (extensions.filterMap Extension.remapper?) :=
  getD_get?_ofExtensions rfl (fun registry extension => (tables_register registry extension).2.2)
    extensions name

theorem remappersFor_ofExtensions :
    (ofExtensions extensions).remappersFor name =
      itemsAt (Name.packageOf name) (extensions.filterMap Extension.remapper?) :=
  remappers_ofExtensions extensions _

end Registry

/-! ## Renamings -/

/-- The ways to rename a repeatable annotation: alone, together with its container, or with
its package. -/
inductive Renaming (name container : String) where
  | alone (target : String)
  | grouped (target group : String)
  | package (target : String)

namespace Renaming

variable {name container : String}

def extensions : Renaming name container → List Extension
  | .alone target => [.rename name target]
  | .grouped target group => [.rename name target, .rename container group]
  | .package target => [.movePackage (Name.packageOf name) target]

/-- The name that an annotation has after the renaming. -/
def apply : Renaming name container → String → String
  | .alone target, other => if other = name then target else other
  | .grouped target group, other =>
    if other = name then target else if other = container then group else other
  | .package target, other =>
    if Name.packageOf other = Name.packageOf name then target ++ "." ++ Name.simpleOf other
    else other

end Renaming

/-- Every annotation has at most one extension, which gives it another name. -/
inductive Registry.Renames (registry : Registry) (rename : String → String) : Prop where
  | transforming (mappers : ∀ name, registry.mappers name = [])
      (remappers : ∀ name, registry.remappersFor name = [])
      (transformers : ∀ name, registry.transformers name = [] ∧ rename name = name ∨
        registry.transformers name =
          [fun _ annotation => [{ annotation with name := rename name }]]) :
      Renames registry rename
  | remapping (source : String) (remap : Remapping)
      (mappers : ∀ name, registry.mappers name = [])
      (transformers : ∀ name, registry.transformers name = [])
      (remappers : ∀ name,
        registry.remappersFor name = if Name.packageOf name = source then [remap] else [])
      (remaps : ∀ options annotation, remap options annotation =
        if Name.packageOf annotation.name = source then
          .replaced [{ annotation with name := rename annotation.name }]
        else .unchanged)
      (unmoved : ∀ name, Name.packageOf name ≠ source → rename name = name) :
      Renames registry rename

theorem Registry.itemsAt_eq_of_perm {α : Type} {entries others : List (String × α)} {key : String}
    (same : others.Perm entries) (single : (itemsAt key entries).length ≤ 1) :
    itemsAt key others = itemsAt key entries := by
  have items : (itemsAt key others).Perm (itemsAt key entries) := (same.filter _).map _
  cases found : itemsAt key entries with
  | nil => exact List.perm_nil.mp (found ▸ items)
  | cons first rest =>
    rw [found] at single items
    cases List.eq_nil_of_length_eq_zero (Nat.le_zero.mp (Nat.le_of_succ_le_succ single))
    exact List.perm_singleton.mp items

namespace Renaming

variable {name container : String}

/-! ## Registries of renamings -/

private theorem alone_renames {target : String} (named : name ≠ "") :
    (Registry.ofExtensions [.rename name target]).Renames
      (alone target : Renaming name container).apply := by
  refine .transforming (Registry.mappers_ofExtensions _) (Registry.remappersFor_ofExtensions _)
    fun found => ?_
  rw [Registry.transformers_ofExtensions, apply]
  by_cases same : found = name
  · right
    simp [Extension.transformer?, Extension.rename, named, same]
  · left
    simp [Extension.transformer?, Extension.rename, named, same, Ne.symm same]

private theorem grouped_renames {target group : String} {extensions : List Extension}
    (registered : extensions.Perm [.rename name target, .rename container group])
    (named : name ≠ "") (groups : container ≠ "") (other : name ≠ container) :
    (Registry.ofExtensions extensions).Renames
      (grouped target group : Renaming name container).apply := by
  have entries : (extensions.filterMap Extension.transformer?).Perm
      [(name, fun _ annotation => [{ annotation with name := target }]),
        (container, fun _ annotation => [{ annotation with name := group }])] := by
    have same := registered.filterMap Extension.transformer?
    simpa [Extension.transformer?, Extension.rename, named, groups] using same
  refine .transforming (fun found => ?_) (fun found => ?_) fun found => ?_
  · rw [Registry.mappers_ofExtensions, List.perm_nil.mp (registered.filterMap Extension.mapper?)]
    rfl
  · rw [Registry.remappersFor_ofExtensions,
      List.perm_nil.mp (registered.filterMap Extension.remapper?)]
    rfl
  · rw [Registry.transformers_ofExtensions, apply]
    by_cases same : found = name
    · right
      subst same
      rw [Registry.itemsAt_eq_of_perm entries] <;> simp [other.symm]
    · by_cases contained : found = container
      · right
        subst contained
        rw [Registry.itemsAt_eq_of_perm entries] <;> simp [other, same]
      · left
        rw [Registry.itemsAt_eq_of_perm entries] <;>
          simp [Ne.symm same, Ne.symm contained, same, contained]

private theorem package_renames {target : String} (packaged : Name.packageOf name ≠ "") :
    (Registry.ofExtensions [.movePackage (Name.packageOf name) target]).Renames
      (package target : Renaming name container).apply := by
  let remap : Remapping := fun _ annotation =>
    if Name.packageOf annotation.name = Name.packageOf name then
      .replaced [{ annotation with name := target ++ "." ++ Name.simpleOf annotation.name }]
    else .unchanged
  refine .remapping (Name.packageOf name) remap (Registry.mappers_ofExtensions _)
    (Registry.transformers_ofExtensions _) (fun found => ?_) (fun _ annotation => ?_)
    fun found unmoved => if_neg unmoved
  · rw [Registry.remappersFor_ofExtensions]
    by_cases same : Name.packageOf found = Name.packageOf name
    · simp [Extension.remapper?, Extension.movePackage, packaged, same, remap]
    · simp [Extension.remapper?, Extension.movePackage, packaged, same, Ne.symm same]
  · by_cases same : Name.packageOf annotation.name = Name.packageOf name
    · simp only [remap, apply, if_pos same]
    · simp only [remap, if_neg same]

/-- The extensions rename, in whichever order they are registered. -/
theorem renames_ofExtensions {rename : Renaming name container}
    (held : ∀ extension ∈ rename.extensions, extension.key ≠ "")
    {extensions : List Extension} (registered : extensions.Perm rename.extensions)
    (other : name ≠ container) :
    (Registry.ofExtensions extensions).Renames rename.apply := by
  cases rename with
  | alone target =>
    cases List.perm_singleton.mp registered
    exact alone_renames (held _ List.mem_cons_self)
  | grouped target group =>
    exact grouped_renames registered (held _ List.mem_cons_self)
      (held _ (List.mem_cons_of_mem _ List.mem_cons_self)) other
  | package target =>
    cases List.perm_singleton.mp registered
    exact package_renames (held _ List.mem_cons_self)

/-! ## Names after a renaming -/

theorem apply_ne_name {rename : Renaming name container} (moved : rename.apply name ≠ name)
    (elsewhere : rename.apply container ≠ name) (other : String) : rename.apply other ≠ name := by
  by_cases itself : other = name
  · rwa [itself]
  by_cases contains : other = container
  · rwa [contains]
  cases rename with
  | alone target => rwa [apply, if_neg itself]
  | grouped target group => rwa [apply, if_neg itself, if_neg contains]
  | package target =>
    rw [apply]
    split
    · rintro rfl
      refine moved ?_
      rw [apply, if_pos rfl, Name.simpleOf_moved]
    · exact itself

/-- No other annotation is given the new name of the renamed one, though one may have it. -/
theorem eq_of_apply_eq_apply_name {rename : Renaming name container}
    (held : ∀ extension ∈ rename.extensions, extension.key ≠ "")
    (distinct : rename.apply container ≠ rename.apply name) {other : String}
    (same : rename.apply other = rename.apply name) :
    other = name ∨ other = rename.apply name := by
  by_cases itself : other = name
  · exact .inl itself
  by_cases contains : other = container
  · exact absurd (contains ▸ same) distinct
  right
  cases rename with
  | alone target => rwa [apply, if_neg itself] at same
  | grouped target group => rwa [apply, if_neg itself, if_neg contains] at same
  | package target =>
    by_cases inside : Name.packageOf other = Name.packageOf name
    · rw [apply, if_pos inside, apply, if_pos rfl] at same
      have simple : Name.simpleOf other = Name.simpleOf name := by
        rw [← Name.simpleOf_moved target other, same, Name.simpleOf_moved]
      have packaged : Name.packageOf name ≠ "" := held _ List.mem_cons_self
      have whole := Name.packageOf_append_simpleOf packaged
      rw [← simple, ← inside] at whole
      rw [Name.packageOf_append_simpleOf (inside ▸ packaged)] at whole
      exact absurd whole itself
    · rwa [apply, if_neg inside] at same

end Renaming

end AnnotationMetadata
