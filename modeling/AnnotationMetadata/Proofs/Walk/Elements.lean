import AnnotationMetadata.Proofs.Model.Readability
import AnnotationMetadata.Proofs.Walk.Budget

set_option autoImplicit false

/-!
# Walks and declared elements

A walk looks up annotation types and their members. Of the declared elements it reads
the occurrences that it starts with, and nothing else: it is the same with other elements
declared in their place.
-/

namespace AnnotationMetadata

/-- The model with other elements declared in place of its own. -/
def Model.withElements (model : Model) (elements : Dict ElementDeclaration) : Model :=
  { model with document := { model.document with elements } }

def Context.withElements (context : Context) (elements : Dict ElementDeclaration) : Context :=
  { context with model := context.model.withElements elements }

@[simp] theorem Context.model_withElements (context : Context)
    (elements : Dict ElementDeclaration) :
    (context.withElements elements).model = context.model.withElements elements :=
  rfl

/-! ## Values -/

namespace Model

variable (model : Model) (elements : Dict ElementDeclaration)

mutual

theorem resolve_withElements :
    (value : Value) → (model.withElements elements).resolve value = model.resolve value
  | .array items => by rw [resolve, resolve, resolveItems_withElements]
  | .nested ⟨_, members, _, _⟩ => by
    rw [resolve, resolve, resolveEntries_withElements]
    rfl
  | .bool _ | .long _ | .double _ | .string _ | .classRef _ | .enumConstant _ => rfl

theorem resolveItems_withElements : (items : List Value) →
    (model.withElements elements).resolveItems items = model.resolveItems items
  | [] => rfl
  | item :: rest => by
    rw [resolveItems, resolveItems, resolve_withElements, resolveItems_withElements]

theorem resolveEntries_withElements : (members : List (String × Value)) →
    (model.withElements elements).resolveEntries members = model.resolveEntries members
  | [] => rfl
  | (member, value) :: rest => by
    rw [resolveEntries, resolveEntries, resolve_withElements, resolveEntries_withElements]

end

end Model

/-! ## Occurrences -/

section Walks

variable (context : Context) (elements : Dict ElementDeclaration)

theorem Context.defaults_withElements (name : String) :
    (context.withElements elements).defaults name = context.defaults name := by
  unfold defaults Model.defaultsOf
  rw [model_withElements, Model.resolveEntries_withElements]
  rfl

namespace Walk

theorem readOwn_withElements :
    readOwn (context.withElements elements) = readOwn context := by
  funext source member written progress
  simp only [readOwn, Context.model_withElements, Model.resolve_withElements]

private theorem writeAliased_withElements :
    writeAliased (context.withElements elements) = writeAliased context := by
  funext source member value target
  simp only [writeAliased, Context.defaults_withElements]
  rfl

private theorem followAlias_withElements :
    followAlias (context.withElements elements) = followAlias context := by
  funext source written progress found
  simp only [followAlias, Context.model_withElements, Model.resolve_withElements,
    writeAliased_withElements]
  rfl

theorem readAliased_withElements :
    readAliased (context.withElements elements) = readAliased context := by
  funext source progress entry
  simp only [readAliased, readOwn_withElements, followAlias_withElements]
  rfl

private theorem markInstantiated_withElements :
    markInstantiated (context.withElements elements) = markInstantiated context := by
  funext source progress entry
  simp only [markInstantiated, Context.model_withElements, Model.resolve_withElements]
  rfl

private theorem readEntry_withElements :
    readEntry (context.withElements elements) = readEntry context := by
  funext source aliases progress entry
  simp only [readEntry, readOwn_withElements, readAliased_withElements,
    markInstantiated_withElements]

private theorem runtimeDefaults_withElements :
    runtimeDefaults (context.withElements elements) = runtimeDefaults context := by
  funext name
  simp only [runtimeDefaults, Context.defaults_withElements]
  rfl

private theorem writeMapped_withElements :
    writeMapped (context.withElements elements) = writeMapped context := by
  funext originating declared mapped
  simp only [writeMapped, aliasedByMapped, readAliased_withElements,
    Context.defaults_withElements]
  rfl

theorem populate_withElements :
    populate (context.withElements elements) = populate context := by
  funext originating declared aliases enclosing occurrence
  simp only [populate, readMembers, readEntry_withElements, runtimeDefaults_withElements,
    writeMapped_withElements]
  rfl

/-! ## Replacements -/

private theorem remapped_withElements (declared : Bool) (placement : Placement)
    (occurrence : Annotation) (kept : Bool) (outcomes : List RemapOutcome) :
    remapped (context.withElements elements) declared placement occurrence kept outcomes =
      remapped context declared placement occurrence kept outcomes := by
  induction outcomes generalizing kept with
  | nil => rfl
  | cons outcome rest ih =>
    cases outcome with
    | unchanged =>
      rw [remapped, remapped, ih]
    | replaced annotations =>
      rw [remapped, remapped, ih]
      rfl

theorem replace_withElements :
    replace (context.withElements elements) = replace context := by
  funext declared placement name members
  simp only [replace, remapped_withElements]
  rfl

/-! ## Levels -/

private theorem readMeta_withElements :
    readMeta (context.withElements elements) = readMeta context := by
  funext declared chain owner occurrence
  simp only [readMeta, populate_withElements, replace_withElements]

private theorem level_withElements : level (context.withElements elements) = level context := by
  funext descent
  simp only [level, readMetas, readMeta_withElements]
  rfl

theorem stereotypes_withElements (levels : Nat) :
    stereotypes (context.withElements elements) levels = stereotypes context levels := by
  induction levels with
  | zero => rfl
  | succ levels ih =>
    funext descent
    rw [stereotypes, stereotypes, level_withElements, ih]
    rfl

private theorem carryOut_withElements :
    carryOut (context.withElements elements) = carryOut context := by
  funext plan
  rw [carryOut, carryOut, stereotypes_withElements]
  rfl

private theorem includeOne_withElements :
    includeOne (context.withElements elements) = includeOne context := by
  funext element declared aliases occurrence
  simp only [includeOne, populate_withElements, replace_withElements]
  rfl

theorem occurrences_withElements :
    occurrences (context.withElements elements) = occurrences context := by
  funext element declared aliases annotations
  simp only [occurrences, includeOne_withElements]
  rfl

theorem memberOccurrences_withElements :
    memberOccurrences (context.withElements elements) = memberOccurrences context := by
  funext owner name
  rw [memberOccurrences, occurrences_withElements]
  rfl

end Walk

end Walks

theorem Walk.Plan.Ends.withElements {context : Context} {elements : Dict ElementDeclaration}
    {plan : Plan} (ends : Ends context plan) : Ends (context.withElements elements) plan := by
  obtain ⟨levels, finished⟩ := ends
  exact ⟨levels, by rwa [stereotypes_withElements]⟩

/-! ## Elements that break off -/

/-- In place of the elements of the model others are declared, which differ from them in
nothing but what breaks off. -/
def Model.ChangesAborts (model : Model) (elements : Dict ElementDeclaration) : Prop :=
  ∀ name, ((model.withElements elements).declaration? name).map ElementDeclaration.unaborted =
    (model.declaration? name).map ElementDeclaration.unaborted

namespace Model.ChangesAborts

variable {model : Model} {elements : Dict ElementDeclaration}

/-- What is read off the declaration of an element regardless of aborts is the same. -/
theorem declaration_congr (changes : model.ChangesAborts elements) {α : Type}
    (part : Option ElementDeclaration → α)
    (regardless : ∀ found, part (found.map ElementDeclaration.unaborted) = part found)
    (name : String) :
    part ((model.withElements elements).declaration? name) = part (model.declaration? name) := by
  rw [← regardless, changes name, regardless]

theorem occurrencesOn (changes : model.ChangesAborts elements) (element : Element) :
    (model.withElements elements).occurrencesOn element = model.occurrencesOn element := by
  have written : (model.withElements elements).writtenOn element = model.writtenOn element := by
    cases element with
    | annotationType name => rfl
    | member owner name => rfl
    | declaration name =>
      exact changes.declaration_congr
        (fun found => (found.map ElementDeclaration.annotations).getD [])
        (fun found => by cases found <;> rfl) name
  rw [Model.occurrencesOn, Model.occurrencesOn, written]
  rfl

theorem declaringType (changes : model.ChangesAborts elements) (element : Element) :
    (model.withElements elements).declaringType element = model.declaringType element := by
  cases element with
  | annotationType name => rfl
  | member owner name => rfl
  | declaration name =>
    exact changes.declaration_congr (fun found => (found.bind (·.declaringType)).getD name)
      (fun found => by cases found <;> rfl) name

end Model.ChangesAborts

theorem Walk.elementTrace_withElements {context : Context} {elements : Dict ElementDeclaration}
    (changes : context.model.ChangesAborts elements) (target : Element) (aliases : Bool)
    (current : Element) :
    elementTrace (context.withElements elements) target aliases current =
      elementTrace context target aliases current := by
  rw [elementTrace, carryOut_withElements, occurrences_withElements, Context.model_withElements,
    changes.occurrencesOn, elementTrace]

end AnnotationMetadata
