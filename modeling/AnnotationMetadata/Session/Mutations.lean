import AnnotationMetadata.Model.Basic

set_option autoImplicit false

/-!
# Registered mutations

Once a compiler pass has changed the metadata of an element, builds of the same
element under the same declaring type return what the pass registered. A later
registration replaces an earlier one.
-/

namespace AnnotationMetadata

/-- An element under a declaring type. -/
structure MutationKey where
  declaringType : String
  element : Element
  deriving DecidableEq

/-- What is registered, each key once. -/
structure Mutations (α : Type) where
  entries : List (MutationKey × α) := []

namespace Mutations

variable {α : Type}

def empty : Mutations α := {}

def get? (mutations : Mutations α) (key : MutationKey) : Option α :=
  (mutations.entries.find? fun entry => entry.1 == key).map Prod.snd

def contains (mutations : Mutations α) (key : MutationKey) : Bool :=
  (mutations.get? key).isSome

def size (mutations : Mutations α) : Nat :=
  mutations.entries.length

def isEmpty (mutations : Mutations α) : Bool :=
  mutations.entries.isEmpty

/-- Registers a value in place of an earlier one. -/
def add (mutations : Mutations α) (key : MutationKey) (value : α) : Mutations α :=
  ⟨(key, value) :: mutations.entries.filter fun entry => entry.1 != key⟩

theorem get?_add (mutations : Mutations α) (key other : MutationKey) (value : α) :
    (mutations.add key value).get? other =
      if key = other then some value else mutations.get? other := by
  by_cases same : key = other
  · simp [add, get?, same]
  · simp only [add, get?, List.find?_cons, beq_eq_false_iff_ne.mpr same, List.find?_filter,
      if_neg same]
    congr 2
    funext entry
    by_cases wanted : entry.1 = other
    · simp [wanted, Ne.symm same]
    · simp [wanted]

end Mutations

end AnnotationMetadata
