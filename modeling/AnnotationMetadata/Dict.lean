set_option autoImplicit false

/-!
# Maps in insertion order

A `Dict` lists each key with its value. Order is part of the value: a key keeps
the place of its first insertion, also when its value is replaced. Every
operation below keeps the keys distinct.
-/

namespace AnnotationMetadata

/-- Keys with their values, in order of first insertion. -/
abbrev Dict (β : Type) : Type := List (String × β)

namespace Dict

variable {β : Type}

def keys (dict : Dict β) : List String :=
  dict.map Prod.fst

def values (dict : Dict β) : List β :=
  dict.map Prod.snd

def get? : Dict β → String → Option β
  | [], _ => none
  | (k, v) :: rest, key => if k = key then some v else get? rest key

def contains (dict : Dict β) (key : String) : Bool :=
  (get? dict key).isSome

/-- Sets the value of a key. A present key keeps its place, a new one comes last. -/
def insert : Dict β → String → β → Dict β
  | [], key, value => [(key, value)]
  | (k, v) :: rest, key, value =>
    if k = key then (k, value) :: rest else (k, v) :: insert rest key value

/-- Adds a key unless it is present. -/
def insertNew (dict : Dict β) (key : String) (value : β) : Dict β :=
  if contains dict key then dict else dict ++ [(key, value)]

/-- Applies `change` to the value of a key, or to `fallback` when the key is new. -/
def alter (dict : Dict β) (key : String) (fallback : β) (change : β → β) : Dict β :=
  insert dict key (change ((get? dict key).getD fallback))

/-- Sets every entry of `other`, one after the other; later values win. -/
def overlay (dict other : Dict β) : Dict β :=
  other.foldl (fun result entry => insert result entry.1 entry.2) dict

/-- Adds the entries of `other` whose keys are absent; earlier values win. -/
def underlay (dict other : Dict β) : Dict β :=
  other.foldl (fun result entry => insertNew result entry.1 entry.2) dict

/-- The map with the given entries; a repeated key keeps its first place and
takes its last value. -/
def ofEntries (entries : List (String × β)) : Dict β :=
  overlay [] entries

end Dict

/-- Appends an item unless the list holds it already. -/
def insertUnlisted {α : Type} [BEq α] (items : List α) (item : α) : List α :=
  if items.contains item then items else items ++ [item]

/-- Appends, in order, the items that are not listed yet. -/
def unionInOrder {α : Type} [BEq α] (items more : List α) : List α :=
  more.foldl insertUnlisted items

end AnnotationMetadata
