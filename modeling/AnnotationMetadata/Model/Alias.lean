import AnnotationMetadata.Model.Query

set_option autoImplicit false

/-!
# Member aliases

A member of an annotation type can be declared to be an alias: its value also
counts as the value of another member, of the same annotation or of another one.
Annotations nested in values resolve the aliases among their own members.
-/

namespace AnnotationMetadata

structure MemberAlias where
  member : String
  /-- The annotation whose member is meant; nothing for the same annotation. -/
  target : Option String
  /-- Whether the declaration names an annotation at all, readable or not. -/
  namesTarget : Bool
  deriving DecidableEq

/-- The alias that an alias declaration stands for. -/
def MemberAlias.ofMembers? (members : Members) : Option MemberAlias := do
  let member ← (Dict.get? members "member").bind Value.string?
  let target := (Dict.get? members "annotation").or (Dict.get? members "annotationName")
  return ⟨member, target.bind Value.name?, target.isSome⟩

namespace Model

def alias? (model : Model) (member : Element) : Option MemberAlias :=
  MemberAlias.ofMembers? (model.membersOn member Name.aliasFor)

/-- The aliases of a member. A list of alias declarations takes the place of a
single one, even when it is empty. -/
def aliasesOf (model : Model) (member : Element) : List MemberAlias :=
  match Dict.get? (model.membersOn member Name.aliases) Name.valueMember with
  | some list => list.annotations.filterMap fun entry => MemberAlias.ofMembers? entry.members
  | none => (model.alias? member).toList

/-! ## Nested annotations -/

/-- The member of the same annotation that a declared member is an alias for. -/
def ownAlias? (model : Model) (owner member : String) : Option String := do
  let _ ← model.memberDeclaration? owner member
  let found ← model.alias? (.member owner member)
  if found.namesTarget then none else some found.member

/-- Adds a member and before it the member it is an alias for. Neither replaces a
value that is present. -/
def addAliased (model : Model) (owner : String) (members : Members)
    (entry : String × Value) : Members :=
  let aliased :=
    match model.ownAlias? owner entry.1 with
    | some target => Dict.insertNew members target entry.2
    | none => members
  Dict.insertNew aliased entry.1 entry.2

/-- Resolves the aliases among the members of an annotation; members of an
undeclared type are kept as they are. -/
def resolveMembers (model : Model) (owner : String) (members : Members) : Members :=
  match model.annotationType? owner with
  | none => members
  | some _ => members.foldl (model.addAliased owner) []

def resolveAnnotation (model : Model) (nested : Annotation) : Annotation :=
  { nested with members := model.resolveMembers nested.name nested.members }

mutual

/-- Resolves aliases in every annotation nested in a value, innermost first. -/
def resolve (model : Model) : Value → Value
  | .array items => .array (model.resolveItems items)
  | .nested ⟨name, members, retention, stereotypes⟩ =>
    .nested
      ⟨name, model.resolveMembers name (model.resolveEntries members), retention, stereotypes⟩
  | value => value

def resolveItems (model : Model) : List Value → List Value
  | [] => []
  | item :: rest => model.resolve item :: model.resolveItems rest

def resolveEntries (model : Model) : List (String × Value) → List (String × Value)
  | [] => []
  | (member, value) :: rest => (member, model.resolve value) :: model.resolveEntries rest

end

/-- The defaults that an annotation type declares, with aliases resolved. -/
def defaultsOf (model : Model) (name : String) : Members :=
  model.resolveEntries (model.writtenDefaults name)

/-- Adds a member under a name unless one is present. Returns the value that was
added. -/
def readMember (model : Model) (members : Members) (member : String) (written : Value) :
    Option Value × Members :=
  if Dict.contains members member then (none, members)
  else (some (model.resolve written), members ++ [(member, model.resolve written)])

end Model

end AnnotationMetadata
