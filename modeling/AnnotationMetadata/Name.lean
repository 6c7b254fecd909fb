set_option autoImplicit false

/-!
# Qualified names

Annotation types are known by qualified name. This module splits a name into
its package and its simple part, and lists the names that building metadata
reacts to.
-/

namespace AnnotationMetadata.Name

/-! ## Parts of a name -/

/-- The characters before and after the last dot, if there is a dot. -/
def splitLastDot : List Char → Option (List Char × List Char)
  | [] => none
  | c :: rest =>
    match splitLastDot rest with
    | some (before, after) => some (c :: before, after)
    | none => if c = '.' then some ([], rest) else none

/-- The package of a qualified name, empty for an unqualified one. -/
def packageOf (name : String) : String :=
  match splitLastDot name.toList with
  | some (before, _) => String.ofList before
  | none => ""

/-- The part of a qualified name after its package. -/
def simpleOf (name : String) : String :=
  match splitLastDot name.toList with
  | some (_, after) => String.ofList after
  | none => name

/-- Whether the name ends in `.Nullable`; such annotations are never walked for
meta-annotations when they stand on an element. -/
def isNullability (name : String) : Bool :=
  ".Nullable".toList.isSuffixOf name.toList

/-! ## Names with a meaning of their own -/

/-- Redirects a member value to another member, possibly of another annotation. -/
def aliasFor : String := "io.micronaut.context.annotation.AliasFor"

/-- Groups several `aliasFor` entries on one member. -/
def aliases : String := "io.micronaut.context.annotation.Aliases"

/-- Marks a member whose class value is instantiated rather than referenced. -/
def instantiatedMember : String := "io.micronaut.core.annotation.InstantiatedMember"

def around : String := "io.micronaut.aop.Around"

def introduction : String := "io.micronaut.aop.Introduction"

def interceptorBinding : String := "io.micronaut.aop.InterceptorBinding"

/-- Groups `interceptorBinding` entries. -/
def interceptorBindings : String := "io.micronaut.aop.InterceptorBindingDefinitions"

/-- Names the interceptor bound to an interception annotation. -/
def interceptorType : String := "io.micronaut.context.annotation.Type"

def scope : String := "javax.inject.Scope"

def defaultScope : String := "io.micronaut.context.annotation.DefaultScope"

def internal : String := "io.micronaut.core.annotation.Internal"

def experimental : String := "io.micronaut.core.annotation.Experimental"

def nullable : String := "javax.annotation.Nullable"

def nonNull : String := "javax.annotation.Nonnull"

def coreNullable : String := "io.micronaut.core.annotation.Nullable"

def coreNonNull : String := "io.micronaut.core.annotation.NonNull"

/-- The meta-annotation of bean validation constraints. -/
def constraint : String := "javax.validation.Constraint"

/-! ## Members with a meaning of their own -/

def valueMember : String := "value"

def kindMember : String := "kind"

def interceptorTypeMember : String := "interceptorType"

/-- Whether the annotation starts an interceptor binding by itself, so that a
binding declared on it is not walked. -/
def isInterceptionKind (name : String) : Bool :=
  name == around || name == introduction

end AnnotationMetadata.Name
