import AnnotationMetadata.Proofs.Store.Recorded
import AnnotationMetadata.Proofs.Walk.MetaGraph

set_option autoImplicit false

/-!
# Interceptor bindings of a walk

The binding of a type is made from the meta-annotations that it carries, the same
wherever a walk comes to the type. The walk of an element writes the bindings of the
types that it comes to into their group, and nothing else of that name.
-/

namespace AnnotationMetadata

variable {context : Context}

/-- A write of an annotation is keyed by its container, if it has one. -/
theorem Placement.exists_write_of_writeIn (placement : Placement) (declared : Bool)
    (container : Option String) (item : Annotation) :
    ∃ write, placement.writeIn declared container item = .write write ∧
      write.key? = some (container.getD item.name) ∧
      write.grouping? = container.map fun container => (item.name, container) := by
  cases container <;> cases placement <;> exact ⟨_, rfl, rfl, rfl⟩

/-! ## Bindings of types -/

/-- Whether a meta-annotation has its owner bound to an interceptor. -/
def Name.bindsOwner (name : String) : Bool :=
  name == around || name == introduction || name == interceptorBinding

theorem Interception.kind?_eq (name : String) :
    kind? name = if Name.bindsOwner name then
      some (if name = Name.introduction then "INTRODUCTION" else "AROUND") else none := by
  have apart : Name.introduction ≠ Name.around ∧ Name.introduction ≠ Name.interceptorBinding := by
    decide
  by_cases introduces : name = Name.introduction
  · subst introduces
    simp [kind?, Name.bindsOwner, apart]
  · by_cases around : name = Name.around ∨ name = Name.interceptorBinding
    · rcases around with rfl | rfl <;> simp [kind?, Name.bindsOwner, introduces]
    · obtain ⟨other, unbound⟩ := not_or.mp around
      simp [kind?, Name.bindsOwner, introduces, other, unbound]

namespace Model

variable (model : Model) (owner : String)

/-- The meta-annotations of a type that can make up its binding. A binding that is declared
on an interception kind is none of them. -/
def interceptionMetas : List Annotation :=
  (model.occurrencesOn (.annotationType owner)).filter fun occurrence =>
    !(Name.isInterceptionKind owner && occurrence.name == Name.interceptorBinding)

/-- The type carries an interception annotation that counts. -/
def isBound : Bool :=
  (model.interceptionMetas owner).any fun occurrence => Name.bindsOwner occurrence.name

/-- The first interception annotation decides. -/
def boundKind : String :=
  match (model.interceptionMetas owner).find? fun occurrence =>
    Name.bindsOwner occurrence.name with
  | some first => if first.name = Name.introduction then "INTRODUCTION" else "AROUND"
  | none => "AROUND"

/-- The class of the type and its kind, overlaid by each binding that is declared. -/
def boundMembers : Members :=
  ((model.interceptionMetas owner).filter fun occurrence =>
      occurrence.name == Name.interceptorBinding).foldl
    (fun members occurrence => Dict.overlay members (model.reading true occurrence).members)
    [(Name.valueMember, .classRef { name := owner }),
      (Name.kindMember, .string (model.boundKind owner))]

/-- The last annotation that names an interceptor decides. -/
def boundInterceptor? : Option ClassRef :=
  (((model.interceptionMetas owner).filter fun occurrence =>
      occurrence.name == Name.interceptorType).filterMap fun occurrence =>
    (Dict.get? (model.reading true occurrence).members Name.valueMember).bind
      Value.firstClass?).getLast?

/-- The binding of an annotation type. -/
def bindingOf : Annotation where
  name := Name.interceptorBinding
  members :=
    match model.boundInterceptor? owner with
    | some interceptor =>
      Dict.insert (model.boundMembers owner) Name.interceptorTypeMember (.classRef interceptor)
    | none => model.boundMembers owner

end Model

namespace Interception

private theorem withDeclared_eq (binding : Annotation) (metas : List (String × Members)) :
    withDeclared binding metas =
      { binding with
        members := (metas.filter fun entry => entry.1 == Name.interceptorBinding).foldl
          (fun members entry => Dict.overlay members entry.2) binding.members } := by
  unfold withDeclared
  generalize (metas.filter fun entry => entry.1 == Name.interceptorBinding) = declared
  induction declared generalizing binding with
  | nil => cases binding; rfl
  | cons entry rest ih =>
    rw [List.foldl_cons, ih]
    rfl

private theorem filterMap_interceptor? (metas : List (String × Members)) :
    metas.filterMap interceptor? =
      (metas.filter fun entry => entry.1 == Name.interceptorType).filterMap fun entry =>
        (Dict.get? entry.2 Name.valueMember).bind Value.firstClass? := by
  rw [List.filterMap_filter]
  congr 1
  funext entry
  simp only [interceptor?, beq_iff_eq]

end Interception

namespace Walk

/-- The meta-annotations of a type that a walk reads wherever it comes to the type. -/
def carriedNames (context : Context) (owner : String) : List (String × Members) :=
  ((context.model.interceptionMetas owner).filter fun occurrence =>
      !context.config.isInternal occurrence.name).map
    fun occurrence => (occurrence.name, (context.model.reading true occurrence).members)

private theorem Descent.LedBy.readNames_eq {annotations : List Annotation} {descent : Descent}
    (led : descent.LedBy context annotations) (acyclic : Acyclic context) :
    readNames context descent = carriedNames context descent.owner := by
  rw [readNames, carriedNames, Model.interceptionMetas, List.filter_filter, led.excludes]
  congr 1
  refine List.filter_congr fun occurrence carried => ?_
  cases internal : context.config.isInternal occurrence.name with
  | true => simp [isWalked, internal]
  | false =>
    have fresh := led.fresh acyclic ⟨⟨occurrence, carried, rfl⟩, internal⟩
    rw [isWalked_eq fresh, internal]

section Visible

variable (visible : ∀ name ∈ [Name.around, Name.introduction, Name.interceptorBinding,
  Name.interceptorType], context.config.isInternal name = false) (owner : String)

include visible

theorem carriedNames_filter {name : String}
    (listed : name ∈ [Name.around, Name.introduction, Name.interceptorBinding,
      Name.interceptorType]) :
    (carriedNames context owner).filter (fun entry => entry.1 == name) =
      ((context.model.interceptionMetas owner).filter fun occurrence =>
          occurrence.name == name).map
        fun occurrence => (occurrence.name, (context.model.reading true occurrence).members) := by
  rw [carriedNames, List.filter_map, List.filter_filter]
  congr 1
  refine List.filter_congr fun occurrence _ => ?_
  by_cases same : occurrence.name = name
  · simp [same, visible name listed]
  · simp [same]

private theorem findSome?_carriedNames :
    (carriedNames context owner).findSome? (fun entry => Interception.kind? entry.1) =
      if context.model.isBound owner then some (context.model.boundKind owner) else none := by
  rw [carriedNames, Model.isBound, Model.boundKind]
  generalize context.model.interceptionMetas owner = metas
  induction metas with
  | nil => rfl
  | cons occurrence rest ih =>
    cases binds : Name.bindsOwner occurrence.name with
    | true =>
      have counts : context.config.isInternal occurrence.name = false := by
        simp only [Name.bindsOwner, Bool.or_eq_true, beq_iff_eq] at binds
        exact visible _ (by rcases binds with (same | same) | same <;> simp [same])
      simp [counts, binds, Interception.kind?_eq]
    | false =>
      have none : Interception.kind? occurrence.name = none := by
        rw [Interception.kind?_eq, binds]
        rfl
      simp only [List.any_cons, binds, Bool.false_or, List.find?_cons]
      rw [← ih, List.filter_cons]
      split
      · rw [List.map_cons, List.findSome?_cons, none]
      · rfl

/-- A type that carries an interception annotation is bound by its binding. -/
private theorem binding?_carriedNames :
    Interception.binding? owner (carriedNames context owner) =
      if context.model.isBound owner then some (context.model.bindingOf owner) else none := by
  have interceptors : (carriedNames context owner).filterMap Interception.interceptor? =
      ((context.model.interceptionMetas owner).filter fun occurrence =>
        occurrence.name == Name.interceptorType).filterMap fun occurrence =>
          (Dict.get? (context.model.reading true occurrence).members Name.valueMember).bind
            Value.firstClass? := by
    rw [Interception.filterMap_interceptor?, carriedNames_filter visible owner (by simp),
      List.filterMap_map]
    rfl
  have declared (binding : Annotation) :
      Interception.withDeclared binding (carriedNames context owner) =
        { binding with
          members := ((context.model.interceptionMetas owner).filter fun occurrence =>
              occurrence.name == Name.interceptorBinding).foldl
            (fun members occurrence =>
              Dict.overlay members (context.model.reading true occurrence).members)
            binding.members } := by
    rw [Interception.withDeclared_eq, carriedNames_filter visible owner (by simp),
      List.foldl_map]
  rw [Interception.binding?, findSome?_carriedNames visible, interceptors]
  by_cases bound : context.model.isBound owner = true
  · rw [if_pos bound, if_pos bound, Option.map_some, declared, Model.bindingOf,
      Model.boundInterceptor?, Model.boundMembers]
    cases (((context.model.interceptionMetas owner).filter fun occurrence =>
      occurrence.name == Name.interceptorType).filterMap fun occurrence =>
        (Dict.get? (context.model.reading true occurrence).members Name.valueMember).bind
          Value.firstClass?).getLast? <;> rfl
  · rw [if_neg bound, if_neg bound]
    rfl

end Visible

/-! ## Writes of an element -/

/-- The interceptor binding is only ever a meta-annotation, and nothing but its declared
container has the name that bindings are grouped under. There are no extensions and no
member aliases, meta-annotations do not go round in a circle, and none of those that make
up a binding is internal. -/
structure BindsTypes (context : Context) (element : Element) : Prop where
  registry : context.registry = .empty
  unaliased : context.model.Unaliased
  acyclic : Acyclic context
  visible : ∀ name ∈ [Name.around, Name.introduction, Name.interceptorBinding,
    Name.interceptorType], context.config.isInternal name = false
  groupless : context.model.isContainer Name.interceptorBinding = false
  unwritten : ∀ occurrence ∈ context.model.occurrencesOn element,
    occurrence.name ≠ Name.interceptorBinding
  ungrouped : ∀ carrier, ∀ occurrence ∈ context.model.occurrencesOn carrier,
    occurrence.name ≠ Name.interceptorBindings

/-- The walk of the element comes to a type that is bound to an interceptor. -/
def Binds (context : Context) (element : Element) (owner : String) : Prop :=
  Leads context (context.model.occurrencesOn element) owner ∧ context.model.isBound owner = true

/-- A write that has nothing to do with the interceptor binding, or writes the binding of
a type. Nothing but additions goes to the group of bindings. -/
structure BoundWrite (context : Context) (element : Element) (write : Store.Write) : Prop where
  elsewhere : write.key? ≠ some Name.interceptorBinding
  grouped : write.key? = some Name.interceptorBindings → write.grouping?.isSome
  binding : ∀ container, write.grouping? = some (Name.interceptorBinding, container) →
    ∃ owner, Binds context element owner ∧
      write = .occurrence true Name.interceptorBindings (context.model.bindingOf owner)

section BindsTypes

variable {element : Element} (types : BindsTypes context element)

include types

theorem BindsTypes.binding?_eq {annotations : List Annotation} {descent : Descent}
    (led : descent.LedBy context annotations) :
    Interception.binding? descent.owner (readNames context descent) =
      if context.model.isBound descent.owner then some (context.model.bindingOf descent.owner)
      else none := by
  rw [led.readNames_eq types.acyclic, binding?_carriedNames types.visible]

theorem BindsTypes.boundWrite_of_placed {placement : Placement} {name : String}
    (unbound : name ≠ Name.interceptorBinding) (ungrouped : name ≠ Name.interceptorBindings)
    {members : Members} {retention : Retention} {write : Store.Write}
    (placed : .write write =
      placement.writeIn true (context.model.containerOf? name) { name, members, retention }) :
    BoundWrite context element write := by
  obtain ⟨_, same, keyed, grouping⟩ := placement.exists_write_of_writeIn true
    (context.model.containerOf? name) { name, members, retention }
  cases placed.trans same
  cases found : context.model.containerOf? name with
  | none =>
    rw [found] at keyed grouping
    refine ⟨?_, ?_, fun _ grouped => nomatch grouping.symm.trans grouped⟩
    · exact fun named => unbound (Option.some.inj (keyed.symm.trans named))
    · exact fun named => absurd (Option.some.inj (keyed.symm.trans named)) ungrouped
  | some container =>
    rw [found] at keyed grouping
    refine ⟨?_, fun _ => grouping ▸ rfl, fun _ grouped => ?_⟩
    · rintro named
      cases keyed.symm.trans named
      cases types.groupless.symm.trans (Model.isContainer_of_containerOf? found)
    · cases grouping.symm.trans grouped
      exact absurd rfl unbound

private theorem BindsTypes.boundWrite_of_reached {step : Step}
    (reached : Reached context
      (occurrences context element true true (context.model.occurrencesOn element)) step)
    {write : Store.Write} (records : step.Records context.config (.write write)) :
    BoundWrite context element write := by
  have defaults : ∀ name members, BoundWrite context element (.defaults name members) :=
    fun _ _ => ⟨nofun, nofun, nofun⟩
  cases reached with
  | planned member =>
    cases elementStep_of_mem_occurrences member with
    | warning => cases records
    | read _ _ read =>
      rcases read.of_unaliased types.unaliased with ⟨_, _, rfl⟩ | ⟨_, rfl⟩
      · cases records
        exact defaults _ _
      · cases records
    | mapped _ registered => exact absurd (mappers_of_empty types.registry _) registered
    | replaced given _ replaced =>
      obtain ⟨members, rfl⟩ := replaced.eq_itself types.registry
      exact types.boundWrite_of_placed (types.unwritten _ given) (types.ungrouped _ _ given) records
    | descend => cases records
  | deeper above member =>
    have led := above.ledBy types.registry types.unaliased
    cases bareStep_of_mem_level types.registry types.unaliased member with
    | defaults =>
      cases records
      exact defaults _ _
    | read => cases records
    | stereotype carried other =>
      rw [led.declared] at records
      exact types.boundWrite_of_placed other (types.ungrouped _ _ carried) records
    | descend => cases records
    | binding bound =>
      cases records
      rw [types.binding?_eq led] at bound
      split at bound
      · next counts =>
        cases bound
        rw [led.declared]
        refine ⟨fun named => absurd (Option.some.inj named) (by decide), fun _ => rfl, ?_⟩
        exact fun _ _ => ⟨_, ⟨led.leads, counts⟩, rfl⟩
      · cases bound

theorem BindsTypes.boundWrite_of_mem_elementTrace {write : Store.Write}
    (recorded : .write write ∈ elementTrace context element true element) :
    BoundWrite context element write := by
  rw [elementTrace, beq_self_eq_true] at recorded
  obtain ⟨step, reached, records⟩ :=
    (mem_carryOut_iff ((IsStart.occurrences _ _ _ _).finished types.registry)).mp recorded
  exact types.boundWrite_of_reached reached records

/-- Every type that the walk comes to has its binding written. -/
theorem BindsTypes.binding_mem_elementTrace {owner : String}
    (binds : Binds context element owner) :
    .write (.occurrence true Name.interceptorBindings (context.model.bindingOf owner)) ∈
      elementTrace context element true element := by
  obtain ⟨leads, bound⟩ := binds
  obtain ⟨descent, reached, rfl⟩ : ∃ descent, Reached context (occurrences context element true
      true (context.model.occurrencesOn element)) (.descend descent) ∧ descent.owner = owner :=
    exists_reached_of_leads types.registry types.unaliased types.acyclic leads
  have led := reached.ledBy types.registry types.unaliased
  have planned := mem_level_of_binding types.registry
    ((types.binding?_eq led).trans (if_pos bound))
  rw [led.declared] at planned
  rw [elementTrace, beq_self_eq_true]
  exact mem_carryOut_of_reached ((IsStart.occurrences _ _ _ _).finished types.registry)
    (.deeper reached planned) rfl

end BindsTypes

end Walk

end AnnotationMetadata
