import AnnotationMetadata.Dict.Lemmas
import AnnotationMetadata.Proofs.Json.RoundTrip
import AnnotationMetadata.Proofs.Value.Agreement
import AnnotationMetadata.Value.Json

set_option autoImplicit false

/-!
# Values in documents

Values carry no tag in a document, and fields with a default are left out. Still the
document of a value is read as that value: the fields of an object tell classes, enum
constants and annotations apart, and an array of values is nothing but an array.
-/

namespace AnnotationMetadata

/-! ## Well-formed values -/

mutual

/-- In each annotation that the value holds, members have different names. -/
def Value.Distinct : Value → Prop
  | .array items => Value.ItemsDistinct items
  | .nested occurrence => occurrence.Distinct
  | _ => True

def Value.ItemsDistinct : List Value → Prop
  | [] => True
  | item :: rest => item.Distinct ∧ Value.ItemsDistinct rest

/-- Members are a map from names: the names differ, here and in what the annotation holds. -/
def Annotation.Distinct : Annotation → Prop
  | ⟨_, members, _, stereotypes⟩ =>
    (Dict.keys members).Nodup ∧ Value.MembersDistinct members ∧
      Annotation.AllDistinct stereotypes

def Value.MembersDistinct : List (String × Value) → Prop
  | [] => True
  | (_, value) :: rest => value.Distinct ∧ Value.MembersDistinct rest

def Annotation.AllDistinct : List Annotation → Prop
  | [] => True
  | occurrence :: rest => occurrence.Distinct ∧ Annotation.AllDistinct rest

end

/-! ## Records -/

namespace Record

variable {α : Type} {names : List String} {fields : List (String × α)}

/-- An object with another field is refused. -/
theorem ofFields?_of_unlisted {field : String × α} (member : field ∈ fields)
    (unlisted : field.1 ∉ names) : ofFields? names .refused fields = none := by
  have fewer : (fields.filter fun field => names.contains field.1).length < fields.length := by
    refine List.length_filter_lt_length_iff_exists.mpr ⟨field, member, ?_⟩
    simpa using unlisted
  exact if_pos ⟨rfl, fewer⟩

/-- A field that may be left out has its default or what is read from the record. -/
theorem exists_of_optional? {β : Type} {record : Dict α} {name : String} {fallback value : β}
    {read : α → Option β} (found : optional? record name fallback read = some value) :
    value = fallback ∨ ∃ field, (name, field) ∈ record ∧ read field = some value := by
  unfold optional? at found
  split at found
  · exact .inl (Option.some.inj found).symm
  · next field present => exact .inr ⟨field, Dict.mem_of_get?_eq_some present, found⟩

theorem mem_of_mem_ofFields? {unknown : UnknownFields} {record : Dict α}
    (found : ofFields? names unknown fields = some record) {entry : String × α}
    (member : entry ∈ record) : entry ∈ fields := by
  rw [ofFields?] at found
  split at found
  · cases found
  split at found
  · cases found
    exact (List.mem_filter.mp member).1
  · cases found

theorem mem_of_mem_ofItems? {items : List α} {record : Dict α}
    (found : ofItems? names items = some record) {entry : String × α}
    (member : entry ∈ record) : entry.2 ∈ items := by
  rw [ofItems?] at found
  split at found
  · cases found
    exact (List.of_mem_zip member).2
  · cases found

end Record

/-! ## Reading what is written -/

private theorem Value.ofInteger?_toInt (value : Int64) :
    Value.ofInteger? value.toInt = some (.long value) := by
  rw [ofInteger?, if_pos ⟨value.minValue_le_toInt, value.toInt_le⟩, Int64.ofInt_toInt]

namespace Reading

/-- An object with the field of an annotation is neither a class nor an enum constant. -/
private theorem recordValue?_of_annotation {record : List (String × Reading)} {reading : Reading}
    (member : ("annotation", reading) ∈ record) :
    recordValue? (fun names => Record.ofFields? names .refused record) =
      (recordAnnotation? fun names => Record.ofFields? names .refused record).map .nested := by
  rw [recordValue?, Record.ofFields?_of_unlisted member (by simp),
    Record.ofFields?_of_unlisted member (by simp)]
  rfl

private theorem value_ofJson_classRef (value : ClassRef) :
    (ofJson value.toJson).value = some (.classRef value) := by
  obtain ⟨name, instantiated⟩ := value
  cases instantiated <;> rfl

private theorem value_ofJson_enumConstant (value : EnumConstant) :
    (ofJson value.toJson).value = some (.enumConstant value) :=
  rfl

private theorem annotation_ofJson {name : String} {members : Members} {retention : Retention}
    {stereotypes : List Annotation}
    (membersRead : (ofJson (.object (Value.membersToJson members))).members = some members)
    (stereotypesRead : (ofJson (.array (Value.annotationsToJson stereotypes))).annotations =
      some stereotypes) :
    Reading.annotation (ofJson (⟨name, members, retention, stereotypes⟩ : Annotation).toJson) =
      some ⟨name, members, retention, stereotypes⟩ := by
  -- A field that is left out reads as what it was left out for.
  have fields :
      Reading.annotation (ofJson (⟨name, members, retention, stereotypes⟩ : Annotation).toJson) =
      (ofJson (.object (Value.membersToJson members))).members.bind fun members =>
        (ofJson (.array (Value.annotationsToJson stereotypes))).annotations.bind fun stereotypes =>
          some ⟨name, members, retention, stereotypes⟩ := by
    cases members <;> cases retention <;> cases stereotypes <;> rfl
  rw [fields, membersRead, stereotypesRead]
  rfl

private theorem value_ofJson_annotation (occurrence : Annotation) :
    (ofJson occurrence.toJson).value =
      (Option.map Value.nested <| Reading.annotation (ofJson occurrence.toJson)) := by
  obtain ⟨name, members, retention, stereotypes⟩ := occurrence
  exact recordValue?_of_annotation List.mem_cons_self

mutual

theorem value_ofJson_toJson : (value : Value) → value.Distinct →
    (ofJson value.toJson).value = some value
  | .bool _, _ | .double _, _ | .string _, _ => rfl
  | .long value, _ => Value.ofInteger?_toInt value
  | .array items, distinct => by
    have read := values_ofJson_items items distinct
    simp only [Value.toJson, ofJson, ofItems, read]
    rfl
  | .classRef value, _ => value_ofJson_classRef value
  | .enumConstant value, _ => value_ofJson_enumConstant value
  | .nested occurrence, distinct => by
    rw [Value.toJson, value_ofJson_annotation, annotation_ofJson_toJson occurrence distinct]
    rfl

theorem values_ofJson_items : (items : List Value) → Value.ItemsDistinct items →
    (ofJsonItems (Value.itemsToJson items)).mapM Reading.value = some items
  | [], _ => rfl
  | item :: rest, ⟨first, others⟩ => by
    rw [Value.itemsToJson, ofJsonItems, List.mapM_cons, value_ofJson_toJson item first,
      values_ofJson_items rest others]
    rfl

theorem annotation_ofJson_toJson : (occurrence : Annotation) → occurrence.Distinct →
    Reading.annotation (ofJson occurrence.toJson) = some occurrence
  | ⟨name, members, retention, stereotypes⟩, ⟨keys, values, all⟩ => by
    refine annotation_ofJson ?_ ?_
    · have read := memberValues?_ofJson members values
      simp only [ofJson, ofFields, read, Option.map_some, Dict.ofEntries_eq_self keys]
    · exact annotations_ofJson stereotypes all

theorem memberValues?_ofJson : (members : List (String × Value)) →
    Value.MembersDistinct members →
    memberValues? (ofJsonFields (Value.membersToJson members)) = some members
  | [], _ => rfl
  | (member, value) :: rest, ⟨first, others⟩ => by
    have below := memberValues?_ofJson rest others
    rw [memberValues?] at below
    rw [Value.membersToJson, ofJsonFields, memberValues?, List.mapM_cons, below,
      value_ofJson_toJson value first]
    rfl

theorem annotations_ofJson : (occurrences : List Annotation) →
    Annotation.AllDistinct occurrences →
    (ofJsonItems (Value.annotationsToJson occurrences)).mapM Reading.annotation =
      some occurrences
  | [], _ => rfl
  | occurrence :: rest, ⟨first, others⟩ => by
    rw [Value.annotationsToJson, ofJsonItems, List.mapM_cons,
      annotation_ofJson_toJson occurrence first, annotations_ofJson rest others]
    rfl

end

end Reading

end AnnotationMetadata
