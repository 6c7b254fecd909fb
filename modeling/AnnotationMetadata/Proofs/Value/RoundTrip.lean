import AnnotationMetadata.Proofs.Value.Documents

set_option autoImplicit false

/-!
# Reading written values

A value is read back from its text when each of its annotations has different member names
and the digits of its numbers read back. What is read from a text always has different
member names and is written with no deeper nesting, so its text is a fixed point.
-/

namespace AnnotationMetadata

/-! ## Parts of documents -/

namespace Json

private theorem depthOfFields_le_iff {fields : List (String × Json)} {bound : Nat} :
    depthOfFields fields ≤ bound ↔ ∀ field ∈ fields, field.2.depth ≤ bound := by
  induction fields with
  | nil => simp [depthOfFields]
  | cons field rest ih => rw [depthOfFields, Nat.max_le, ih, List.forall_mem_cons]

private theorem legibleFields_iff {fields : List (String × Json)} :
    LegibleFields fields ↔ ∀ field ∈ fields, field.2.Legible := by
  induction fields with
  | nil => simp [LegibleFields]
  | cons field rest ih => rw [LegibleFields, ih, List.forall_mem_cons]

end Json

/-- The fields that an annotation is written with hold its name and, unless they are left
out, its members, retention and stereotypes. -/
theorem Annotation.exists_fields (occurrence : Annotation) :
    ∃ fields, occurrence.toJson = .object fields ∧ ∀ field ∈ fields,
      field.2 = .string occurrence.name ∨
        (occurrence.members ≠ [] ∧ field.2 = Members.toJson occurrence.members) ∨
        field.2 = occurrence.retention.toJson ∨
        (occurrence.stereotypes ≠ [] ∧
          field.2 = .array (Value.annotationsToJson occurrence.stereotypes)) := by
  obtain ⟨name, members, retention, stereotypes⟩ := occurrence
  refine ⟨_, rfl, fun field member => ?_⟩
  rcases List.mem_cons.mp member with rfl | member
  · exact .inl rfl
  rcases List.mem_append.mp member with member | member
  · rcases List.mem_append.mp member with member | member
    · split at member
      · cases member
      · next some =>
        exact .inr (.inl ⟨fun none => some (List.isEmpty_iff.mpr none),
          congrArg Prod.snd (List.mem_singleton.mp member)⟩)
    · split at member
      · cases member
      · exact .inr (.inr (.inl (congrArg Prod.snd (List.mem_singleton.mp member))))
  · split at member
    · cases member
    · next some =>
      exact .inr (.inr (.inr ⟨fun none => some (List.isEmpty_iff.mpr none),
        congrArg Prod.snd (List.mem_singleton.mp member)⟩))

/-! ## Legible values -/

private theorem Annotation.legible_of_parts {occurrence : Annotation}
    (members : (Members.toJson occurrence.members).Legible)
    (stereotypes : (Json.array (Value.annotationsToJson occurrence.stereotypes)).Legible) :
    occurrence.toJson.Legible := by
  obtain ⟨fields, same, parts⟩ := occurrence.exists_fields
  rw [same, Json.Legible, Json.legibleFields_iff]
  intro field member
  rcases parts field member with part | ⟨_, part⟩ | part | ⟨_, part⟩ <;> rw [part]
  · exact trivial
  · exact members
  · exact trivial
  · exact stereotypes

mutual

theorem Value.legible_toJson : (value : Value) → (∀ x ∈ value.doubles, x.ReadsBack) →
    value.toJson.Legible
  | .bool _, _ | .string _, _ | .enumConstant _, _ => by trivial
  | .long value, _ =>
    ⟨Int.le_trans (by decide) value.le_toInt, Int.lt_trans value.toInt_lt (by decide)⟩
  | .double value, readBack => readBack value List.mem_cons_self
  | .array items, readBack => Value.legible_items items readBack
  | .classRef ⟨name, instantiated⟩, _ => by
    cases instantiated <;> trivial
  | .nested occurrence, readBack => Annotation.legible_toJson occurrence readBack

theorem Value.legible_items : (items : List Value) →
    (∀ x ∈ Value.doublesOfItems items, x.ReadsBack) →
    Json.LegibleItems (Value.itemsToJson items)
  | [], _ => trivial
  | item :: rest, readBack =>
    ⟨item.legible_toJson fun x member => readBack x (List.mem_append_left _ member),
      Value.legible_items rest fun x member => readBack x (List.mem_append_right _ member)⟩

theorem Annotation.legible_toJson : (occurrence : Annotation) →
    (∀ x ∈ occurrence.doubles, x.ReadsBack) → occurrence.toJson.Legible
  | ⟨_, members, _, stereotypes⟩, readBack =>
    Annotation.legible_of_parts
      (Value.legible_members members fun x member => readBack x (List.mem_append_left _ member)) <|
        Annotation.legible_all stereotypes fun x member =>
          readBack x (List.mem_append_right _ member)

theorem Value.legible_members : (members : List (String × Value)) →
    (∀ x ∈ Value.doublesOfMembers members, x.ReadsBack) →
    Json.LegibleFields (Value.membersToJson members)
  | [], _ => trivial
  | (_, value) :: rest, readBack =>
    ⟨value.legible_toJson fun x member => readBack x (List.mem_append_left _ member),
      Value.legible_members rest fun x member => readBack x (List.mem_append_right _ member)⟩

theorem Annotation.legible_all : (occurrences : List Annotation) →
    (∀ x ∈ Annotation.doublesOfAll occurrences, x.ReadsBack) →
    Json.LegibleItems (Value.annotationsToJson occurrences)
  | [], _ => trivial
  | occurrence :: rest, readBack =>
    ⟨occurrence.legible_toJson fun x member => readBack x (List.mem_append_left _ member),
      Annotation.legible_all rest fun x member => readBack x (List.mem_append_right _ member)⟩

end

/-! ## Values that are read -/

/-- The value has different member names in each annotation, and is written with at most
the given nesting. -/
structure Value.Fits (value : Value) (bound : Nat) : Prop where
  distinct : value.Distinct
  depth : value.toJson.depth ≤ bound

structure Annotation.Fits (occurrence : Annotation) (bound : Nat) : Prop where
  distinct : occurrence.Distinct
  depth : occurrence.toJson.depth ≤ bound

theorem Value.Fits.mono {value : Value} {bound more : Nat} (fits : value.Fits bound)
    (le : bound ≤ more) : value.Fits more :=
  ⟨fits.distinct, fits.depth.trans le⟩

theorem Annotation.Fits.mono {occurrence : Annotation} {bound more : Nat}
    (fits : occurrence.Fits bound) (le : bound ≤ more) : occurrence.Fits more :=
  ⟨fits.distinct, fits.depth.trans le⟩

theorem Annotation.Fits.nested {occurrence : Annotation} {bound : Nat}
    (fits : occurrence.Fits bound) : (Value.nested occurrence).Fits bound :=
  ⟨fits.distinct, fits.depth⟩

private theorem Value.fits_classRef (value : ClassRef) (bound : Nat) :
    (Value.classRef value).Fits (bound + 1) := by
  obtain ⟨name, instantiated⟩ := value
  cases instantiated <;> exact ⟨trivial, Nat.succ_le_succ (Nat.zero_le bound)⟩

private theorem Value.fits_enumConstant (value : EnumConstant) (bound : Nat) :
    (Value.enumConstant value).Fits (bound + 1) :=
  ⟨trivial, Nat.succ_le_succ (Nat.zero_le bound)⟩

private theorem Value.fits_ofInteger? {integer : Int} {value : Value}
    (found : Value.ofInteger? integer = some value) (bound : Nat) : value.Fits bound := by
  rw [Value.ofInteger?] at found
  split at found
  · cases found
    exact ⟨trivial, Nat.zero_le bound⟩
  · obtain ⟨x, _, rfl⟩ := Option.map_eq_some_iff.mp found
    exact ⟨trivial, Nat.zero_le bound⟩

section Lists

variable {bound : Nat}

private theorem Value.fits_array {items : List Value} (fits : ∀ item ∈ items, item.Fits bound) :
    (Value.array items).Fits (bound + 1) := by
  have parts : Value.ItemsDistinct items ∧
      Json.depthOfItems (Value.itemsToJson items) ≤ bound := by
    induction items with
    | nil => exact ⟨trivial, Nat.zero_le bound⟩
    | cons item rest ih =>
      obtain ⟨first, others⟩ := List.forall_mem_cons.mp fits
      exact ⟨⟨first.distinct, (ih others).1⟩, Nat.max_le.mpr ⟨first.depth, (ih others).2⟩⟩
  exact ⟨parts.1, Nat.succ_le_succ parts.2⟩

theorem Members.fits {members : Members} (fits : ∀ entry ∈ members, entry.2.Fits bound) :
    Value.MembersDistinct members ∧ (Members.toJson members).depth ≤ bound + 1 := by
  have parts : Value.MembersDistinct members ∧
      Json.depthOfFields (Value.membersToJson members) ≤ bound := by
    induction members with
    | nil => exact ⟨trivial, Nat.zero_le bound⟩
    | cons entry rest ih =>
      obtain ⟨first, others⟩ := List.forall_mem_cons.mp fits
      exact ⟨⟨first.distinct, (ih others).1⟩, Nat.max_le.mpr ⟨first.depth, (ih others).2⟩⟩
  exact ⟨parts.1, Nat.succ_le_succ parts.2⟩

private theorem Annotation.allFit {occurrences : List Annotation}
    (fits : ∀ occurrence ∈ occurrences, occurrence.Fits bound) :
    Annotation.AllDistinct occurrences ∧
      (Json.array (Value.annotationsToJson occurrences)).depth ≤ bound + 1 := by
  have parts : Annotation.AllDistinct occurrences ∧
      Json.depthOfItems (Value.annotationsToJson occurrences) ≤ bound := by
    induction occurrences with
    | nil => exact ⟨trivial, Nat.zero_le bound⟩
    | cons occurrence rest ih =>
      obtain ⟨first, others⟩ := List.forall_mem_cons.mp fits
      exact ⟨⟨first.distinct, (ih others).1⟩, Nat.max_le.mpr ⟨first.depth, (ih others).2⟩⟩
  exact ⟨parts.1, Nat.succ_le_succ parts.2⟩

end Lists

/-- An annotation nests one level deeper than its members and stereotypes. -/
private theorem Annotation.depth_le {occurrence : Annotation} {bound : Nat}
    (members : occurrence.members ≠ [] → (Members.toJson occurrence.members).depth ≤ bound)
    (stereotypes : occurrence.stereotypes ≠ [] →
      (Json.array (Value.annotationsToJson occurrence.stereotypes)).depth ≤ bound) :
    occurrence.toJson.depth ≤ bound + 1 := by
  obtain ⟨fields, same, parts⟩ := occurrence.exists_fields
  rw [same, Json.depth]
  refine Nat.succ_le_succ (Json.depthOfFields_le_iff.mpr fun field member => ?_)
  rcases parts field member with part | ⟨some, part⟩ | part | ⟨some, part⟩ <;> rw [part]
  · exact Nat.zero_le bound
  · exact members some
  · exact Nat.zero_le bound
  · exact stereotypes some

/-- What is read from several parts is read from one of them each. -/
theorem exists_of_mapM_eq_some {α β : Type} {read : α → Option β} {parts : List α}
    {results : List β} (found : parts.mapM read = some results) {result : β}
    (member : result ∈ results) : ∃ part ∈ parts, read part = some result := by
  induction parts generalizing results with
  | nil =>
    cases found
    cases member
  | cons part rest ih =>
    rw [List.mapM_cons] at found
    obtain ⟨first, read, found⟩ := Option.bind_eq_some_iff.mp found
    obtain ⟨others, below, found⟩ := Option.bind_eq_some_iff.mp found
    cases found
    rcases List.mem_cons.mp member with rfl | member
    · exact ⟨part, List.mem_cons_self, read⟩
    · obtain ⟨source, listed, read⟩ := ih below member
      exact ⟨source, List.mem_cons_of_mem _ listed, read⟩

namespace Reading

/-- Whatever the part stands for fits in the nesting. -/
structure Within (reading : Reading) (bound : Nat) : Prop where
  value : ∀ value, reading.value = some value → value.Fits bound
  annotation : ∀ occurrence, reading.annotation = some occurrence → occurrence.Fits bound
  members : ∀ members, reading.members = some members →
    (Dict.keys members).Nodup ∧ Value.MembersDistinct members ∧
      (Members.toJson members).depth ≤ bound
  annotations : ∀ occurrences, reading.annotations = some occurrences →
    Annotation.AllDistinct occurrences ∧
      (Json.array (Value.annotationsToJson occurrences)).depth ≤ bound

theorem Within.mono {reading : Reading} {bound more : Nat} (within : reading.Within bound)
    (le : bound ≤ more) : reading.Within more where
  value value found := (within.value value found).mono le
  annotation occurrence found := by
    have fits := within.annotation occurrence found
    exact fits.mono le
  members members found :=
    (within.members members found).imp_right fun ⟨values, depth⟩ => ⟨values, depth.trans le⟩
  annotations occurrences found :=
    (within.annotations occurrences found).imp_right fun depth => depth.trans le

theorem within_ofScalar {json : Json} {value : Option Value} {bound : Nat}
    (fits : ∀ scalar, value = some scalar → scalar.Fits bound) :
    (ofScalar json value).Within bound where
  value := fits
  annotation _ found := nomatch found
  members _ found := nomatch found
  annotations _ found := nomatch found

section Records

variable {bound : Nat}

/-- An annotation that is read as a record nests one level deeper than the fields. -/
theorem fits_of_annotationOf? {record : Option (Dict Reading)}
    (within : ∀ entries, record = some entries → ∀ entry ∈ entries, entry.2.Within bound)
    {occurrence : Annotation} (found : annotationOf? record = some occurrence) :
    occurrence.Fits (bound + 1) := by
  obtain ⟨entries, viewed, found⟩ := Option.bind_eq_some_iff.mp found
  obtain ⟨name, _, found⟩ := Option.bind_eq_some_iff.mp found
  obtain ⟨members, membersFound, found⟩ := Option.bind_eq_some_iff.mp found
  obtain ⟨retention, _, found⟩ := Option.bind_eq_some_iff.mp found
  obtain ⟨stereotypes, stereotypesFound, found⟩ := Option.bind_eq_some_iff.mp found
  cases found
  have memberParts : (Dict.keys members).Nodup ∧ Value.MembersDistinct members ∧
      (members ≠ [] → (Members.toJson members).depth ≤ bound) := by
    rcases Record.exists_of_optional? membersFound with rfl | ⟨reading, listed, read⟩
    · exact ⟨List.nodup_nil, trivial, fun some => absurd rfl some⟩
    · obtain ⟨keys, values, depth⟩ := (within entries viewed _ listed).members members read
      exact ⟨keys, values, fun _ => depth⟩
  have stereotypeParts : Annotation.AllDistinct stereotypes ∧ (stereotypes ≠ [] →
      (Json.array (Value.annotationsToJson stereotypes)).depth ≤ bound) := by
    rcases Record.exists_of_optional? stereotypesFound with rfl | ⟨reading, listed, read⟩
    · exact ⟨trivial, fun some => absurd rfl some⟩
    · obtain ⟨all, depth⟩ := (within entries viewed _ listed).annotations stereotypes read
      exact ⟨all, fun _ => depth⟩
  exact ⟨⟨memberParts.1, memberParts.2.1, stereotypeParts.1⟩,
    Annotation.depth_le memberParts.2.2 stereotypeParts.2⟩

theorem fits_of_recordValue? {view : List String → Option (Dict Reading)}
    (within : ∀ names entries, view names = some entries → ∀ entry ∈ entries,
      entry.2.Within bound)
    {value : Value} (found : recordValue? view = some value) : value.Fits (bound + 1) := by
  rcases Option.or_eq_some_iff.mp found with found | ⟨_, found⟩
  · obtain ⟨reference, _, rfl⟩ := Option.map_eq_some_iff.mp found
    exact Value.fits_classRef reference bound
  rcases Option.or_eq_some_iff.mp found with found | ⟨_, found⟩
  · obtain ⟨constant, _, rfl⟩ := Option.map_eq_some_iff.mp found
    exact Value.fits_enumConstant constant bound
  · obtain ⟨occurrence, read, rfl⟩ := Option.map_eq_some_iff.mp found
    exact (fits_of_annotationOf? (within _) read).nested

end Records

section Parts

variable {json : Json} {bound : Nat}

private theorem fits_of_memberValues? {fields : List (String × Reading)}
    (within : ∀ field ∈ fields, field.2.Within bound) {values : List (String × Value)}
    (found : memberValues? fields = some values) : ∀ entry ∈ values, entry.2.Fits bound := by
  intro entry member
  obtain ⟨field, listed, read⟩ := exists_of_mapM_eq_some found member
  obtain ⟨value, stands, rfl⟩ := Option.map_eq_some_iff.mp read
  exact (within field listed).value value stands

private theorem within_ofFields {fields : List (String × Reading)}
    (within : ∀ field ∈ fields, field.2.Within bound) :
    (ofFields json fields).Within (bound + 1) := by
  have viewed : ∀ names entries, Record.ofFields? names .refused fields = some entries →
      ∀ entry ∈ entries, entry.2.Within bound := by
    intro names entries found entry member
    exact within entry (Record.mem_of_mem_ofFields? found member)
  refine ⟨fun value => fits_of_recordValue? viewed, fun occurrence =>
    fits_of_annotationOf? (viewed _), fun members found => ?_, (fun _ found => nomatch found)⟩
  obtain ⟨values, read, rfl⟩ := Option.map_eq_some_iff.mp found
  exact ⟨Dict.nodup_keys_ofEntries values, Members.fits fun entry member =>
    fits_of_memberValues? within read entry (Dict.mem_of_mem_ofEntries member)⟩

private theorem within_ofItems {items : List Reading} (within : ∀ item ∈ items, item.Within bound) :
    (ofItems json items).Within (bound + 1) := by
  have viewed : ∀ names entries, Record.ofItems? names items = some entries →
      ∀ entry ∈ entries, entry.2.Within bound := by
    intro names entries found entry member
    exact within entry.2 (Record.mem_of_mem_ofItems? found member)
  refine ⟨fun value found => ?_, fun occurrence => fits_of_annotationOf? (viewed _),
    (fun _ found => nomatch found), fun occurrences found => ?_⟩
  · rcases Option.or_eq_some_iff.mp found with found | ⟨_, found⟩
    · obtain ⟨values, read, rfl⟩ := Option.map_eq_some_iff.mp found
      refine Value.fits_array fun value member => ?_
      obtain ⟨item, listed, stands⟩ := exists_of_mapM_eq_some read member
      exact (within item listed).value value stands
    · exact fits_of_recordValue? viewed found
  · refine Annotation.allFit fun occurrence member => ?_
    obtain ⟨item, listed, read⟩ := exists_of_mapM_eq_some found member
    exact Within.annotation (within item listed) occurrence read

end Parts

mutual

/-- What a document stands for nests no deeper than the document. -/
theorem within_ofJson : (json : Json) → (ofJson json).Within json.depth
  | .null | .meaningless => within_ofScalar fun _ none => nomatch none
  | .bool _ | .double _ | .string _ => by
    refine within_ofScalar fun scalar same => ?_
    cases same
    exact ⟨trivial, Nat.zero_le _⟩
  | .integer _ => within_ofScalar fun _ found => Value.fits_ofInteger? found _
  | .array items => within_ofItems (within_ofJsonItems items)
  | .object fields => within_ofFields (within_ofJsonFields fields)

theorem within_ofJsonItems : (items : List Json) →
    ∀ reading ∈ ofJsonItems items, reading.Within (Json.depthOfItems items)
  | [] => fun _ none => nomatch none
  | item :: rest => List.forall_mem_cons.mpr ⟨(within_ofJson item).mono (Nat.le_max_left _ _),
      fun reading member => (within_ofJsonItems rest reading member).mono (Nat.le_max_right _ _)⟩

theorem within_ofJsonFields : (fields : List (String × Json)) →
    ∀ field ∈ ofJsonFields fields, field.2.Within (Json.depthOfFields fields)
  | [] => fun _ none => nomatch none
  | (_, value) :: rest => List.forall_mem_cons.mpr
      ⟨(within_ofJson value).mono (Nat.le_max_left _ _),
        fun field member => (within_ofJsonFields rest field member).mono (Nat.le_max_right _ _)⟩

end

end Reading

/-! ## Texts -/

theorem Json.shallow_of_ofShallowText? {text : String} {json : Json}
    (found : Json.ofShallowText? text = some json) : json.depth ≤ Json.maxDepth := by
  obtain ⟨whole, _, found⟩ := Option.bind_eq_some_iff.mp found
  split at found
  · next shallow =>
    cases found
    exact shallow
  · cases found

theorem Value.fits_of_ofText? {text : String} {value : Value}
    (found : Value.ofText? text = some value) : value.Fits Json.maxDepth := by
  obtain ⟨json, read, found⟩ := Option.bind_eq_some_iff.mp found
  have within := (Reading.within_ofJson json).mono (Json.shallow_of_ofShallowText? read)
  exact within.value value found

theorem Annotation.fits_of_ofText? {text : String} {occurrence : Annotation}
    (found : Annotation.ofText? text = some occurrence) : occurrence.Fits Json.maxDepth := by
  obtain ⟨json, read, found⟩ := Option.bind_eq_some_iff.mp found
  have within := (Reading.within_ofJson json).mono (Json.shallow_of_ofShallowText? read)
  exact within.annotation occurrence found

theorem Value.ofText?_text_of_fits {value : Value} (fits : value.Fits Json.maxDepth)
    (readBack : ∀ x ∈ value.doubles, x.ReadsBack) : Value.ofText? value.text = some value := by
  rw [Value.ofText?, Value.text,
    Json.ofShallowText?_compact (Value.legible_toJson value readBack) fits.depth]
  exact Reading.value_ofJson_toJson value fits.distinct

theorem Annotation.ofText?_text_of_fits {occurrence : Annotation}
    (fits : occurrence.Fits Json.maxDepth) (readBack : ∀ x ∈ occurrence.doubles, x.ReadsBack) :
    Annotation.ofText? occurrence.text = some occurrence := by
  unfold Annotation.ofText? Annotation.text
  rw [Json.ofShallowText?_compact (occurrence.legible_toJson readBack) fits.depth]
  exact Reading.annotation_ofJson_toJson occurrence fits.distinct

/-- Every value and every annotation is read back from its text, as the same one, if the text
nests fewer than 128 levels and the digits of each number in it read back. What is read from
any text is such a value, but for the digits: its own text is read as the same value again. -/
theorem reading_undoes_writing :
    (∀ value : Value, value.Distinct → (∀ x ∈ value.doubles, x.ReadsBack) →
      value.toJson.depth < 128 → Value.ofText? value.text = some value) ∧
    (∀ occurrence : Annotation, occurrence.Distinct → (∀ x ∈ occurrence.doubles, x.ReadsBack) →
      occurrence.toJson.depth < 128 → Annotation.ofText? occurrence.text = some occurrence) ∧
    (∀ text value, Value.ofText? text = some value → (∀ x ∈ value.doubles, x.ReadsBack) →
      Value.ofText? value.text = some value) ∧
    (∀ text occurrence, Annotation.ofText? text = some occurrence →
      (∀ x ∈ occurrence.doubles, x.ReadsBack) →
      Annotation.ofText? occurrence.text = some occurrence) := by
  refine ⟨fun value distinct readBack shallow => ?_, fun occurrence distinct readBack shallow => ?_,
    fun text value found readBack => ?_, fun text occurrence found readBack => ?_⟩
  · exact Value.ofText?_text_of_fits ⟨distinct, Nat.le_of_lt_succ shallow⟩ readBack
  · exact Annotation.ofText?_text_of_fits ⟨distinct, Nat.le_of_lt_succ shallow⟩ readBack
  · exact Value.ofText?_text_of_fits (Value.fits_of_ofText? found) readBack
  · have fits := Annotation.fits_of_ofText? found
    exact Annotation.ofText?_text_of_fits fits readBack

/-- An annotation whose members are named like the fields of other kinds of values. -/
def reservedNames : Annotation :=
  ⟨"a.B", [("class", .array []), ("enum", .long Int64.minValue), ("annotation", .bool false)],
    .source, [⟨"a.C", [], .classFile, []⟩]⟩

/-- A value of each kind. The number is 1.5. -/
def oneOfEach : Value :=
  .array [.bool true, .long 7, .double ⟨false, 4609434218613702656, by decide⟩,
    .string "\"é\n\\", .classRef ⟨"a.D", true⟩, .enumConstant ⟨"a.E", "ONE"⟩,
    .nested reservedNames]

/-- A class whose fields are in the other order. -/
def classReordered : Json :=
  .object [("instantiated", .bool true), ("class", .string "a.D")]

/-- An annotation written as an array, with a repeated member. -/
def annotationUnnamed : Json :=
  .array [.string "a.B", .object [("x", .integer 1), ("x", .integer 2)], .object [("CLASS", .null)]]

private theorem ofText?_classReordered :
    Value.ofText? classReordered.compact = some (.classRef ⟨"a.D", true⟩) := by
  have legible : classReordered.Legible := ⟨trivial, trivial, trivial⟩
  rw [Value.ofText?, Json.ofShallowText?_compact legible (by decide)]
  rfl

private theorem ofText?_annotationUnnamed :
    Annotation.ofText? annotationUnnamed.compact =
      some ⟨"a.B", [("x", .long 2)], .classFile, []⟩ := by
  have legible : annotationUnnamed.Legible := by
    simp [annotationUnnamed, Json.Legible, Json.LegibleItems, Json.LegibleFields]
  unfold Annotation.ofText?
  rw [Json.ofShallowText?_compact legible (by decide)]
  rfl

theorem oneOfEach_readsBack :
    (Value.ofText? oneOfEach.text = some oneOfEach ∧
      Annotation.ofText? reservedNames.text = some reservedNames) ∧
    Value.ofText? (Value.classRef ⟨"a.D", true⟩).text = some (.classRef ⟨"a.D", true⟩) ∧
    Annotation.ofText? (⟨"a.B", [("x", .long 2)], .classFile, []⟩ : Annotation).text =
      some ⟨"a.B", [("x", .long 2)], .classFile, []⟩ := by
  have digits : ∀ x ∈ oneOfEach.doubles, x.ReadsBack := by
    intro x member
    rcases List.mem_singleton.mp member with rfl
    unfold Double.ReadsBack
    decide +kernel
  have members : reservedNames.Distinct := by
    simp [reservedNames, Value.Distinct, Value.ItemsDistinct, Annotation.Distinct,
      Value.MembersDistinct, Annotation.AllDistinct, Dict.keys]
  have distinct : oneOfEach.Distinct :=
    ⟨trivial, trivial, trivial, trivial, trivial, trivial, members, trivial⟩
  exact ⟨⟨reading_undoes_writing.1 oneOfEach distinct digits (by decide),
      reading_undoes_writing.2.1 reservedNames members (fun _ none => nomatch none) (by decide)⟩,
    reading_undoes_writing.2.2.1 _ _ ofText?_classReordered (fun _ none => nomatch none),
    reading_undoes_writing.2.2.2 _ _ ofText?_annotationUnnamed (fun _ none => nomatch none)⟩

end AnnotationMetadata
