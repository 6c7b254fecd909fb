import AnnotationMetadata.Dict

set_option autoImplicit false

/-!
# Looking up what was inserted

What each operation on a `Dict` does to lookups and to the list of keys. Insertion
extends the keys by `insertUnlisted`, so a map that was built by insertion has
distinct keys, in order of their first insertion.
-/

namespace AnnotationMetadata

/-! ## Listing without repetition -/

section Listing

variable {α : Type} [BEq α] [LawfulBEq α]

theorem mem_insertUnlisted {items : List α} {item other : α} :
    other ∈ insertUnlisted items item ↔ other ∈ items ∨ other = item := by
  by_cases listed : item ∈ items
  · simp only [insertUnlisted, List.contains_iff_mem, listed, if_true]
    constructor
    · exact Or.inl
    · rintro (member | rfl)
      · exact member
      · exact listed
  · simp [insertUnlisted, listed]

theorem nodup_insertUnlisted {items : List α} (distinct : items.Nodup) (item : α) :
    (insertUnlisted items item).Nodup := by
  by_cases listed : item ∈ items
  · simpa [insertUnlisted, listed] using distinct
  · have fresh : ∀ other ∈ items, other ≠ item := by
      intro other member same
      exact listed (same ▸ member)
    simpa [insertUnlisted, listed, List.nodup_append, distinct] using fresh

theorem mem_unionInOrder {items more : List α} {other : α} :
    other ∈ unionInOrder items more ↔ other ∈ items ∨ other ∈ more := by
  induction more generalizing items with
  | nil => simp [unionInOrder]
  | cons item rest ih =>
    have step : unionInOrder items (item :: rest) =
        unionInOrder (insertUnlisted items item) rest := rfl
    rw [step, ih, mem_insertUnlisted, List.mem_cons, or_assoc]

theorem nodup_unionInOrder {items : List α} (distinct : items.Nodup) (more : List α) :
    (unionInOrder items more).Nodup := by
  induction more generalizing items with
  | nil => exact distinct
  | cons item rest ih => exact ih (nodup_insertUnlisted distinct item)

end Listing

namespace Dict

variable {β : Type}

/-! ## Keys -/

theorem mem_keys_iff {dict : Dict β} {key : String} :
    key ∈ keys dict ↔ ∃ value, get? dict key = some value := by
  induction dict with
  | nil => simp [keys, get?]
  | cons entry rest ih =>
    obtain ⟨k, v⟩ := entry
    by_cases same : k = key
    · simp [keys, get?, same]
    · have other : ¬ key = k := fun equal => same equal.symm
      simpa [keys, get?, same, other] using ih

theorem get?_eq_none_iff {dict : Dict β} {key : String} :
    get? dict key = none ↔ key ∉ keys dict := by
  rw [mem_keys_iff]
  cases get? dict key with
  | none => simp
  | some value => simp

theorem contains_iff {dict : Dict β} {key : String} :
    contains dict key = true ↔ key ∈ keys dict := by
  rw [mem_keys_iff, contains, Option.isSome_iff_exists]

theorem mem_of_get?_eq_some {dict : Dict β} {key : String} {value : β}
    (found : get? dict key = some value) : (key, value) ∈ dict := by
  induction dict with
  | nil => cases found
  | cons entry rest ih =>
    obtain ⟨k, v⟩ := entry
    by_cases same : k = key
    · simp only [get?, if_pos same, Option.some.injEq] at found
      rw [same, found]
      exact List.mem_cons_self
    · simp only [get?, if_neg same] at found
      exact List.mem_cons_of_mem _ (ih found)

/-- Maps that list the same distinct keys with the same values are equal. -/
theorem ext_of_get? {dict other : Dict β} (same : keys dict = keys other)
    (distinct : (keys dict).Nodup) (found : ∀ key, get? dict key = get? other key) :
    dict = other := by
  induction dict generalizing other with
  | nil =>
    have none : other = [] := List.map_eq_nil_iff.mp same.symm
    exact none.symm
  | cons entry rest ih =>
    obtain ⟨k, v⟩ := entry
    obtain _ | ⟨⟨k', v'⟩, rest'⟩ := other
    · cases same
    · obtain ⟨rfl, rests⟩ := List.cons.inj same
      have tails : keys rest = keys rest' := rests
      obtain ⟨unlisted, distinctBelow⟩ := List.nodup_cons.mp distinct
      have first : v = v' := by simpa [get?] using found k
      have below : ∀ key, get? rest key = get? rest' key := by
        intro key
        by_cases wanted : k = key
        · have missing : key ∉ keys rest := wanted ▸ unlisted
          have missingThere : key ∉ keys rest' := tails ▸ missing
          rw [get?_eq_none_iff.mpr missing, get?_eq_none_iff.mpr missingThere]
        · simpa [get?, wanted] using found key
      rw [first, ih tails distinctBelow below]

/-! ## Insertion -/

theorem get?_insert (dict : Dict β) (key : String) (value : β) (other : String) :
    get? (insert dict key value) other = if key = other then some value else get? dict other := by
  induction dict with
  | nil => rfl
  | cons entry rest ih =>
    obtain ⟨k, v⟩ := entry
    by_cases same : k = key
    · subst same
      by_cases wanted : k = other
      · simp [insert, get?, wanted]
      · simp [insert, get?, wanted]
    · by_cases wanted : k = other
      · have missed : ¬ key = other := fun equal => same (wanted.trans equal.symm)
        rw [insert, if_neg same, get?, if_pos wanted, if_neg missed, get?, if_pos wanted]
      · simpa [insert, get?, same, wanted] using ih

theorem keys_insert (dict : Dict β) (key : String) (value : β) :
    keys (insert dict key value) = insertUnlisted (keys dict) key := by
  induction dict with
  | nil => rfl
  | cons entry rest ih =>
    obtain ⟨k, v⟩ := entry
    by_cases same : k = key
    · simp [insert, keys, insertUnlisted, same]
    · have other : ¬ key = k := fun equal => same equal.symm
      have tail : keys (insert rest key value) = insertUnlisted (keys rest) key := ih
      have head : keys (insert ((k, v) :: rest) key value) =
          k :: keys (insert rest key value) := by
        simp [insert, keys, same]
      rw [head, tail]
      by_cases listed : key ∈ keys rest
      · have listedBelow : key ∈ keys ((k, v) :: rest) := List.mem_cons_of_mem _ listed
        rw [insertUnlisted, insertUnlisted, if_pos (List.contains_iff_mem.mpr listed),
          if_pos (List.contains_iff_mem.mpr listedBelow)]
        rfl
      · have unlistedBelow : key ∉ keys ((k, v) :: rest) := by
          simpa [keys, other] using listed
        rw [insertUnlisted, insertUnlisted,
          if_neg (fun held => listed (List.contains_iff_mem.mp held)),
          if_neg (fun held => unlistedBelow (List.contains_iff_mem.mp held))]
        rfl

theorem nodup_keys_insert {dict : Dict β} (distinct : (keys dict).Nodup) (key : String)
    (value : β) : (keys (insert dict key value)).Nodup := by
  rw [keys_insert]
  exact nodup_insertUnlisted distinct key

/-- Setting a key to the value that it has changes nothing. -/
theorem insert_of_get?_eq_some {dict : Dict β} {key : String} {value : β}
    (found : get? dict key = some value) : insert dict key value = dict := by
  induction dict with
  | nil => cases found
  | cons entry rest ih =>
    obtain ⟨k, v⟩ := entry
    by_cases same : k = key
    · simp only [get?, if_pos same, Option.some.injEq] at found
      rw [insert, if_pos same, found]
    · simp only [get?, if_neg same] at found
      rw [insert, if_neg same, ih found]

theorem insert_of_get?_eq_none {dict : Dict β} {key : String} (missing : get? dict key = none)
    (value : β) : insert dict key value = dict ++ [(key, value)] := by
  induction dict with
  | nil => rfl
  | cons entry rest ih =>
    obtain ⟨k, v⟩ := entry
    by_cases same : k = key
    · simp [get?, same] at missing
    · simp only [get?, if_neg same] at missing
      rw [insert, if_neg same, ih missing, List.cons_append]

theorem mem_of_mem_insert {dict : Dict β} {key : String} {value : β} {entry : String × β}
    (listed : entry ∈ insert dict key value) : entry ∈ dict ∨ entry = (key, value) := by
  induction dict with
  | nil => exact .inr (List.mem_singleton.mp listed)
  | cons first rest ih =>
    obtain ⟨k, v⟩ := first
    by_cases same : k = key
    · rw [insert, if_pos same, same] at listed
      rcases List.mem_cons.mp listed with replaced | kept
      · exact .inr replaced
      · exact .inl (List.mem_cons_of_mem _ kept)
    · rw [insert, if_neg same] at listed
      rcases List.mem_cons.mp listed with kept | below
      · exact .inl (kept ▸ List.mem_cons_self)
      · exact (ih below).imp_left (List.mem_cons_of_mem _)

theorem mem_of_mem_alter {dict : Dict β} {key : String} {fallback : β} {change : β → β}
    {entry : String × β} (listed : entry ∈ alter dict key fallback change) :
    entry ∈ dict ∨
      ∃ present, (present = fallback ∨ (key, present) ∈ dict) ∧ entry = (key, change present) := by
  rcases mem_of_mem_insert listed with old | changed
  · exact .inl old
  · refine .inr ⟨_, ?_, changed⟩
    cases found : get? dict key with
    | none => exact .inl rfl
    | some present => exact .inr (mem_of_get?_eq_some found)

/-! ## Insertion of new keys -/

theorem mem_of_mem_insertNew {dict : Dict β} {key : String} {value : β} {entry : String × β}
    (listed : entry ∈ insertNew dict key value) : entry ∈ dict ∨ entry = (key, value) := by
  unfold insertNew at listed
  split at listed
  · exact .inl listed
  · exact (List.mem_append.mp listed).imp_right List.mem_singleton.mp

theorem insertNew_eq_insert (dict : Dict β) (key : String) (value : β) :
    insertNew dict key value = insert dict key ((get? dict key).getD value) := by
  unfold insertNew contains
  cases found : get? dict key with
  | none =>
    rw [insert_of_get?_eq_none found]
    rfl
  | some present =>
    rw [Option.getD_some, insert_of_get?_eq_some found]
    rfl

theorem get?_append (dict other : Dict β) (key : String) :
    get? (dict ++ other) key = (get? dict key).or (get? other key) := by
  induction dict with
  | nil => rfl
  | cons entry rest ih =>
    obtain ⟨k, v⟩ := entry
    by_cases same : k = key
    · simp [get?, same]
    · simpa [get?, same] using ih

theorem get?_insertNew (dict : Dict β) (key : String) (value : β) (other : String) :
    get? (insertNew dict key value) other =
      (get? dict other).or (if key = other then some value else none) := by
  by_cases present : contains dict key = true
  · rw [insertNew, if_pos present]
    by_cases wanted : key = other
    · obtain ⟨found, held⟩ := mem_keys_iff.mp (contains_iff.mp present)
      rw [← wanted, held]
      rfl
    · simp [wanted]
  · rw [insertNew, if_neg present, get?_append]
    rfl

theorem keys_insertNew (dict : Dict β) (key : String) (value : β) :
    keys (insertNew dict key value) = insertUnlisted (keys dict) key := by
  by_cases present : key ∈ keys dict
  · have held : contains dict key = true := contains_iff.mpr present
    simp [insertNew, insertUnlisted, held, present]
  · have missing : contains dict key = false := by
      rw [Bool.eq_false_iff]
      exact fun held => present (contains_iff.mp held)
    simp only [insertNew, missing, insertUnlisted, List.contains_iff_mem, present,
      Bool.false_eq_true, if_false]
    simp [keys]

/-! ## Laying maps over and under each other -/

/-- A later value wins: what `other` holds hides what `dict` holds. -/
theorem get?_overlay {other : Dict β} (distinct : (keys other).Nodup) (dict : Dict β)
    (key : String) : get? (overlay dict other) key = (get? other key).or (get? dict key) := by
  induction other generalizing dict with
  | nil => rfl
  | cons entry rest ih =>
    obtain ⟨k, v⟩ := entry
    have parts : k ∉ keys rest ∧ (keys rest).Nodup := List.nodup_cons.mp distinct
    have step : overlay dict ((k, v) :: rest) = overlay (insert dict k v) rest := rfl
    rw [step, ih parts.2, get?_insert]
    by_cases same : k = key
    · have missing : get? rest key = none := get?_eq_none_iff.mpr (same ▸ parts.1)
      simp [get?, same, missing]
    · simp [get?, same]

/-- An earlier value wins: what `dict` holds hides what `other` holds. -/
theorem get?_underlay (dict other : Dict β) (key : String) :
    get? (underlay dict other) key = (get? dict key).or (get? other key) := by
  induction other generalizing dict with
  | nil => simp [underlay, get?]
  | cons entry rest ih =>
    obtain ⟨k, v⟩ := entry
    have step : underlay dict ((k, v) :: rest) = underlay (insertNew dict k v) rest := rfl
    rw [step, ih, get?_insertNew, Option.or_assoc]
    by_cases same : k = key
    · simp [get?, same]
    · simp [get?, same]

theorem keys_overlay (dict other : Dict β) :
    keys (overlay dict other) = unionInOrder (keys dict) (keys other) := by
  induction other generalizing dict with
  | nil => rfl
  | cons entry rest ih =>
    have step : overlay dict (entry :: rest) = overlay (insert dict entry.1 entry.2) rest := rfl
    rw [step, ih, keys_insert]
    rfl

theorem mem_of_mem_overlay {dict other : Dict β} {entry : String × β}
    (listed : entry ∈ overlay dict other) : entry ∈ dict ∨ entry ∈ other := by
  induction other generalizing dict with
  | nil => exact .inl listed
  | cons first rest ih =>
    rcases ih listed with before | below
    · rcases mem_of_mem_insert before with old | rfl
      · exact .inl old
      · exact .inr List.mem_cons_self
    · exact .inr (List.mem_cons_of_mem _ below)

/-- New keys are appended in order. -/
theorem overlay_eq_append {dict other : Dict β} (distinct : (keys (dict ++ other)).Nodup) :
    overlay dict other = dict ++ other := by
  induction other generalizing dict with
  | nil => exact (List.append_nil dict).symm
  | cons entry rest ih =>
    have step : overlay dict (entry :: rest) = overlay (insert dict entry.1 entry.2) rest := rfl
    have apart : dict ++ entry :: rest = (dict ++ [entry]) ++ rest :=
      (List.append_assoc dict [entry] rest).symm
    have missing : get? dict entry.1 = none := by
      refine get?_eq_none_iff.mpr fun present => ?_
      rw [keys, List.map_append] at distinct
      exact (List.nodup_append.mp distinct).2.2 entry.1 present entry.1 List.mem_cons_self rfl
    rw [step, insert_of_get?_eq_none missing, apart]
    exact ih (apart ▸ distinct)

theorem mem_of_mem_underlay {dict other : Dict β} {entry : String × β}
    (listed : entry ∈ underlay dict other) : entry ∈ dict ∨ entry ∈ other := by
  induction other generalizing dict with
  | nil => exact .inl listed
  | cons first rest ih =>
    rcases ih listed with before | below
    · rcases mem_of_mem_insertNew before with old | rfl
      · exact .inl old
      · exact .inr List.mem_cons_self
    · exact .inr (List.mem_cons_of_mem _ below)

theorem keys_underlay (dict other : Dict β) :
    keys (underlay dict other) = unionInOrder (keys dict) (keys other) := by
  induction other generalizing dict with
  | nil => rfl
  | cons entry rest ih =>
    have step : underlay dict (entry :: rest) = underlay (insertNew dict entry.1 entry.2) rest :=
      rfl
    rw [step, ih, keys_insertNew]
    rfl

/-- However often its keys are repeated, a list of entries makes a map with
distinct keys. -/
theorem nodup_keys_ofEntries (entries : List (String × β)) : (keys (ofEntries entries)).Nodup := by
  rw [ofEntries, keys_overlay]
  exact nodup_unionInOrder List.nodup_nil _

/-- Entries with distinct keys are a map already. -/
theorem ofEntries_eq_self {entries : List (String × β)} (distinct : (keys entries).Nodup) :
    ofEntries entries = entries :=
  overlay_eq_append distinct

theorem mem_of_mem_ofEntries {entries : List (String × β)} {entry : String × β}
    (listed : entry ∈ ofEntries entries) : entry ∈ entries :=
  (mem_of_mem_overlay listed).resolve_left List.not_mem_nil

end Dict

end AnnotationMetadata
