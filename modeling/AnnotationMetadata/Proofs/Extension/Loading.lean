import AnnotationMetadata.Proofs.Extension.Renaming

set_option autoImplicit false

/-!
# Loaded registries

A registry is loaded from the candidates of its sources one after the other. Which source a
candidate belongs to does not matter, and neither do candidates that cannot be used. Each
lookup finds what a filter of all loaded extensions finds, and the listings are sorted sets
of the keys under which there is something to find.
-/

namespace AnnotationMetadata

/-! ## Sorted sets -/

/-- The list is the sorted set of the names with a property. -/
structure SortedSet (names : List String) (property : String → Prop) : Prop where
  ascending : names.Pairwise (· < ·)
  mem_iff : ∀ name, name ∈ names ↔ property name

namespace Registry

theorem nodup_eraseDups (names : List String) : names.eraseDups.Nodup := by
  cases names with
  | nil => exact List.nodup_nil
  | cons first rest =>
    rw [List.eraseDups_cons, List.nodup_cons]
    refine ⟨fun listed => ?_, nodup_eraseDups (rest.filter fun name => !name == first)⟩
    simpa using (List.mem_filter.mp (List.mem_eraseDups.mp listed)).2
termination_by names.length
decreasing_by exact Nat.lt_succ_of_le (List.length_filter_le _ _)

theorem mem_sorted {names : List String} {name : String} : name ∈ sorted names ↔ name ∈ names := by
  rw [sorted, List.mem_mergeSort, List.mem_eraseDups]

theorem sorted_ascending (names : List String) : (sorted names).Pairwise (· < ·) := by
  have ordered : (sorted names).Pairwise fun a b => decide (a ≤ b) = true :=
    List.pairwise_mergeSort
      (fun _ _ _ first second => by
        simp only [decide_eq_true_eq] at first second ⊢
        exact String.le_trans first second)
      (fun a b => by simpa using String.le_total a b) _
  have distinct : (sorted names).Nodup :=
    (List.mergeSort_perm _ _).nodup_iff.mpr (nodup_eraseDups names)
  refine ordered.imp₂ (fun {a b} below different => ?_) distinct
  exact Decidable.byContradiction fun other =>
    different (String.le_antisymm (of_decide_eq_true below) (String.not_lt.mp other))

end Registry

/-! ## Usable candidates -/

/-- The candidate loads, and its extension has a key. -/
def Candidate.isUsable (candidate : Candidate) : Bool :=
  candidate.extension?.any fun extension => extension.key != ""

namespace Registry

/-- The extensions of all candidates that load, in the order of the candidates. -/
def loadedFrom (sources : List (List Candidate)) : List Extension :=
  sources.flatten.filterMap Candidate.extension?

theorem loadCandidate_eq (registry : Registry) (candidate : Candidate) :
    load.loadCandidate registry candidate =
      match candidate.extension? with
      | some extension => registry.register extension
      | none => registry := by
  obtain ⟨name, outcome⟩ := candidate
  cases outcome <;> rfl

private theorem loadCandidate_of_unusable (registry : Registry) {candidate : Candidate}
    (unusable : candidate.isUsable = false) :
    load.loadCandidate registry candidate = registry := by
  rw [loadCandidate_eq]
  unfold Candidate.isUsable at unusable
  cases found : candidate.extension? with
  | none => rfl
  | some extension =>
    rw [found, Option.any_some, bne_eq_false_iff_eq] at unusable
    exact if_pos unusable

/-- Which source a candidate comes from does not matter. -/
theorem load_eq_foldl (sources : List (List Candidate)) :
    load sources = sources.flatten.foldl load.loadCandidate empty :=
  List.foldl_flatten.symm

theorem load_eq_ofExtensions (sources : List (List Candidate)) :
    load sources = ofExtensions (loadedFrom sources) := by
  rw [load_eq_foldl, ofExtensions, loadedFrom, List.foldl_filterMap]
  congr 1
  funext registry candidate
  rw [loadCandidate_eq]
  cases candidate.extension? <;> rfl

private theorem load_eq_load_of_usable {sources others : List (List Candidate)}
    (same : others.flatten.filter Candidate.isUsable =
      sources.flatten.filter Candidate.isUsable) : load others = load sources := by
  have usable : ∀ sources : List (List Candidate), load sources =
      (sources.flatten.filter Candidate.isUsable).foldl load.loadCandidate empty := by
    intro sources
    rw [load_eq_foldl, List.foldl_filter]
    congr 1
    funext registry candidate
    split
    · rfl
    · next unusable => exact loadCandidate_of_unusable registry (Bool.eq_false_iff.mpr unusable)
  rw [usable others, usable sources, same]

/-! ## Keys of tables -/

variable {α : Type}

/-- Whatever a table lists under a key, it is not nothing. -/
def Filled (table : Dict (List α)) : Prop :=
  ∀ key, Dict.get? table key ≠ some []

theorem Filled.addEntry {table : Dict (List α)} (filled : Filled table)
    (entry : Option (String × α)) : Filled (addEntry table entry) := by
  cases entry with
  | none => exact filled
  | some entry =>
    intro key
    rw [Registry.addEntry, addTo, Dict.alter, Dict.get?_insert]
    split
    · simp
    · exact filled key

theorem Filled.mem_keys_iff {table : Dict (List α)} (filled : Filled table) {key : String} :
    key ∈ Dict.keys table ↔ (Dict.get? table key).getD [] ≠ [] := by
  rw [Dict.mem_keys_iff]
  cases found : Dict.get? table key with
  | none => simp
  | some items =>
    have listed : items ≠ [] := fun none => filled key (found.trans (congrArg some none))
    simpa using listed

theorem filled_ofExtensions {table : Registry → Dict (List α)}
    {item? : Extension → Option (String × α)} (empty : table .empty = [])
    (step : ∀ registry extension,
      table (register registry extension) = addEntry (table registry) (item? extension))
    (extensions : List Extension) : Filled (table (ofExtensions extensions)) := by
  have all : ∀ registry, Filled (table registry) →
      Filled (table (extensions.foldl register registry)) := by
    induction extensions with
    | nil => exact fun _ filled => filled
    | cons extension rest ih =>
      intro registry filled
      exact ih _ (step registry extension ▸ filled.addEntry _)
  refine all .empty ?_
  rw [empty]
  exact fun key => nofun

/-- All tables of a loaded registry are filled. -/
theorem filled_load (sources : List (List Candidate)) :
    Filled (load sources).mapperTable ∧ Filled (load sources).transformerTable ∧
      Filled (load sources).remapperTable := by
  rw [load_eq_ofExtensions]
  exact ⟨filled_ofExtensions rfl (fun registry extension =>
      (tables_register registry extension).1) _,
    filled_ofExtensions rfl (fun registry extension =>
      (tables_register registry extension).2.1) _,
    filled_ofExtensions rfl (fun registry extension =>
      (tables_register registry extension).2.2) _⟩

private theorem isMapped_load_iff (sources : List (List Candidate)) (name : String) :
    (load sources).isMapped name = true ↔
      (load sources).mappers name ≠ [] ∨ (load sources).transformers name ≠ [] ∨
        (load sources).remappersFor name ≠ [] := by
  obtain ⟨mapperTable, transformerTable, remapperTable⟩ := filled_load sources
  rw [isMapped, Bool.or_eq_true, Bool.or_eq_true, Dict.contains_iff, Dict.contains_iff,
    Dict.contains_iff, mapperTable.mem_keys_iff, transformerTable.mem_keys_iff,
    remapperTable.mem_keys_iff, or_assoc]
  rfl

private theorem sortedSet_mappedNames (sources : List (List Candidate)) :
    SortedSet (load sources).mappedNames fun name =>
      (load sources).mappers name ≠ [] ∨ (load sources).transformers name ≠ [] := by
  obtain ⟨mapperTable, transformerTable, -⟩ := filled_load sources
  refine ⟨sorted_ascending _, fun name => ?_⟩
  rw [mappedNames, mem_sorted, List.mem_append, mapperTable.mem_keys_iff,
    transformerTable.mem_keys_iff]
  rfl

private theorem sortedSet_mappedPackages (sources : List (List Candidate)) :
    SortedSet (load sources).mappedPackages fun package =>
      (load sources).remappers package ≠ [] := by
  refine ⟨sorted_ascending _, fun package => ?_⟩
  rw [mappedPackages, mem_sorted, (filled_load sources).2.2.mem_keys_iff]
  rfl

/-- Loading filters the candidates. Each lookup finds the loaded extensions of its kind with
the key, unless that is empty, in the order of the sources and their candidates. Candidates
that fail, that break off or whose key is empty can be left out, and the others can be spread
over other sources. An annotation counts as mapped exactly when something is found for it, and
the listings are the sorted sets of the keys for which something is found. -/
theorem lookups_of_load (sources : List (List Candidate)) :
    (∀ key,
      (load sources).mappers key =
          itemsAt key ((loadedFrom sources).filterMap Extension.mapper?) ∧
        (load sources).transformers key =
          itemsAt key ((loadedFrom sources).filterMap Extension.transformer?) ∧
        (load sources).remappers key =
          itemsAt key ((loadedFrom sources).filterMap Extension.remapper?)) ∧
    (∀ others : List (List Candidate),
      others.flatten.filter Candidate.isUsable = sources.flatten.filter Candidate.isUsable →
        load others = load sources) ∧
    (∀ name, (load sources).isMapped name = true ↔
      (load sources).mappers name ≠ [] ∨ (load sources).transformers name ≠ [] ∨
        (load sources).remappersFor name ≠ []) ∧
    SortedSet (load sources).mappedNames (fun name =>
      (load sources).mappers name ≠ [] ∨ (load sources).transformers name ≠ []) ∧
    SortedSet (load sources).mappedPackages (fun package =>
      (load sources).remappers package ≠ []) := by
  refine ⟨fun key => ?_, fun others => load_eq_load_of_usable, isMapped_load_iff sources,
    sortedSet_mappedNames sources, sortedSet_mappedPackages sources⟩
  rw [load_eq_ofExtensions]
  exact ⟨mappers_ofExtensions _ key, transformers_ofExtensions _ key,
    remappers_ofExtensions _ key⟩

/-- Two sources with extensions for one annotation, one of them after a candidate that breaks
off, and with candidates that cannot be used. -/
def mixedSources : List (List Candidate) :=
  [[rename "first" "bean.Mark" "bean.First",
      ⟨"missing", .failed (.missingDependency "missing" "x")⟩],
    [⟨"broken", .crashed⟩, rename "second" "bean.Mark" "bean.Second",
      rename "unnamed" "" "bean.Third", ⟨"moved", .loaded (.movePackage "old" "new")⟩]]
where
  rename (name source target : String) : Candidate := ⟨name, .loaded (.rename source target)⟩

/-- The usable candidates alone, in one source, make the same registry. -/
theorem mixedSources_usable :
    load [[mixedSources.rename "first" "bean.Mark" "bean.First",
        mixedSources.rename "second" "bean.Mark" "bean.Second",
        ⟨"moved", .loaded (.movePackage "old" "new")⟩]] = load mixedSources ∧
      (load mixedSources).transformers "bean.Mark" =
        [fun _ annotation => [{ annotation with name := "bean.First" }],
          fun _ annotation => [{ annotation with name := "bean.Second" }]] ∧
      (load mixedSources).transformers "" = [] ∧
      (load mixedSources).isMapped "old.Mark" = true := by
  obtain ⟨found, spread, mapped, -⟩ := lookups_of_load mixedSources
  exact ⟨spread _ rfl, (found "bean.Mark").2.1, (found "").2.1,
    (mapped "old.Mark").mpr (.inr (.inr (by decide)))⟩

end Registry

end AnnotationMetadata
