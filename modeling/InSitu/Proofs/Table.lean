import InSitu.Proofs.Sequence
import InSitu.Table

/-!
# Looking tables up

A table is its lookup function together with the order of its keys.  Entering a
value changes the lookup of that key alone, and because the keys are distinct
the entries are exactly the pairs that the lookup answers.
-/

namespace InSitu

namespace Entries

variable {ν : Type}

@[simp]
theorem get?_insert_self
    (entries : List (String × ν)) (key : String) (value : ν) :
    get? (insert entries key value) key = some value := by
  induction entries with
  | nil =>
      simp [insert, get?]
  | cons entry rest inductionHypothesis =>
      by_cases same : entry.1 = key
      · simp [insert, get?, same]
      · simp [insert, get?, same, inductionHypothesis]

theorem get?_insert_of_ne
    {key other : String} (different : other ≠ key)
    (entries : List (String × ν)) (value : ν) :
    get? (insert entries key value) other = get? entries other := by
  induction entries with
  | nil =>
      simp [insert, get?, different.symm]
  | cons entry rest inductionHypothesis =>
      by_cases same : entry.1 = key
      · have entryDifferent : entry.1 ≠ other := by
          rw [same]
          exact different.symm
        simp [insert, get?, same, different.symm]
      · simp [insert, get?, same, inductionHypothesis]

theorem mem_keys_of_mem
    {entries : List (String × ν)} {key : String} {value : ν}
    (member : (key, value) ∈ entries) : key ∈ keys entries :=
  List.mem_map.mpr ⟨(key, value), member, rfl⟩

theorem mem_of_get?_eq_some
    {entries : List (String × ν)} {key : String} {value : ν}
    (found : get? entries key = some value) : (key, value) ∈ entries := by
  induction entries with
  | nil =>
      simp [get?] at found
  | cons entry rest inductionHypothesis =>
      rw [get?] at found
      split at found
      · obtain ⟨entryKey, entryValue⟩ := entry
        simp_all
      · exact List.mem_cons_of_mem entry (inductionHypothesis found)

theorem get?_eq_some_of_mem
    {entries : List (String × ν)} (distinct : (keys entries).Nodup)
    {key : String} {value : ν} (member : (key, value) ∈ entries) :
    get? entries key = some value := by
  induction entries with
  | nil =>
      simp at member
  | cons entry rest inductionHypothesis =>
      have parts := List.nodup_cons.mp distinct
      rcases List.mem_cons.mp member with headEqual | tailMember
      · simp [get?, ← headEqual]
      · have different : entry.1 ≠ key := by
          intro same
          exact parts.1 (same ▸ mem_keys_of_mem tailMember)
        rw [get?, if_neg different]
        exact inductionHypothesis parts.2 tailMember

theorem isSome_get?_iff
    (entries : List (String × ν)) (key : String) :
    (get? entries key).isSome = true ↔ key ∈ keys entries := by
  induction entries with
  | nil =>
      simp [get?, keys]
  | cons entry rest inductionHypothesis =>
      by_cases same : entry.1 = key
      · simp [get?, keys, same]
      · simp only [keys] at inductionHypothesis
        simp [get?, keys, same, inductionHypothesis, Ne.symm same]

/-- Entering a known key leaves the keys and their order as they are. -/
theorem keys_insert_of_mem
    {entries : List (String × ν)} {key : String}
    (known : key ∈ keys entries) (value : ν) :
    keys (insert entries key value) = keys entries := by
  induction entries with
  | nil =>
      simp [keys] at known
  | cons entry rest inductionHypothesis =>
      by_cases same : entry.1 = key
      · simp [insert, keys, same]
      · have knownLater : key ∈ keys rest := by
          simpa [keys, Ne.symm same] using known
        simpa [insert, keys, same] using inductionHypothesis knownLater

/-- A new key goes to the end. -/
theorem insert_of_not_mem
    {entries : List (String × ν)} {key : String}
    (fresh : key ∉ keys entries) (value : ν) :
    insert entries key value = entries ++ [(key, value)] := by
  induction entries with
  | nil =>
      rfl
  | cons entry rest inductionHypothesis =>
      simp only [keys, List.map_cons, List.mem_cons, not_or] at fresh
      rw [insert, if_neg (Ne.symm fresh.1), inductionHypothesis fresh.2,
        List.cons_append]

/-- What is found after entering a list was there before or is in the list. -/
theorem keys_append (entries more : List (String × ν)) :
    keys (entries ++ more) = keys entries ++ keys more :=
  List.map_append

/-- Entering new keys one after the other appends them. -/
theorem insertAll_eq_append
    {entries more : List (String × ν)} (distinct : (keys (entries ++ more)).Nodup) :
    insertAll entries more = entries ++ more := by
  induction more generalizing entries with
  | nil =>
      rw [insertAll, List.foldl_nil, List.append_nil]
  | cons entry rest inductionHypothesis =>
      have fresh : entry.1 ∉ keys entries := by
        rw [keys_append] at distinct
        exact fun known => (List.nodup_append.mp distinct).2.2 _ known _ List.mem_cons_self rfl
      rw [insertAll, List.foldl_cons, insert_of_not_mem fresh]
      have distinctRest : (keys ((entries ++ [entry]) ++ rest)).Nodup := by simpa using distinct
      have rest := inductionHypothesis distinctRest
      rw [insertAll] at rest
      rw [rest, List.append_assoc, List.singleton_append]

theorem mem_keys_insertAll {entries more : List (String × ν)} {key : String} :
    key ∈ keys (insertAll entries more) ↔ key ∈ keys entries ∨ key ∈ keys more := by
  induction more generalizing entries with
  | nil =>
      simp [insertAll, keys]
  | cons entry rest inductionHypothesis =>
      have entered : key ∈ keys (insertAll entries (entry :: rest)) ↔
          key ∈ keys (insert entries entry.1 entry.2) ∨ key ∈ keys rest := inductionHypothesis
      rw [entered, mem_keys_insert, or_assoc]
      exact or_congr_right List.mem_cons.symm

theorem get?_insertAll_of_not_mem
    {entries more : List (String × ν)} {key : String} (other : key ∉ keys more) :
    get? (insertAll entries more) key = get? entries key := by
  induction more generalizing entries with
  | nil =>
      rfl
  | cons entry rest inductionHypothesis =>
      have different : key ≠ entry.1 := fun same => other (List.mem_cons.mpr (.inl same))
      have others : key ∉ keys rest := fun later => other (List.mem_cons_of_mem _ later)
      rw [insertAll, List.foldl_cons]
      exact (inductionHypothesis others).trans (get?_insert_of_ne different entries entry.2)

theorem get?_insertAll_of_mem
    {entries more : List (String × ν)} (distinct : (keys more).Nodup) {key : String} {value : ν}
    (member : (key, value) ∈ more) : get? (insertAll entries more) key = some value := by
  induction more generalizing entries with
  | nil =>
      cases member
  | cons entry rest inductionHypothesis =>
      obtain ⟨last, restDistinct⟩ := List.nodup_cons.mp distinct
      rw [insertAll, List.foldl_cons]
      rcases List.mem_cons.mp member with rfl | later
      · exact (get?_insertAll_of_not_mem last).trans (get?_insert_self entries key value)
      · exact inductionHypothesis restDistinct later

theorem filter_insert_of_dropped
    (entries : List (String × ν)) {keeps : String → Bool} {key : String}
    (dropped : keeps key = false) (value : ν) :
    (insert entries key value).filter (fun entry => keeps entry.1) =
      entries.filter fun entry => keeps entry.1 := by
  induction entries with
  | nil =>
      simp [insert, dropped]
  | cons entry rest inductionHypothesis =>
      by_cases same : entry.1 = key
      · simp [insert, same, dropped]
      · simp [insert, same, List.filter_cons, inductionHypothesis]

/-- The entries that are kept of those entered, if none of them replaces one kept before. -/
theorem filter_insertAll
    {entries more : List (String × ν)} {keeps : String → Bool} (distinct : (keys more).Nodup)
    (fresh : ∀ key ∈ keys more, keeps key = true → key ∉ keys entries) :
    (insertAll entries more).filter (fun entry => keeps entry.1) =
      entries.filter (fun entry => keeps entry.1) ++ more.filter fun entry => keeps entry.1 := by
  induction more generalizing entries with
  | nil =>
      rw [insertAll, List.foldl_nil, List.filter_nil, List.append_nil]
  | cons entry rest inductionHypothesis =>
      obtain ⟨last, restDistinct⟩ := List.nodup_cons.mp distinct
      have restFresh : ∀ key ∈ keys rest, keeps key = true →
          key ∉ keys (insert entries entry.1 entry.2) := by
        intro key member kept known
        rcases (mem_keys_insert _ _ _ _).mp known with before | rfl
        · exact fresh key (List.mem_cons_of_mem _ member) kept before
        · exact last member
      rw [insertAll, List.foldl_cons]
      refine (inductionHypothesis restDistinct restFresh).trans ?_
      cases kept : keeps entry.1 with
      | false =>
          rw [filter_insert_of_dropped entries kept, List.filter_cons, kept]
          rfl
      | true =>
          rw [insert_of_not_mem (fresh entry.1 List.mem_cons_self kept), List.filter_append,
            List.filter_cons, kept]
          simp [kept]

theorem get?_map {μ : Type} (change : String → ν → μ) (entries : List (String × ν))
    (key : String) :
    get? (entries.map fun entry => (entry.1, change entry.1 entry.2)) key =
      (get? entries key).map (change key) := by
  induction entries with
  | nil =>
      rfl
  | cons entry rest inductionHypothesis =>
      rw [List.map_cons, get?, get?, inductionHypothesis]
      by_cases same : entry.1 = key
      · rw [if_pos same, if_pos same, same]
        rfl
      · rw [if_neg same, if_neg same]

theorem map_insert {μ : Type} (change : String → ν → μ) (entries : List (String × ν))
    (key : String) (value : ν) :
    (insert entries key value).map (fun entry => (entry.1, change entry.1 entry.2)) =
      insert (entries.map fun entry => (entry.1, change entry.1 entry.2)) key
        (change key value) := by
  induction entries with
  | nil =>
      rfl
  | cons entry rest inductionHypothesis =>
      rw [insert, List.map_cons, insert]
      by_cases same : entry.1 = key
      · rw [if_pos same, if_pos same, List.map_cons]
      · rw [if_neg same, if_neg same, List.map_cons, inductionHypothesis]

theorem get?_insertAll_cases {entries more : List (String × ν)}
    {key : String} {value : ν}
    (found : get? (insertAll entries more) key = some value) :
    get? entries key = some value ∨ (key, value) ∈ more := by
  induction more generalizing entries with
  | nil =>
      exact Or.inl found
  | cons entry rest inductionHypothesis =>
      rcases inductionHypothesis found with entered | inRest
      · by_cases same : key = entry.1
        · rw [same, get?_insert_self] at entered
          cases entered
          exact Or.inr (same ▸ List.mem_cons_self ..)
        · rw [get?_insert_of_ne same] at entered
          exact Or.inl entered
      · exact Or.inr (List.mem_cons_of_mem entry inRest)

end Entries

/-! ## Tables -/

namespace Table

variable {ν μ : Type}

@[simp]
theorem get?_empty (key : String) : (empty : Table ν).get? key = none :=
  rfl

@[simp]
theorem get?_insert_self (table : Table ν) (key : String) (value : ν) :
    (table.insert key value).get? key = some value :=
  Entries.get?_insert_self table.entries key value

theorem get?_insert_of_ne
    {key other : String} (different : other ≠ key)
    (table : Table ν) (value : ν) :
    (table.insert key value).get? other = table.get? other :=
  Entries.get?_insert_of_ne different table.entries value

theorem get?_insert (table : Table ν) (key other : String) (value : ν) :
    (table.insert key value).get? other =
      if other = key then some value else table.get? other := by
  by_cases same : other = key
  · simp [same]
  · rw [if_neg same, get?_insert_of_ne same]

theorem get?_eq_some_iff {table : Table ν} {key : String} {value : ν} :
    table.get? key = some value ↔ (key, value) ∈ table.entries :=
  ⟨Entries.mem_of_get?_eq_some, Entries.get?_eq_some_of_mem table.distinct⟩

theorem contains_iff_mem_keys {table : Table ν} {key : String} :
    table.contains key = true ↔ key ∈ table.keys :=
  Entries.isSome_get?_iff table.entries key

theorem contains_iff_exists {table : Table ν} {key : String} :
    table.contains key = true ↔ ∃ value, table.get? key = some value :=
  Option.isSome_iff_exists

theorem mem_keys_iff_exists {table : Table ν} {key : String} :
    key ∈ table.keys ↔ ∃ value, table.get? key = some value := by
  rw [← contains_iff_mem_keys, contains_iff_exists]

theorem get?_eq_none_iff {table : Table ν} {key : String} :
    table.get? key = none ↔ key ∉ table.keys := by
  rw [← contains_iff_mem_keys, contains, Option.isSome_iff_ne_none, Classical.not_not]

theorem mem_values_iff {table : Table ν} {value : ν} :
    value ∈ table.values ↔ ∃ key, table.get? key = some value := by
  simp only [values, List.mem_map, get?_eq_some_iff, Prod.exists, exists_eq_right]

theorem mem_keys_insert {table : Table ν} {key other : String} {value : ν} :
    other ∈ (table.insert key value).keys ↔ other ∈ table.keys ∨ other = key :=
  Entries.mem_keys_insert table.entries key value other

theorem keys_insert_of_mem {table : Table ν} {key : String}
    (known : key ∈ table.keys) (value : ν) :
    (table.insert key value).keys = table.keys :=
  Entries.keys_insert_of_mem known value

theorem keys_insert_of_not_mem {table : Table ν} {key : String}
    (fresh : key ∉ table.keys) (value : ν) :
    (table.insert key value).keys = table.keys ++ [key] := by
  have entered := congrArg Entries.keys (Entries.insert_of_not_mem fresh value)
  rwa [Entries.keys, Entries.keys, List.map_append] at entered

theorem entries_ofList {entries : List (String × ν)} (distinct : (Entries.keys entries).Nodup) :
    (ofList entries).entries = entries :=
  Entries.insertAll_eq_append distinct

theorem eq_of_entries_eq {first second : Table ν} (same : first.entries = second.entries) :
    first = second := by
  obtain ⟨entries, distinct⟩ := first
  cases same
  rfl

theorem ofList_entries (table : Table ν) : ofList table.entries = table :=
  eq_of_entries_eq (entries_ofList table.distinct)

theorem keys_restrict (table : Table ν) (keeps : String → Bool) :
    (table.restrict keeps).keys = table.keys.filter keeps := by
  rw [keys, keys, Entries.keys, Entries.keys, List.filter_map]
  rfl

theorem keys_map (change : String → ν → μ) (table : Table ν) :
    (table.map change).keys = table.keys := by
  rw [keys, keys, map, Entries.keys, Entries.keys, List.map_map]
  rfl

theorem get?_map (change : String → ν → μ) (table : Table ν) (key : String) :
    (table.map change).get? key = (table.get? key).map (change key) := by
  obtain ⟨entries, distinct⟩ := table
  exact Entries.get?_map change entries key

theorem map_insert (change : String → ν → μ) (table : Table ν) (key : String) (value : ν) :
    (table.insert key value).map change = (table.map change).insert key (change key value) := by
  have entries := Entries.map_insert change table.entries key value
  simp only [map, insert, entries]

theorem map_eq_self_iff {change : ν → ν} {table : Table ν} :
    (table.map fun _ => change) = table ↔ ∀ entry ∈ table.entries, change entry.2 = entry.2 := by
  have entrywise : (table.map fun _ => change) = table ↔
      ∀ entry ∈ table.entries, (entry.1, change entry.2) = entry := by
    rw [← InSitu.map_eq_self_iff]
    exact ⟨congrArg Table.entries, fun same => eq_of_entries_eq same⟩
  rw [entrywise]
  constructor
  · intro same entry member
    exact congrArg Prod.snd (same entry member)
  · intro same entry member
    exact congrArg (Prod.mk entry.1) (same entry member)

theorem mem_of_get?_ofList {entries : List (String × ν)}
    {key : String} {value : ν}
    (found : (ofList entries).get? key = some value) : (key, value) ∈ entries :=
  (Entries.get?_insertAll_cases found).resolve_left (by simp [Entries.get?])

theorem mem_keys_ofList {entries : List (String × ν)} {key : String} :
    key ∈ (ofList entries).keys ↔ key ∈ Entries.keys entries :=
  Entries.mem_keys_insertAll.trans (or_iff_right List.not_mem_nil)

/-- A table of readings has the reading of each of its keys, also of one that is repeated. -/
theorem get?_ofList_map {keys : List String} {key : String} (member : key ∈ keys)
    (reading : String → ν) :
    (ofList (keys.map fun key => (key, reading key))).get? key = some (reading key) := by
  have known : key ∈ (ofList (keys.map fun key => (key, reading key))).keys := by
    rw [mem_keys_ofList, Entries.keys, List.map_map]
    simpa using member
  obtain ⟨value, found⟩ := mem_keys_iff_exists.mp known
  obtain ⟨_, _, same⟩ := List.mem_map.mp (mem_of_get?_ofList found)
  cases same
  exact found

end Table

end InSitu
