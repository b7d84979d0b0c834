/-!
Tables that keep the order in which their keys were first entered.

Main statements: the keys are distinct, entering a known key keeps its place, and a new key goes
to the end.
-/

namespace InSitu

/-! ## Lists of entries -/

namespace Entries

variable {ν : Type}

def keys (entries : List (String × ν)) : List String := entries.map Prod.fst

def get? : List (String × ν) → String → Option ν
  | [], _ => none
  | entry :: rest, key => if entry.1 = key then some entry.2 else get? rest key

/-- Enters a value: a known key keeps its place, a new one goes to the end. -/
def insert : List (String × ν) → String → ν → List (String × ν)
  | [], key, value => [(key, value)]
  | entry :: rest, key, value =>
    if entry.1 = key then (key, value) :: rest else entry :: insert rest key value

def insertAll (entries : List (String × ν)) (more : List (String × ν)) : List (String × ν) :=
  more.foldl (fun table entry => insert table entry.1 entry.2) entries

theorem mem_keys_insert (entries : List (String × ν)) (key : String) (value : ν)
    (other : String) :
    other ∈ keys (insert entries key value) ↔ other ∈ keys entries ∨ other = key := by
  induction entries with
  | nil => simp [insert, keys]
  | cons entry rest ih =>
    by_cases same : entry.1 = key
    · simp [insert, keys, same]
      grind
    · simp only [keys] at ih
      simp [insert, keys, same, ih, or_assoc]

theorem nodup_keys_insert {entries : List (String × ν)} (distinct : (keys entries).Nodup)
    (key : String) (value : ν) : (keys (insert entries key value)).Nodup := by
  induction entries with
  | nil => simp [insert, keys]
  | cons entry rest ih =>
    have parts := List.nodup_cons.1 distinct
    by_cases same : entry.1 = key
    · simpa [insert, keys, same] using distinct
    · have fresh : entry.1 ∉ keys (insert rest key value) := by
        rw [mem_keys_insert]
        rintro (known | equal)
        · exact parts.1 known
        · exact same equal
      rw [insert, if_neg same]
      exact List.nodup_cons.2 ⟨fresh, ih parts.2⟩

theorem nodup_keys_insertAll {entries : List (String × ν)} (distinct : (keys entries).Nodup)
    (more : List (String × ν)) : (keys (insertAll entries more)).Nodup := by
  induction more generalizing entries with
  | nil => exact distinct
  | cons entry rest ih => exact ih (nodup_keys_insert distinct entry.1 entry.2)

end Entries

/-! ## Tables -/

/-- Entries with distinct keys in the order of their first entry. -/
structure Table (ν : Type) where
  entries : List (String × ν)
  distinct : (Entries.keys entries).Nodup

namespace Table

variable {ν μ : Type}

def empty : Table ν := ⟨[], List.nodup_nil⟩

instance : Inhabited (Table ν) := ⟨empty⟩

instance : EmptyCollection (Table ν) := ⟨empty⟩

def keys (table : Table ν) : List String := Entries.keys table.entries

def values (table : Table ν) : List ν := table.entries.map Prod.snd

def size (table : Table ν) : Nat := table.entries.length

def isEmpty (table : Table ν) : Bool := table.entries.isEmpty

def get? (table : Table ν) (key : String) : Option ν := Entries.get? table.entries key

def contains (table : Table ν) (key : String) : Bool := (table.get? key).isSome

/-- Enters a value: a known key keeps its place, a new one goes to the end. -/
def insert (table : Table ν) (key : String) (value : ν) : Table ν :=
  ⟨Entries.insert table.entries key value, Entries.nodup_keys_insert table.distinct key value⟩

/-- The table of a list of entries; of several with one key the last value stays. -/
def ofList (entries : List (String × ν)) : Table ν :=
  ⟨Entries.insertAll [] entries, @Entries.nodup_keys_insertAll ν [] List.nodup_nil entries⟩

/-- Removes a key, the others keep their order. -/
def erase (table : Table ν) (key : String) : Table ν :=
  ⟨table.entries.filter (·.1 != key),
    (List.filter_sublist.map Prod.fst).nodup table.distinct⟩

/-- The entries whose key passes a test, in order. -/
def restrict (table : Table ν) (keeps : String → Bool) : Table ν :=
  ⟨table.entries.filter fun entry => keeps entry.1,
    (List.filter_sublist.map Prod.fst).nodup table.distinct⟩

def map (change : String → ν → μ) (table : Table ν) : Table μ :=
  ⟨table.entries.map fun entry => (entry.1, change entry.1 entry.2), by
    have same : Entries.keys (table.entries.map fun entry => (entry.1, change entry.1 entry.2)) =
        Entries.keys table.entries := by
      simp [Entries.keys, Function.comp_def]
    rw [same]
    exact table.distinct⟩

end Table

end InSitu
