import InSitu.Json.Basic
import InSitu.Table
/-!
Reading records and tables from JSON.

A record is an object with known fields, or an array of the fields in order. Unknown fields are
passed over, a known field may not be repeated. A table is an object with free keys.
-/

namespace InSitu.Json

/-- The known fields of a record, by name. -/
structure Record where
  fields : List (String × Json)

/-- The known fields of an object; none if one is repeated. -/
def knownFields? (names : List String) : List (String × Json) → Option (List (String × Json))
  | [] => some []
  | field :: rest => do
    let known ← knownFields? names rest
    if field.1 ∈ names then
      if field.1 ∈ known.map Prod.fst then none else return field :: known
    else return known

/-- Views a document as a record with the given fields. -/
def record? (names : List String) : Json → Option Record
  | .object fields => (knownFields? names fields).map .mk
  | .array items =>
    if items.length ≤ names.length then some ⟨names.zip items⟩ else none
  | _ => none

namespace Record

variable {α : Type}

def required (record : Record) (name : String) (read : Json → Option α) : Option α :=
  (Entries.get? record.fields name).bind read

def defaulted (record : Record) (name : String) (default : α) (read : Json → Option α) :
    Option α :=
  match Entries.get? record.fields name with
  | some json => read json
  | none => some default

end Record

def fieldsOf? {α : Type} (read : Json → Option α) (fields : List (String × Json)) :
    Option (List (String × α)) :=
  fields.mapM fun field => (read field.2).map fun value => (field.1, value)

def tableOf? {α : Type} (read : Json → Option α) (json : Json) : Option (Table α) :=
  (json.object?.bind (fieldsOf? read)).map Table.ofList

end InSitu.Json
