import InSitu.Number.Scalar
/-!
JSON documents.

An object keeps its fields as they were written, repeated keys included. Parts that have the
shape of JSON but no value, such as a number too large to hold, are `unreadable`: they may be
passed over, but not read.
-/

namespace InSitu

/-- A JSON document. -/
inductive Json where
  | null
  | bool (value : Bool)
  /-- A number without fraction and exponent that fits a signed or an unsigned 64-bit word. -/
  | integer (value : Int)
  | double (value : Float)
  | string (value : String)
  | array (items : List Json)
  | object (fields : List (String × Json))
  | unreadable

namespace Json

instance : Inhabited Json := ⟨.null⟩

/-! ## Reading plain values -/

def bool? : Json → Option Bool
  | .bool value => some value
  | _ => none

def string? : Json → Option String
  | .string value => some value
  | _ => none

def int64? : Json → Option Int64
  | .integer value => Number.int64? value
  | _ => none

def natural? : Json → Option Nat
  | .integer value => Number.natural? value
  | _ => none

def number? : Json → Option Float
  | .integer value => some (Float.ofInt value)
  | .double value => some value
  | _ => none

def array? : Json → Option (List Json)
  | .array items => some items
  | _ => none

def object? : Json → Option (List (String × Json))
  | .object fields => some fields
  | _ => none

def listOf? {α : Type} (item : Json → Option α) (json : Json) : Option (List α) :=
  json.array?.bind (·.mapM item)

/-- A value or the absence of one, which is written `null`. -/
def optional? {α : Type} (read : Json → Option α) : Json → Option (Option α)
  | .null => some none
  | json => (read json).map some

/-! ## Documents with sorted keys -/

/-- Enters a field among fields sorted by key, in place of one with the same key. -/
def insertSorted (key : String) (value : Json) :
    List (String × Json) → List (String × Json)
  | [] => [(key, value)]
  | field :: rest =>
    if key < field.1 then (key, value) :: field :: rest
    else if key = field.1 then (key, value) :: rest
    else field :: insertSorted key value rest

/-- The fields of an object sorted by key; of several with one key the last stays. -/
def sortFields (fields : List (String × Json)) : List (String × Json) :=
  fields.foldl (fun sorted field => insertSorted field.1 field.2 sorted) []

mutual

def isReadable : Json → Bool
  | .array items => allReadable items
  | .object fields => fieldsReadable fields
  | .unreadable => false
  | _ => true

def allReadable : List Json → Bool
  | [] => true
  | item :: rest => isReadable item && allReadable rest

/-- Whether every value of a list of fields is readable. -/
def fieldsReadable : List (String × Json) → Bool
  | [] => true
  | (_, value) :: rest => isReadable value && fieldsReadable rest

end

mutual

/-- The document with the fields of all objects sorted. -/
def sorted : Json → Json
  | .array items => .array (sortedItems items)
  | .object fields => .object (sortFields (sortedFields fields))
  | json => json

def sortedItems : List Json → List Json
  | [] => []
  | item :: rest => sorted item :: sortedItems rest

/-- Every value of a list of fields with its objects sorted. -/
def sortedFields : List (String × Json) → List (String × Json)
  | [] => []
  | (key, value) :: rest => (key, sorted value) :: sortedFields rest

end

/-- Reads a document without a known shape: all of it, with sorted fields. -/
def sorted? (json : Json) : Option Json := if json.isReadable then some json.sorted else none

end Json

end InSitu
