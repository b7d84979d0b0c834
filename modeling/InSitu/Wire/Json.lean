import InSitu.Json.Record
import InSitu.Wire.Basic
/-!
Stored values as JSON records.
-/

namespace InSitu

/-- Reads a kind: its name, or the name as the only key of an object with a null. -/
def Kind.ofJson? : Json → Option Kind
  | .string text => Kind.ofName? text
  | .object [(text, .null)] => Kind.ofName? text
  | _ => none

namespace Wire

/-! ## Writing -/

mutual

/-- The record of a stored value; an absent payload, absent attributes and an absent name are
left out. -/
def toJson : Wire → Json
  | ⟨kind, value, attributes, name⟩ =>
    .object <|
      [("type", .string kind.name)] ++
      (match value with | .null => [] | value => [("value", value)]) ++
      (match attributes with
        | [] => []
        | first :: rest => [("attrs", .object (attributesJson (first :: rest)))]) ++
      (name.map fun name => ("name", .string name)).toList

def attributesJson : List (String × Wire) → List (String × Json)
  | [] => []
  | (name, wire) :: rest => (name, toJson wire) :: attributesJson rest

end

/-! ## Reading -/

/-- The fields of a record that have been met. -/
structure Draft where
  kind : Option Kind := none
  value : Option Json := none
  attributes : Option (List (String × Wire)) := none
  name : Option (Option String) := none

namespace Draft

/-- Enters the kind; it may be given once. -/
def enterKind (draft : Draft) (json : Json) : Option Draft :=
  if draft.kind.isSome then none
  else (Kind.ofJson? json).map fun kind => { draft with kind := some kind }

/-- Enters the payload; it may be given once. -/
def enterValue (draft : Draft) (json : Json) : Option Draft :=
  if draft.value.isSome then none
  else json.sorted?.map fun value => { draft with value := some value }

/-- Enters the attributes; they may be given once, and of several with one name the last
stays. -/
def enterAttributes (draft : Draft) (attributes : List (String × Wire)) : Option Draft :=
  if draft.attributes.isSome then none
  else some { draft with attributes := some (Entries.insertAll [] attributes) }

/-- Enters the name; it may be given once. -/
def enterName (draft : Draft) (json : Json) : Option Draft :=
  if draft.name.isSome then none
  else (Json.optional? Json.string? json).map fun name => { draft with name := some name }

/-- The stored value, if its kind is known. -/
def finish? (draft : Draft) : Option Wire :=
  draft.kind.map fun kind =>
    ⟨kind, draft.value.getD .null, draft.attributes.getD [], draft.name.getD none⟩

end Draft

mutual

/-- Reads the record of a stored value: an object, or an array of its fields in order. -/
def ofJson? : Json → Option Wire
  | .object fields => (draftOf? fields).bind Draft.finish?
  | .array [kind] => do
    let draft ← Draft.enterKind {} kind
    draft.finish?
  | .array [kind, value] => do
    let draft ← Draft.enterKind {} kind
    let draft ← draft.enterValue value
    draft.finish?
  | .array [kind, value, .object attributes] => do
    let draft ← Draft.enterKind {} kind
    let draft ← draft.enterValue value
    let draft ← draft.enterAttributes (← attributesOf? attributes)
    draft.finish?
  | .array [kind, value, .object attributes, name] => do
    let draft ← Draft.enterKind {} kind
    let draft ← draft.enterValue value
    let draft ← draft.enterAttributes (← attributesOf? attributes)
    let draft ← draft.enterName name
    draft.finish?
  | _ => none

/-- Enters the fields of an object; unknown ones are passed over. -/
def draftOf? : List (String × Json) → Option Draft
  | [] => some {}
  | (key, json) :: rest => do
    let draft ← draftOf? rest
    if key = "type" then draft.enterKind json
    else if key = "value" then draft.enterValue json
    else if key = "attrs" then
      match json with
      | .object attributes => draft.enterAttributes (← attributesOf? attributes)
      | _ => none
    else if key = "name" then draft.enterName json
    else some draft

def attributesOf? : List (String × Json) → Option (List (String × Wire))
  | [] => some []
  | (key, json) :: rest => do
    let wire ← ofJson? json
    let rest ← attributesOf? rest
    return (key, wire) :: rest

end

end Wire

end InSitu
