import InSitu.Axis.Literal
import InSitu.Json.Reader
import InSitu.Mesh.PointMesh
/-!
Point clouds as JSON records.

A field is a list of numbers, or a table of such lists by component.
-/

namespace InSitu

namespace FieldData

def ofJson? : Json → Option FieldData
  | .array items => (Json.listOf? Json.number? (.array items)).map .scalar
  | json => (Json.tableOf? (Json.listOf? Json.number?) json).map .components

def columnJson (column : List Float) : Json := .array (column.map finiteOrNull)

def toJson : FieldData → Json
  | .scalar values => columnJson values
  | .components columns => .object (columns.map fun _ column => columnJson column).entries

end FieldData

namespace PointMesh

def recordFields : List String := ["cycle", "time", "topology", "coordinates", "fields"]

/-- Reads a point, a list of three numbers. -/
def pointOfJson? (json : Json) : Option (Point Float) :=
  (Json.listOf? Json.number? json).bind Point.ofList?

/-- Reads a mesh; its cycle and its points must be there. -/
def ofJson? (json : Json) : Option PointMesh := do
  let record ← json.record? recordFields
  let cycle ← record.required "cycle" Json.natural?
  let time ← record.defaulted "time" none (Json.optional? Json.number?)
  let topology ← record.defaulted "topology" defaultTopology Json.string?
  let coordinates ← record.required "coordinates" (Json.listOf? pointOfJson?)
  let fields ← record.defaulted "fields" Table.empty (Json.tableOf? FieldData.ofJson?)
  return ⟨UInt64.ofNat cycle, time, topology, coordinates, fields⟩

def toJson (mesh : PointMesh) : Json :=
  .object
    [("cycle", .integer mesh.cycle.toNat),
      ("time", (mesh.time.map finiteOrNull).getD .null),
      ("topology", .string mesh.topology),
      ("coordinates", .array (mesh.coordinates.map fun point => FieldData.columnJson point.toList)),
      ("fields", .object (mesh.fields.map fun _ data => data.toJson).entries)]

def parse (text : String) : Except Fault PointMesh :=
  match (Json.parse? text).bind ofJson? with
  | some mesh => .ok mesh
  | none => .error .unreadable

end PointMesh

end InSitu
