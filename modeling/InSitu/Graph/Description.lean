import InSitu.Graph.Basic
import InSitu.Json.Reader
import InSitu.Operation.Catalog
import InSitu.Wire.Decode
import InSitu.Wire.Json
/-!
Graphs as they are written in documents.

A parameter is a plain JSON value, a list of numbers, or a stored value.
-/

namespace InSitu

/-- A node as it is written. -/
structure NodeDescription where
  type : String
  parameters : Table Json
  sources : Table String

/-- A graph as it is written. -/
structure GraphDescription where
  nodes : Table NodeDescription
  output : String

namespace NodeDescription

def ofJson? (json : Json) : Option NodeDescription := do
  let record ← json.record? ["type", "params", "inputs"]
  let type ← record.required "type" Json.string?
  let parameters ← record.defaulted "params" Table.empty (Json.tableOf? Json.sorted?)
  let sources ← record.defaulted "inputs" Table.empty (Json.tableOf? Json.string?)
  return ⟨type, parameters, sources⟩

/-- The record of a node; what is empty is left out. -/
def toJson (node : NodeDescription) : Json :=
  .object <|
    [("type", .string node.type)] ++
    (if node.parameters.isEmpty then [] else [("params", .object node.parameters.entries)]) ++
    (if node.sources.isEmpty then []
      else [("inputs", .object (node.sources.map fun _ source => Json.string source).entries)])

end NodeDescription

namespace GraphDescription

def ofJson? (json : Json) : Option GraphDescription := do
  let record ← json.record? ["nodes", "output"]
  let nodes ← record.required "nodes" (Json.tableOf? NodeDescription.ofJson?)
  let output ← record.required "output" Json.string?
  return ⟨nodes, output⟩

def toJson (description : GraphDescription) : Json :=
  .object
    [("nodes", .object (description.nodes.map fun _ node => node.toJson).entries),
      ("output", .string description.output)]

def parse (text : String) : Except Fault GraphDescription :=
  match (Json.parse? text).bind ofJson? with
  | some description => .ok description
  | none => .error .unreadable

end GraphDescription

/-! ## Parameters -/

/-- The array of a list of numbers: of integers if all are integers of 64 bits. -/
def numberList (items : List Json) : Except Fault Value :=
  match items.mapM Json.number? with
  | none => .error (.misuse "params" .arrayOfOther)
  | some numbers =>
    match items.mapM Json.int64? with
    | some integers => .ok (.array (.integers integers))
    | none => .ok (.array (.doubles numbers))

def parameterValue : Json → Except Fault Value
  | .null => .ok .null
  | .bool value => .ok (.bool value)
  | .integer value =>
    match (Json.integer value).int64? with
    | some integer => .ok (.int integer)
    | none => .ok (.double (Float.ofInt value))
  | .double value => .ok (.double value)
  | .string value => .ok (.string value)
  | .array items => numberList items
  | .object fields =>
    match Wire.ofJson? (.object fields) with
    | some wire => wire.toValue.mapError .wire
    | none => .error .unreadable
  | .unreadable => .error .unreadable

def parameterValues (parameters : Table Json) : Except Fault (Table Value) := do
  let values ← parameters.entries.mapM fun (key, json) =>
    (parameterValue json).map fun value => (key, value)
  return Table.ofList values

/-! ## Building -/

namespace Graph

def addDescribed (graph : Graph) : String × NodeDescription → Except Fault Graph
  | (name, node) => do
    let parameters ← parameterValues node.parameters
    let operation ← Operation.build node.type parameters
    graph.add name operation

/-- Connects the inlets of a node as they are written. -/
def connectDescribed (graph : Graph) : String × NodeDescription → Except Fault Graph
  | (name, node) =>
    node.sources.entries.foldlM (fun graph (inlet, source) => graph.connect source name inlet) graph

/-- The graph of a description: all nodes, then all connections, then the output. -/
def ofDescription (name : String) (description : GraphDescription) : Except Fault Graph := do
  let graph ← description.nodes.entries.foldlM addDescribed (Graph.empty name)
  let graph ← description.nodes.entries.foldlM connectDescribed graph
  graph.setOutput description.output

end Graph

end InSitu
