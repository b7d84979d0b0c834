import InSitu.Graph.Layers
import InSitu.Operation.Basic
/-!
Expression graphs: named nodes that feed each other's inlets, one of them the output.
-/

namespace InSitu

/-- A node: what it does, and which node feeds each connected inlet. -/
structure GraphNode where
  operation : Operation
  sources : Table String

/-- The graph of a named expression. -/
structure Graph where
  name : String
  nodes : Table GraphNode
  output : Option String

namespace Graph

def empty (name : String) : Graph := ⟨name, Table.empty, none⟩

def qualified (graph : Graph) (node : String) : String := graph.name ++ "." ++ node

def add (graph : Graph) (name : String) (operation : Operation) : Except Fault Graph :=
  if graph.nodes.contains name then .error (.misuse (graph.qualified name) .repeatedNode)
  else .ok { graph with nodes := graph.nodes.insert name ⟨operation, Table.empty⟩ }

/-- Feeds the output of one node into a free inlet of another. -/
def connect (graph : Graph) (source target inlet : String) : Except Fault Graph :=
  if !graph.nodes.contains source then .error (.unknownNode source)
  else match graph.nodes.get? target with
    | none => .error (.unknownNode target)
    | some node =>
      let known := node.operation.inlets.map (·.name)
      if !known.contains inlet then
        .error (.misuse (graph.qualified target)
          (.noSuchInlet node.operation.typeName inlet known))
      else if node.sources.contains inlet then
        .error (.misuse (graph.qualified target) (.inletTaken inlet))
      else
        let fed : GraphNode := { node with sources := node.sources.insert inlet source }
        .ok { graph with nodes := graph.nodes.insert target fed }

def setOutput (graph : Graph) (name : String) : Except Fault Graph :=
  if graph.nodes.contains name then .ok { graph with output := some name }
  else .error (.unknownNode name)

def openInlet? (node : GraphNode) : Option Inlet :=
  node.operation.inlets.find? fun inlet => inlet.required && !node.sources.contains inlet.name

/-- Checks the parameters and the required inlets of a node. -/
def checkNode (graph : Graph) (name : String) (node : GraphNode) : Except Fault Unit := do
  node.operation.check (graph.qualified name)
  match openInlet? node with
  | some inlet => .error (.missingInput (graph.qualified name) inlet.name)
  | none => .ok ()

def unknownSource? (nodes : Table GraphNode) : Option String :=
  (nodes.values.flatMap fun node => node.sources.values).find? fun source =>
    !nodes.contains source

def layers (nodes : Table GraphNode) : Except Fault (List (List String)) :=
  match unknownSource? nodes with
  | some source => .error (.unknownNode source)
  | none =>
    (layersOf? (nodes.entries.map fun (name, node) => .start name node.sources.values)).mapError
      .dependencyCycle

/-- Checks a graph and gives its layers, in the order of which it runs. -/
def verify (graph : Graph) : Except Fault (List (List String)) := do
  if graph.output.isNone then .error (.misuse graph.name .noOutput)
  graph.nodes.entries.forM fun (name, node) => graph.checkNode name node
  layers graph.nodes

end Graph

end InSitu
