import InSitu.Graph.Basic
/-!
Evaluating a graph: node after node, in the order of the layers, each fed by the outputs of the
nodes before it.
-/

namespace InSitu

/-- The latest value of every node, for inspection only. -/
abbrev Symbols := Table Value

namespace Graph

/-- The inputs of a node, taken from the outputs so far. -/
def gather (outputs : Table Output) :
    List (String × String) → Except Fault (List (String × Output))
  | [] => .ok []
  | (inlet, source) :: rest =>
    match outputs.get? source with
    | none => .error (.unknownNode source)
    | some output => (gather outputs rest).map ((inlet, output) :: ·)

def runNode (graph : Graph) (environment : Environment) (outputs : Table Output)
    (name : String) : Except Fault Output :=
  match graph.nodes.get? name with
  | none => .error (.unknownNode name)
  | some node => do
    let bound ← gather outputs node.sources.entries
    node.operation.run ⟨graph.qualified name, Table.ofList bound⟩ environment

/-- Records the value of a node, if values are recorded. -/
def record (graph : Graph) (environment : Environment) (symbols : Symbols) (name : String)
    (output : Output) : Symbols :=
  if environment.config.recordSymbols then
    symbols.insert (graph.qualified name) output.value
  else symbols

/-- Runs nodes in order up to the first fault. -/
def runNodes (graph : Graph) (environment : Environment) :
    List String → Table Output → Symbols → Symbols × Except Fault (Table Output)
  | [], outputs, symbols => (symbols, .ok outputs)
  | name :: rest, outputs, symbols =>
    match graph.runNode environment outputs name with
    | .error fault => (symbols, .error fault)
    | .ok output =>
      runNodes graph environment rest (outputs.insert name output)
        (graph.record environment symbols name output)

def outputValue (graph : Graph) (outputs : Table Output) : Except Fault Value :=
  match graph.output.bind outputs.get? with
  | some output => .ok output.value
  | none => .error (.misuse graph.name .outputWithoutValue)

/-- Evaluates a graph. What ran before a fault stays recorded. -/
def evaluate (graph : Graph) (environment : Environment) (symbols : Symbols) :
    Symbols × Except Fault Value :=
  match graph.verify with
  | .error fault => (symbols, .error fault)
  | .ok layers =>
    let (symbols, outputs) := graph.runNodes environment layers.flatten Table.empty symbols
    (symbols, outputs.bind graph.outputValue)

end Graph

end InSitu
