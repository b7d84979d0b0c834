import InSitu.Graph.Description
import InSitu.Mesh.Json
import InSitu.Session
/-!
Scenarios: settings, named expressions, and the datasets of the cycles to run.
-/

namespace InSitu

/-- A scenario whose expressions are known to be sound. -/
structure Scenario where
  config : Config
  expressions : Expressions
  cycles : List PointMesh

/-- A scenario as it is written. -/
structure ScenarioDescription where
  config : Config
  expressions : Table GraphDescription
  cycles : List PointMesh

/-- Why a text is no scenario. -/
inductive ScenarioFault where
  | unreadable
  | expression (name : String) (fault : Fault)

namespace ScenarioDescription

/-- Reads the record of a scenario; only the expressions must be there. -/
def ofJson? (json : Json) : Option ScenarioDescription := do
  let record ← json.record? ["config", "expressions", "cycles"]
  let config ← record.defaulted "config" {} Config.ofJson?
  let expressions ← record.required "expressions" (Json.tableOf? GraphDescription.ofJson?)
  let cycles ← record.defaulted "cycles" [] (Json.listOf? PointMesh.ofJson?)
  return ⟨config, expressions, cycles⟩

/-- The graph of a described expression, if it is sound. -/
def soundGraph (name : String) (description : GraphDescription) : Except Fault Graph := do
  let graph ← Graph.ofDescription name description
  let _layers ← graph.verify
  return graph

/-- The scenario of a description, if every expression is sound. -/
def toScenario (description : ScenarioDescription) : Except ScenarioFault Scenario := do
  let graphs ← description.expressions.entries.mapM fun (name, graph) =>
    match soundGraph name graph with
    | .ok graph => .ok (name, graph)
    | .error fault => .error (.expression name fault)
  return ⟨description.config, Table.ofList graphs, description.cycles⟩

end ScenarioDescription

def Scenario.parse (text : String) : Except ScenarioFault Scenario :=
  match (Json.parse? text).bind ScenarioDescription.ofJson? with
  | some description => description.toScenario
  | none => .error .unreadable

end InSitu
