import InSitu.Scenario.Basic
/-!
Playing the datasets of a scenario in order. A dataset that is not sound is skipped, and one on
which an expression fails does not stop those after it.
-/

namespace InSitu

/-- What became of a dataset. -/
inductive CycleOutcome where
  | completed (results : List (String × Value))
  /-- The dataset is not sound. -/
  | skipped (fault : Fault)
  /-- An expression failed; those before it are recorded. -/
  | failed (fault : Fault)

/-- A dataset and what became of it. -/
structure CycleReport where
  mesh : PointMesh
  outcome : CycleOutcome

namespace Session

def play (session : Session) (expressions : Expressions) (mesh : PointMesh) :
    Session × CycleOutcome :=
  match mesh.check with
  | .error fault => (session, .skipped fault)
  | .ok () =>
    match session.runCycle mesh.toDataset expressions with
    | (session, .ok results) => (session, .completed results)
    | (session, .error fault) => (session, .failed fault)

def playAll (session : Session) (expressions : Expressions) :
    List PointMesh → Session × List CycleReport
  | [] => (session, [])
  | mesh :: rest =>
    let (session, outcome) := session.play expressions mesh
    let (session, reports) := session.playAll expressions rest
    (session, ⟨mesh, outcome⟩ :: reports)

end Session

namespace CycleReport

def line? (report : CycleReport) : Option String :=
  match report.outcome with
  | .completed results =>
    let values := results.map fun (name, value) => (name, (Wire.ofValue value).toJson)
    let line : Json := .object
      [("cycle", .integer report.mesh.cycle.toNat),
        ("time", (report.mesh.time.map finiteOrNull).getD .null),
        ("results", .object values)]
    some line.sorted.compact
  | .skipped _ | .failed _ => none

end CycleReport

def lastValueJson (entry : ValueEntry) : Json :=
  .object
    [("cycle", .integer entry.cycle.toNat),
      ("time", (entry.time.map finiteOrNull).getD .null),
      ("value", (Wire.ofValue entry.value).toJson)]

def lastValuesLine (history : ValueHistory) : String :=
  let entries := history.lastEntries.map fun (name, entry) => (name, lastValueJson entry)
  (Json.object [("last_values", .object entries)]).sorted.compact

end InSitu
