import InSitu.Proofs.Json.Lines
import InSitu.Proofs.Json.Reading
import InSitu.Proofs.Scenario.Playing
import InSitu.Scenario.Report

/-!
# What a run prints

A run that is not stopped before its first dataset prints a line for each dataset that is completed,
in their order, and one more line with the newest entry of every name.
-/

namespace InSitu

namespace History

variable {τ ν : Type}

end History

namespace Completion

/-- The values of a cycle under their names. -/
def resultsJson (completion : Completion) : Json :=
  .object (completion.results.map fun (name, value) => (name, (Wire.ofValue value).toJson))

def timeJson (completion : Completion) : Json :=
  (completion.mesh.time.map finiteOrNull).getD .null

/-- The line of a dataset: its cycle number, the values with sorted names, and its time. -/
def line (completion : Completion) : String :=
  Json.compact <| .object
    [("cycle", .integer completion.mesh.cycle.toNat),
      ("results", completion.resultsJson.sorted), ("time", completion.timeJson)]

end Completion

namespace RunSources

end RunSources

end InSitu
