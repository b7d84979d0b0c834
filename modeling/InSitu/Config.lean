import InSitu.Fault.Basic
import InSitu.Json.Record
/-!
The settings of a session.
-/

namespace InSitu

/-- The settings of a session. -/
structure Config where
  /-- The number of bins of histograms and axes that give none. -/
  defaultBins : Nat := 256
  /-- Whether the value of every node is kept for inspection. -/
  recordSymbols : Bool := true
  /-- The names that are saved, all of them if empty. -/
  persist : List String := []
  /-- The number of entries that a timeline may keep. -/
  maxHistory : Option Nat := none

namespace Config

/-- There must be a bin, and room for the two entries that a gradient needs. -/
def check (config : Config) : Except Fault Unit :=
  if config.defaultBins = 0 then .error (.misuse "config" .noDefaultBins)
  else if config.maxHistory.any (· < 2) then .error (.misuse "config" .shortHistory)
  else .ok ()

def toJson (config : Config) : Json :=
  .object
    [("default_num_bins", .integer config.defaultBins),
      ("record_symbols", .bool config.recordSymbols),
      ("persist", .array (config.persist.map .string)),
      ("max_history", (config.maxHistory.map fun cap => Json.integer cap).getD .null)]

/-- Reads settings; those that are not given have their defaults. -/
def ofJson? (json : Json) : Option Config := do
  let defaults : Config := {}
  let record ← json.record? ["default_num_bins", "record_symbols", "persist", "max_history"]
  let defaultBins ← record.defaulted "default_num_bins" defaults.defaultBins Json.natural?
  let recordSymbols ← record.defaulted "record_symbols" defaults.recordSymbols Json.bool?
  let persist ← record.defaulted "persist" defaults.persist (Json.listOf? Json.string?)
  let maxHistory ←
    record.defaulted "max_history" defaults.maxHistory (Json.optional? Json.natural?)
  return { defaultBins, recordSymbols, persist, maxHistory }

end Config

end InSitu
