import InSitu.History.Basic
import InSitu.Json.Printer
import InSitu.Json.Reader
import InSitu.Wire.Decode
import InSitu.Wire.Encode
import InSitu.Wire.Json
/-!
Saved histories: the stored form of every entry, by name.
-/

namespace InSitu

/-- A saved entry. -/
structure SavedEntry where
  cycle : Cycle
  time : Option Float
  value : Wire

abbrev Snapshot := Table (List SavedEntry)

namespace SavedEntry

def ofEntry (name : String) (entry : ValueEntry) : SavedEntry :=
  ⟨entry.cycle, entry.time, (Wire.ofValue entry.value).withName name⟩

def toEntry (saved : SavedEntry) : Except WireFault ValueEntry :=
  saved.value.toValue.map fun value => ⟨saved.cycle, saved.time, value⟩

/-- The record of a saved entry; an unknown time is left out. -/
def toJson (saved : SavedEntry) : Json :=
  .object <|
    [("cycle", .integer saved.cycle.toNat)] ++
    (saved.time.map fun time => ("time", finiteOrNull time)).toList ++
    [("value", saved.value.toJson)]

def ofJson? (json : Json) : Option SavedEntry := do
  let record ← json.record? ["cycle", "time", "value"]
  let cycle ← record.required "cycle" Json.natural?
  let time ← record.defaulted "time" none (Json.optional? Json.number?)
  let value ← record.required "value" Wire.ofJson?
  return ⟨UInt64.ofNat cycle, time, value⟩

end SavedEntry

namespace Snapshot

/-- Saves the timelines of the selected names, of all names if none is selected. -/
def capture (history : ValueHistory) (selection : List String) : Snapshot :=
  (history.timelines.restrict fun name => selection.isEmpty || selection.contains name).map
    fun name timeline => timeline.entries.map (SavedEntry.ofEntry name)

/-- The last entries up to a cap. -/
def newest {α : Type} (cap : Option Nat) (entries : List α) : List α :=
  match cap with
  | some cap => entries.drop (entries.length - cap)
  | none => entries

/-- Restores saved timelines one after the other. The cap applies to the entries as they were
saved, before they are sorted. -/
def restoreAll (cap : Option Nat) :
    List (String × List SavedEntry) → Except WireFault (List (String × ValueTimeline))
  | [] => .ok []
  | (name, saved) :: rest => do
    let entries ← saved.mapM SavedEntry.toEntry
    let restored ← restoreAll cap rest
    return (name, Timeline.ofEntries (newest cap entries)) :: restored

def restore (snapshot : Snapshot) (cap : Option Nat) : Except Fault ValueHistory :=
  match restoreAll cap snapshot.entries with
  | .ok timelines => .ok ⟨Table.ofList timelines, cap⟩
  | .error fault => .error (.wire fault)

def toJson (snapshot : Snapshot) : Json :=
  .object <| snapshot.entries.map fun (name, saved) =>
    (name, .array (saved.map SavedEntry.toJson))

def text (snapshot : Snapshot) : String := Json.pretty "" snapshot.toJson

def parse (text : String) : Except Fault Snapshot :=
  match (Json.parse? text).bind (Json.tableOf? (Json.listOf? SavedEntry.ofJson?)) with
  | some snapshot => .ok snapshot
  | none => .error .unreadable

end Snapshot

end InSitu
