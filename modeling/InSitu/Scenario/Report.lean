import InSitu.Scenario.Playback
/-!
Running a scenario from its text: the lines it prints, the events it logs, and how it exits.
-/

namespace InSitu

/-- What a run is given: the texts of its files, if they can be read. -/
structure RunSources where
  scenario : Option String
  /-- The saved history to start from, if one is asked for. -/
  savedHistory : Option (Option String)
  /-- The number of datasets to play, all of them if none is given. -/
  limit : Option Nat

/-- Why a run ends early. -/
inductive RunFault where
  | missingScenario
  | scenario (fault : ScenarioFault)
  | config (fault : Fault)
  | historyNotLoaded
  | historyNotSaved

/-- Why a run ends early, in words. -/
def RunFault.message : RunFault → String
  | .missingScenario => "Failed to load scenario: cannot read"
  | .scenario .unreadable => "Failed to load scenario"
  | .scenario (.expression name fault) =>
    s!"Failed to load scenario: expression '{name}': " ++ fault.message
  | .config fault => "Invalid session config: " ++ fault.message
  | .historyNotLoaded => "Failed to load cache"
  | .historyNotSaved => "Failed to save cache"

/-- What a run logs. -/
inductive RunEvent where
  | stopped (fault : RunFault)
  | skipped (cycle : Cycle) (fault : Fault)
  | failed (cycle : Cycle) (fault : Fault)
  /-- The number of datasets without a result. -/
  | incomplete (count : Nat)

/-- How grave an event is. -/
inductive Severity where
  | warning
  | error

def Severity.name : Severity → String
  | .warning => "WARN"
  | .error => "ERROR"

namespace RunEvent

def severity : RunEvent → Severity
  | .stopped _ | .failed .. => .error
  | .skipped .. | .incomplete _ => .warning

def message : RunEvent → String
  | .stopped fault => fault.message
  | .skipped cycle fault =>
    "skipping cycle: " ++ fault.message ++ " cycle=" ++ toString cycle.toNat
  | .failed cycle fault =>
    "cycle failed: " ++ fault.message ++ " cycle=" ++ toString cycle.toNat ++ " tier=" ++
      fault.tier.name
  | .incomplete count => s!"some cycles did not complete failed={count}"

def ofReport? (report : CycleReport) : Option RunEvent :=
  match report.outcome with
  | .completed _ => none
  | .skipped fault => some (.skipped report.mesh.cycle fault)
  | .failed fault => some (.failed report.mesh.cycle fault)

/-- The events of played datasets; if some have no result, their number comes last. -/
def ofReports (reports : List CycleReport) : List RunEvent :=
  let events := reports.filterMap ofReport?
  if events.isEmpty then [] else events ++ [.incomplete events.length]

end RunEvent

/-- What a run has done. -/
structure RunReport where
  lines : List String
  events : List RunEvent
  /-- The text to save, if the run came to its end. -/
  saved : Option String

namespace RunReport

def stopped (fault : RunFault) : RunReport := ⟨[], [.stopped fault], none⟩

/-- The exit code: one if the run ended early, even if only its history could not be saved. -/
def exitCode (report : RunReport) : UInt32 :=
  let stops (event : RunEvent) : Bool :=
    match event with
    | .stopped _ => true
    | _ => false
  if report.events.any stops then 1 else 0

def unsaved (report : RunReport) : RunReport :=
  match report.saved with
  | some _ =>
    { report with events := report.events ++ [.stopped .historyNotSaved], saved := none }
  | none => report

end RunReport

/-- The session to start with, and the scenario to play. -/
def RunSources.start (sources : RunSources) : Except RunFault (Session × Scenario) := do
  let text ← match sources.scenario with
    | some text => .ok text
    | none => .error .missingScenario
  let scenario ← (Scenario.parse text).mapError .scenario
  let session ← (Session.create scenario.config).mapError .config
  match sources.savedHistory with
  | none => return (session, scenario)
  | some none => .error .historyNotLoaded
  | some (some saved) =>
    match session.load saved with
    | .ok session => return (session, scenario)
    | .error _ => .error .historyNotLoaded

/-- Runs a scenario: one line for each dataset with a result, then the newest values. -/
def RunSources.run (sources : RunSources) : RunReport :=
  match sources.start with
  | .error fault => .stopped fault
  | .ok (session, scenario) =>
    let limit := sources.limit.getD scenario.cycles.length
    let (session, reports) :=
      session.playAll scenario.expressions (scenario.cycles.take limit)
    ⟨reports.filterMap CycleReport.line? ++ [lastValuesLine session.history],
      RunEvent.ofReports reports, some session.save⟩

end InSitu
