import InSitu.Scenario.Arguments
import InSitu.Scenario.Report
/-!
The command line: runs a scenario from a file.
-/

namespace InSitu.Main

/-- The text of a file, if it can be read. -/
def readText? (path : String) : IO (Option String) := do
  try
    return some (← IO.FS.readFile path)
  catch _ =>
    return none

/-- The directory of a path; empty if the path has none. -/
def directoryOf (path : String) : String :=
  String.ofList ((path.toList.reverse.dropWhile (· != '/')).drop 1).reverse

/-- Writes a file and the directories above it; tells whether that worked. -/
def writeText (path text : String) : IO Bool := do
  try
    let directory := directoryOf path
    if !directory.isEmpty then IO.FS.createDirAll directory
    IO.FS.writeFile path text
    return true
  catch _ =>
    return false

/-- Saves the history of a run where it is asked for. -/
def saveHistory (invocation : Invocation) (report : RunReport) : IO RunReport := do
  match invocation.saveTo, report.saved with
  | some path, some text =>
    if ← writeText path text then return report else return report.unsaved
  | _, _ => return report

/-- Runs a scenario from files and prints what it reports. -/
def perform (invocation : Invocation) : IO UInt32 := do
  let scenario ← readText? invocation.scenario
  let savedHistory ← invocation.loadFrom.mapM fun path => readText? path
  let sources : RunSources := ⟨scenario, savedHistory, invocation.limit⟩
  let report ← saveHistory invocation sources.run
  for line in report.lines do
    IO.println line
  for event in report.events do
    IO.eprintln (event.severity.name ++ " " ++ event.message)
  return report.exitCode

end InSitu.Main

/-- Reads the arguments and runs the scenario they name. -/
def main (arguments : List String) : IO UInt32 := do
  match InSitu.Request.ofArguments arguments with
  | .run invocation => InSitu.Main.perform invocation
  | .help =>
    InSitu.helpLines.forM IO.println
    return 0
  | .refused =>
    InSitu.helpLines.forM IO.eprintln
    return 2
