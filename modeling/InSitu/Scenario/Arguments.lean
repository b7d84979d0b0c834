import InSitu.Fault.Cause
/-!
The arguments of the command line.

An option has a value, as the next argument or after an equals sign. After `--` every argument
is a path.
-/

namespace InSitu

/-- What a run is asked for. -/
structure Invocation where
  /-- The path of the scenario. -/
  scenario : String
  /-- The path to which the history is saved after the last cycle. -/
  saveTo : Option String
  /-- The path of a saved history to start from. -/
  loadFrom : Option String
  /-- The number of datasets to play. -/
  limit : Option Nat

/-- What the arguments ask for. -/
inductive Request where
  | run (invocation : Invocation)
  | help
  /-- The arguments make no sense. -/
  | refused

/-- An option with a value. -/
inductive RunOption where
  | saveCache
  | loadCache
  | cycles
  deriving DecidableEq

namespace RunOption

def all : List RunOption := [.saveCache, .loadCache, .cycles]

def name : RunOption → String
  | .saveCache => "--save-cache"
  | .loadCache => "--load-cache"
  | .cycles => "--cycles"

def ofName? (text : String) : Option RunOption := all.find? (·.name = text)

end RunOption

/-- The arguments that have been read. -/
structure ArgumentDraft where
  scenario : Option String := none
  saveTo : Option String := none
  loadFrom : Option String := none
  limit : Option Nat := none

/-- A number of cycles: digits, perhaps after a plus sign, that fit an unsigned 64-bit word. -/
def cycleLimit? (text : String) : Option Nat :=
  let digits := match text.toList with
    | '+' :: digits => digits
    | digits => digits
  if digits.isEmpty || !digits.all Char.isDigit then none
  else
    let value := digits.foldl (fun value digit => 10 * value + (digit.toNat - 48)) 0
    if value < UInt64.size then some value else none

/-- Whether an argument looks like an option; a lone dash does not. -/
def looksLikeOption (argument : String) : Bool :=
  match argument.toList with
  | '-' :: _ :: _ => true
  | _ => false

def cutAtEquals (argument : String) : String × Option String :=
  let characters := argument.toList
  let name := characters.takeWhile (· != '=')
  (String.ofList name, match characters.drop name.length with
    | [] => none
    | _ :: value => some (String.ofList value))

namespace ArgumentDraft

def path? (known : Option String) (path : String) : Option (Option String) :=
  if known.isSome || path.isEmpty then none else some (some path)

def enterScenario? (draft : ArgumentDraft) (path : String) : Option ArgumentDraft :=
  (path? draft.scenario path).map fun scenario => { draft with scenario }

/-- Enters the value of an option; each may be given once. -/
def enter? (draft : ArgumentDraft) (option : RunOption) (value : String) :
    Option ArgumentDraft :=
  match option with
  | .saveCache => (path? draft.saveTo value).map fun saveTo => { draft with saveTo }
  | .loadCache => (path? draft.loadFrom value).map fun loadFrom => { draft with loadFrom }
  | .cycles =>
    if draft.limit.isSome then none
    else (cycleLimit? value).map fun limit => { draft with limit := some limit }

/-- What the arguments ask for once all are read; there must be a scenario. -/
def finish (draft : ArgumentDraft) : Request :=
  match draft.scenario with
  | some scenario => .run ⟨scenario, draft.saveTo, draft.loadFrom, draft.limit⟩
  | none => .refused

def readPaths (draft : ArgumentDraft) (paths : List String) : Request :=
  match paths.foldlM enterScenario? draft with
  | some draft => draft.finish
  | none => .refused

def readAll (draft : ArgumentDraft) : List String → Request
  | [] => draft.finish
  | argument :: rest =>
    if argument = "--" then draft.readPaths rest
    else if argument = "--help" ∨ argument.startsWith "-h" then .help
    else if !looksLikeOption argument then
      match draft.enterScenario? argument with
      | some draft => draft.readAll rest
      | none => .refused
    else match cutAtEquals argument with
      | (name, some value) =>
        match (RunOption.ofName? name).bind fun option => draft.enter? option value with
        | some draft => draft.readAll rest
        | none => .refused
      | (name, none) =>
        match RunOption.ofName? name, rest with
        | some option, value :: rest =>
          if looksLikeOption value then .refused
          else match draft.enter? option value with
            | some draft => draft.readAll rest
            | none => .refused
        | _, _ => .refused

end ArgumentDraft

def helpLines : List String :=
  ["Evaluate Cadence expressions over a scenario's cycles",
    "",
    "Usage: cadence-run [OPTIONS] <SCENARIO>",
    "",
    "Arguments:",
    "  <SCENARIO>  Path to the scenario JSON",
    "",
    "Options:",
    "      --save-cache <SAVE_CACHE>  Write the history cache here after the last cycle",
    "      --load-cache <LOAD_CACHE>  Start from a previously saved history cache",
    "      --cycles <CYCLES>          Only run the first N cycles of the scenario",
    "  -h, --help                     Print help"]

def Request.ofArguments (arguments : List String) : Request :=
  ArgumentDraft.readAll {} arguments

end InSitu
