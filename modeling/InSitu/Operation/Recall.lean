import InSitu.History.Window
import InSitu.Operation.Inlet
/-!
Reading the history of an expression from within another one.
-/

namespace InSitu.Run

/-- The inlets of the families of ranges, first and last end by turns. -/
def rangeInlets : List String :=
  ["first_absolute_index", "last_absolute_index", "first_relative_index",
    "last_relative_index", "first_absolute_time", "last_absolute_time",
    "first_absolute_cycle", "last_absolute_cycle"]

/-- The name whose history is read: where the input was recalled from, or else its text. -/
def expressionName (inputs : Inputs) : Except Fault String :=
  match inputs.origin? "expr_name" with
  | some origin => .ok origin
  | none => do
    let value ← inputs.required "expr_name"
    match value.string? with
    | some name => return name
    | none => .error (.misuse inputs.node (.badExpressionName value.kind))

def recordedTimeline (inputs : Inputs) (environment : Environment) :
    Except Fault ValueTimeline := do
  let name ← expressionName inputs
  environment.history.lookup name

/-- The timeline of a known name, perhaps still without an entry. -/
def knownTimeline (inputs : Inputs) (environment : Environment) :
    Except Fault ValueTimeline := do
  let name ← expressionName inputs
  environment.history.declared name

/-- Two ends of a range, given together or not at all. -/
def paired {α : Type} (inputs : Inputs) (firstInlet lastInlet : String)
    (first last : Option α) : Except Fault (Option (α × α)) :=
  match first, last with
  | none, none => .ok none
  | some first, some last => .ok (some (first, last))
  | _, _ => .error (.misuse inputs.node (.unpairedBounds firstInlet lastInlet))

/-- An integer end of a range; it passes through a double. -/
def throughDouble (bound : Int64) : Int64 := Number.toInt64 (Number.ofInt64 bound)

def integerEnds (inputs : Inputs) (firstInlet lastInlet : String) :
    Except Fault (Option (Int64 × Int64)) := do
  let first ← inputs.int? firstInlet
  let last ← inputs.int? lastInlet
  paired inputs firstInlet lastInlet (first.map throughDouble) (last.map throughDouble)

/-- The selector of the one family of inlets that is used. -/
def rangeSelector (inputs : Inputs) : Except Fault RangeSelector := do
  let absolute ← integerEnds inputs "first_absolute_index" "last_absolute_index"
  let relative ← integerEnds inputs "first_relative_index" "last_relative_index"
  let firstTime ← inputs.number? "first_absolute_time"
  let lastTime ← inputs.number? "last_absolute_time"
  let time ← paired inputs "first_absolute_time" "last_absolute_time" firstTime lastTime
  let cycle ← integerEnds inputs "first_absolute_cycle" "last_absolute_cycle"
  let families : List RangeSelector :=
    (absolute.map fun ends => .absoluteIndex ends.1 ends.2).toList ++
    (relative.map fun ends => .relativeIndex ends.1 ends.2).toList ++
    (time.map fun ends => .absoluteTime ends.1 ends.2).toList ++
    (cycle.map fun ends => .absoluteCycle ends.1 ends.2).toList
  match families with
  | [selector] => return selector
  | [] => .error (.misuse inputs.node .noBounds)
  | _ => .error (.misuse inputs.node (.severalFamilies families.length))

def history (inputs : Inputs) (environment : Environment) : Except Fault Value := do
  let absolute ← inputs.int? "absolute_index"
  let relative ← inputs.int? "relative_index"
  let index ← match absolute, relative with
    | some index, none => .ok (EntryIndex.absolute index)
    | none, some index => .ok (EntryIndex.relative index)
    | some _, some _ => .error (.misuse inputs.node .twoIndexes)
    | none, none => .error (.misuse inputs.node .noIndex)
  let timeline ← recordedTimeline inputs environment
  let entry ← timeline.select inputs.node index
  return entry.value

/-- The values of a range of the history, the empty value if it misses the history. -/
def historyRange (inputs : Inputs) (environment : Environment) : Except Fault Value := do
  let selector ← rangeSelector inputs
  selector.check inputs.node
  let timeline ← knownTimeline inputs environment
  match ← timeline.range inputs.node selector none with
  | some window => return .array window.values
  | none => return .null

/-- The rate of change over a window before the newest entry. -/
def historyGradient (inputs : Inputs) (environment : Environment) : Except Fault Value := do
  let length ← inputs.number? "window_length"
  let unit ← match ← inputs.string? "window_length_unit" with
    | none => .ok DeltaUnit.index
    | some text =>
      match DeltaUnit.ofName? text with
      | some unit => .ok unit
      | none => .error (.misuse inputs.node (.unknownUnit text))
  let timeline ← knownTimeline inputs environment
  (timeline.gradient inputs.node (length.getD 1.0) unit).map .double

/-- The rates of change between the entries of a range. -/
def historyRangeGradient (inputs : Inputs) (environment : Environment) :
    Except Fault Value := do
  let selector ← rangeSelector inputs
  selector.check inputs.node
  let timeline ← knownTimeline inputs environment
  let gradients ← timeline.rangeGradient inputs.node selector
  return .array (.doubles gradients)

end InSitu.Run
