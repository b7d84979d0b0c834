import InSitu.Binning.Accumulate
import InSitu.Binning.Lookup
import InSitu.Mesh.Dataset
/-!
Checking a binning request against a dataset, and the lookups with their faults.
-/

namespace InSitu.Binning

/-! ## Requests -/

/-- The variable of a reduction must be there unless the reduction counts, and a component must
be chosen exactly if the variable has components. -/
def checkVariable (node : String) (mesh : Dataset) (reduced : String) (reduction : Reduction)
    (component : Option String) : Except Fault Unit :=
  if reduced.isEmpty then
    if reduction.isCount then .ok () else .error (.misuse node (.missingVariable reduction))
  else if (mesh.coordinate? reduced).isSome then .ok ()
  else if !mesh.hasField reduced then
    .error (.unknownField node reduced mesh.fieldNames)
  else match mesh.isScalar reduced, component with
    | false, none =>
      .error (.component node (.neededByVariable reduced (mesh.components reduced)))
    | true, some component => .error (.component node (.scalarVariable reduced component))
    | false, some component =>
      if mesh.hasComponent reduced component then .ok ()
      else .error
        (.component node (.unknownInVariable reduced component (mesh.components reduced)))
    | true, none => .ok ()

/-- An axis must be named after a coordinate or a scalar field. -/
def checkAxisName (node : String) (mesh : Dataset) (name : String) : Except Fault Unit :=
  if (mesh.coordinate? name).isSome then .ok ()
  else if !mesh.hasField name then .error (.unknownField node name mesh.fieldNames)
  else if !mesh.isScalar name then .error (.component node (.vectorAxis name))
  else .ok ()

def dataRange (mesh : Dataset) (name : String) : Except Fault (Float × Float) :=
  match mesh.coordinate? name with
  | some coordinate => do
    let box ← mesh.bounds none
    return (box.low.get coordinate, box.high.get coordinate)
  | none => do
    let low ← mesh.statistic .min name none
    let high ← mesh.statistic .max name none
    return (low.value, high.value)

/-- Checks an axis and closes its open bounds with the range of the data. -/
def resolveAxis (node : String) (mesh : Dataset) (defaultBins : Nat) (spec : AxisSpec Float) :
    Except Fault (Axis Float) := do
  spec.check.mapError (Fault.ofAxis node)
  checkAxisName node mesh spec.name
  let range ← if spec.needsRange then (dataRange mesh spec.name).map some else .ok none
  (spec.resolve defaultBins range).mapError (Fault.ofAxis node)

/-- Resolves all axes; there must be one at least. -/
def resolveAxes (node : String) (mesh : Dataset) (specs : List (AxisSpec Float))
    (defaultBins : Nat) : Except Fault (List (Axis Float)) :=
  if specs.isEmpty then .error (.misuse node .noAxes)
  else specs.mapM (resolveAxis node mesh defaultBins)

/-- What a binning is asked for. -/
structure Query where
  reduced : String
  reduction : Reduction
  axes : List (AxisSpec Float)
  emptyValue : Float
  component : Option String

/-- Checks a query, resolves its axes and has the dataset answer it. The answer must have a
value for every bin. -/
def run (node : String) (mesh : Dataset) (query : Query) (defaultBins : Nat) :
    Except Fault Binning := do
  checkVariable node mesh query.reduced query.reduction query.component
  let axes ← resolveAxes node mesh query.axes defaultBins
  let expected := totalBins axes
  let answer ← mesh.binning
    ⟨query.reduced, query.component, query.reduction, axes, query.emptyValue⟩
  if answer.values.length ≠ expected then
    .error (.dataset (.binningSize answer.values.length expected))
  return ⟨answer.values, answer.association, query.reduced, query.reduction, axes⟩

/-! ## Lookups -/

def onlyAxis {α : Type} (node : String) : List (Axis α) → Except Fault (Axis α)
  | [axis] => .ok axis
  | axes => .error (.unsupported node (.severalAxes axes.length))

def binByIndex {α : Type} [Scalar α] (node : String) (values : List α) (axes : List (Axis α))
    (index : Int64) : Except Fault (Bin α) := do
  let axis ← onlyAxis node axes
  let outside := Fault.indexOutOfRange node index axis.binCount
  if index < 0 then .error outside
  match bin? values axis index.toInt.toNat with
  | some found => return found
  | none => .error outside

/-- The fault of a node whose value has no bin. -/
def lookupFault (node : String) (size : Nat) : LookupFault Float → Fault
  | .outside value range =>
    let ends := range.getD (Number.notANumber, Number.notANumber)
    .badArgument node (.outsideAxis value ends.1 ends.2)
  | .noValue index => .indexOutOfRange node (Int64.ofNat index) size

def binByValue (node : String) (values : List Float) (axes : List (Axis Float)) (value : Float) :
    Except Fault (Bin Float) := do
  let axis ← onlyAxis node axes
  (binHolding values axis value).mapError (lookupFault node values.length)

/-- The nearest bin above a threshold in a direction from a point; without one every part of the
result is the miss value. -/
def pointAndAxis (node : String) (values : List Float) (axes : List (Axis Float))
    (threshold point : Float) (direction : Int64) (missValue : Float) :
    Except Fault (Bin Float) := do
  let axis ← onlyAxis node axes
  match Direction.ofInt64? direction with
  | none => .error (.badArgument node (.direction direction))
  | some towards =>
    let found := (nearestAbove? values axis threshold point towards).bind (bin? values axis)
    return found.getD (missedBin missValue)

/-- The largest value, with the offset of its bin from a point along a coordinate. -/
def maxFromPoint (node : String) (values : List Float) (axes : List (Axis Float))
    (axisName : String) (point : Float) : Except Fault (ValuePosition Float) := do
  let axis ← onlyAxis node axes
  match largestFrom? values axis point with
  | none => .error (.badArgument node .emptyBinning)
  | some (value, offset) =>
    let coordinate := (Coordinate.ofName? axisName).getD .x
    return ⟨value, Point.single coordinate offset 0.0, none⟩

end InSitu.Binning
