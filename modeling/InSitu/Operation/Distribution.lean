import InSitu.Binning.Request
import InSitu.Operation.Query
import InSitu.Value.Histogram
/-!
Histograms, binnings and what is read from them.
-/

namespace InSitu

/-- What is made of a histogram. -/
inductive HistogramTransform where
  | pdf
  | cdf
  | entropy
  deriving DecidableEq

namespace HistogramTransform

def name : HistogramTransform → String
  | .pdf => "pdf"
  | .cdf => "cdf"
  | .entropy => "entropy"

def apply : HistogramTransform → Histogram Float → Value
  | .pdf, histogram => .histogram histogram.pdf
  | .cdf, histogram => .histogram histogram.cdf
  | .entropy, histogram => .double histogram.entropy

end HistogramTransform

namespace Run

/-! ## Histograms -/

def histogramOf? : Value → Option (Histogram Float)
  | .histogram value => some value
  | _ => none

/-- A number of bins, which must be positive. -/
def positiveBins (inputs : Inputs) : Except Fault (Option Nat) := do
  match ← inputs.int? "num_bins" with
  | none => return none
  | some count =>
    if count < 1 then .error (.badArgument inputs.node (.tooFewBins count))
    return some count.toInt.toNat

/-- A bound that is given, or else the extreme value of a field. -/
def boundOf (mesh : Dataset) (statistic : FieldStatistic) (field : String) :
    Option Float → Except Fault Float
  | some bound => .ok bound
  | none => (mesh.statistic statistic field none).map (·.value)

/-- The histogram of a scalar field; open bounds are those of the field. -/
def histogram (inputs : Inputs) (environment : Environment) : Except Fault Value := do
  let mesh := environment.mesh
  let node := inputs.node
  let (field, component) ← inputs.field "arg1"
  if let some component := component then
    .error (.component node (.inHistogram field component))
  let count := (← positiveBins inputs).getD environment.config.defaultBins
  let low ← inputs.number? "min_val"
  let high ← inputs.number? "max_val"
  if let (some low, some high) := (low, high) then
    if ¬ low < high then .error (.badRange node low high)
  if !mesh.hasField field then .error (.unknownField node field mesh.fieldNames)
  let low ← boundOf mesh .min field low
  let high ← boundOf mesh .max field high
  if ¬ low < high then .error (.badRange node low high)
  let values ← mesh.histogram field low high count
  if values.length ≠ count then .error (.dataset (.histogramSize field values.length count))
  return .histogram ⟨values, low, high, true⟩

def transform (result : HistogramTransform) (inputs : Inputs) : Except Fault Value :=
  (inputs.read "hist" .histogram histogramOf?).map result.apply

def interpolation (node text : String) : Except Fault Interpolation :=
  match Interpolation.ofName? text with
  | some rule => .ok rule
  | none => .error (.misuse node (.unknownInterpolation text Interpolation.names))

def quantileAt (node : String) (histogram : Histogram Float) (q : Float)
    (rule : Interpolation) : Except Fault Float :=
  match histogram.quantile q rule with
  | .ok value => .ok value
  | .error .outside => .error (.badArgument node (.probability q))
  | .error .noBins => .error (.badArgument node .emptyHistogram)

def quantile (inputs : Inputs) : Except Fault Value := do
  let histogram ← inputs.read "cdf" .histogram histogramOf?
  let q ← inputs.number "q"
  let rule ← match ← inputs.string? "interpolation" with
    | some text => interpolation inputs.node text
    | none => .ok .linear
  (quantileAt inputs.node histogram q rule).map .double

/-! ## Binnings -/

def axesOf? : Value → Option (List (AxisSpec Float))
  | .axisList axes => some axes
  | _ => none

def reduction (node text : String) : Except Fault Reduction :=
  match Reduction.ofName? text with
  | some reduction => .ok reduction
  | none => .error (.misuse node (.unknownReduction text (Reduction.all.map Reduction.name)))

/-- The one component that is chosen, on the field or as an argument. -/
def chosenComponent (node : String) :
    Option String → Option String → Except Fault (Option String)
  | some onField, some asArgument =>
    if onField = asArgument then .ok (some onField)
    else .error (.misuse node (.twoComponents onField asArgument))
  | some onField, none => .ok (some onField)
  | none, asArgument => .ok asArgument

def binning (inputs : Inputs) (environment : Environment) : Except Fault Value := do
  let reduction ← reduction inputs.node (← inputs.string "reduction_op")
  let chosen ← inputs.field? "reduction_var"
  let (reduced, onField) := chosen.getD ("", none)
  let asArgument ← inputs.string? "component"
  let component ← chosenComponent inputs.node onField (filled asArgument)
  let axes ← inputs.read "bin_axes" .axisList axesOf?
  let emptyValue ← inputs.number? "empty_bin_val"
  let query : Binning.Query := ⟨reduced, reduction, axes, emptyValue.getD 0.0, component⟩
  (Binning.run inputs.node environment.mesh query environment.config.defaultBins).map .binning

def elementsOf? : Value → Option (List Float)
  | .array array => some array.elements
  | _ => none

def axis (inputs : Inputs) (environment : Environment) : Except Fault Value := do
  let (name, _) ← inputs.field "name"
  let count ← positiveBins inputs
  let edges ← inputs.read? "bins" .array elementsOf?
  let low ← inputs.number? "min_val"
  let high ← inputs.number? "max_val"
  let clamps ← inputs.bool? "clamp"
  let literal : AxisLiteral Float := ⟨name, low, high, count, edges, clamps.getD false⟩
  let spec ← literal.toSpec.mapError (Fault.ofAxis inputs.node)
  Binning.checkAxisName inputs.node environment.mesh spec.name
  return .axisList [spec]

def argumentName (index : Nat) : String := "arg" ++ toString index

def axisList (arity : Nat) (inputs : Inputs) : Except Fault Value := do
  let lists ← (List.range arity).mapM fun index =>
    inputs.read (argumentName index) .axisList axesOf?
  return .axisList lists.flatten

/-- The values and axes of a binning, or of a histogram, which has one axis. -/
def binsOf? : Value → Option (List Float × List (Axis Float))
  | .binning value => some (value.values, value.axes)
  | .histogram value => some (value.values, [value.axis "value"])
  | _ => none

def bins (inputs : Inputs) : Except Fault (List Float × List (Axis Float)) :=
  inputs.read "binning" .binned binsOf?

def binByIndex (inputs : Inputs) : Except Fault Value := do
  let (values, axes) ← bins inputs
  let index ← inputs.int "index"
  (Binning.binByIndex inputs.node values axes index).map .bin

def binByValue (inputs : Inputs) : Except Fault Value := do
  let (values, axes) ← bins inputs
  let value ← inputs.number "value"
  (Binning.binByValue inputs.node values axes value).map fun bin => .double bin.value

/-- The nearest bin above a threshold on one side of a point. -/
def pointAndAxis (inputs : Inputs) : Except Fault Value := do
  let (values, axes) ← bins inputs
  let threshold ← inputs.number "threshold"
  let point ← inputs.number "point"
  let direction ← inputs.int? "direction"
  let missValue ← inputs.number? "miss_value"
  (Binning.pointAndAxis inputs.node values axes threshold point (direction.getD 1)
    (missValue.getD Number.notANumber)).map .bin

/-- The largest bin, located relative to a point along the named axis or the first one. -/
def maxFromPoint (inputs : Inputs) : Except Fault Value := do
  let (values, axes) ← bins inputs
  let named ← inputs.string? "axis"
  let axisName := named.getD ((axes.head?.map (·.name)).getD "")
  let point ← inputs.number "point"
  (Binning.maxFromPoint inputs.node values axes axisName point).map .valuePosition

end Run

end InSitu
