import InSitu.Fault.Basic
import InSitu.Value.Basic
/-!
What an evaluation may ask about the dataset of the current cycle.
-/

namespace InSitu

/-- A statistic of a field over the whole dataset. -/
inductive FieldStatistic where
  | min
  | max
  | sum
  | avg
  | nanCount
  | infCount
  deriving DecidableEq

namespace FieldStatistic

def all : List FieldStatistic := [.min, .max, .sum, .avg, .nanCount, .infCount]

def name : FieldStatistic → String
  | .min => "min"
  | .max => "max"
  | .sum => "sum"
  | .avg => "avg"
  | .nanCount => "nan_count"
  | .infCount => "inf_count"

/-- Whether the statistic is the value of one element. -/
def isLocated : FieldStatistic → Bool
  | .min | .max => true
  | _ => false

end FieldStatistic

/-- The value of a statistic and where it was found. -/
structure FieldValue where
  value : Float
  position : Option (Point Float)
  element : Option Element

/-- A checked request for a reduction binning. -/
structure BinningRequest where
  /-- A field, a coordinate, or empty for reductions that count. -/
  reduced : String
  component : Option String
  reduction : Reduction
  axes : List (Axis Float)
  emptyValue : Float

/-- The bins that answer a binning request; the first axis varies fastest. -/
structure BinnedValues where
  values : List Float
  association : Association

/-- A request for samples along a segment. -/
structure LineoutRequest where
  start : Point Float
  stop : Point Float
  samples : Nat
  fields : List String
  emptyValue : Float

/-- The queries that a dataset answers. -/
structure Dataset where
  cycle : Cycle
  time : Option Float
  fieldNames : List String
  /-- The components of a field; none for scalar fields. -/
  components : String → List String
  topologyNames : List String
  /-- The extent of a topology, or of the whole dataset. -/
  bounds : Option String → Except Fault Box
  statistic : FieldStatistic → String → Option String → Except Fault FieldValue
  /-- The counts of a scalar field in uniform bins. -/
  histogram : String → Float → Float → Nat → Except Fault (List Float)
  binning : BinningRequest → Except Fault BinnedValues
  lineout : LineoutRequest → Except Fault Lineout :=
    fun _ => .error (.unsupported "lineout" .lineout)

namespace Dataset

def hasField (dataset : Dataset) (field : String) : Bool := dataset.fieldNames.contains field

/-- Whether a field is published and has no components. -/
def isScalar (dataset : Dataset) (field : String) : Bool :=
  dataset.hasField field && (dataset.components field).isEmpty

/-- The number of components of a field, one for scalar fields. -/
def componentCount (dataset : Dataset) (field : String) : Nat :=
  if dataset.hasField field then Nat.max (dataset.components field).length 1 else 0

def hasComponent (dataset : Dataset) (field component : String) : Bool :=
  (dataset.components field).contains component

def hasTopology (dataset : Dataset) (topology : String) : Bool :=
  dataset.topologyNames.contains topology

/-- Whether a name means a coordinate, because no field has it. -/
def coordinate? (dataset : Dataset) (name : String) : Option Coordinate :=
  if dataset.hasField name then none else Coordinate.ofName? name

end Dataset

end InSitu
