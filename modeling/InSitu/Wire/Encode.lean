import InSitu.Value.Basic
import InSitu.Wire.Basic
/-!
The stored form of each kind of value.
-/

namespace InSitu.Wire

/-- A double; those that are not finite are spelled out. -/
def numberJson (x : Float) : Json :=
  if x.isNaN then .string "nan"
  else if x.isInf then .string (if 0 < x then "inf" else "-inf")
  else .double x

/-- The elements of an array, as integers if the array holds integers. -/
def arrayJson (array : NumericArray) : Json :=
  .array <| array.elements.map fun element =>
    if array.elementType.isInteger then .integer (Number.toInt64 element).toInt
    else numberJson element

def pointJson (point : Point Float) : Json := .array (point.toList.map numberJson)

def axesJson (axes : List (AxisSpec Float)) : Json :=
  .array (axes.map fun spec => spec.toLiteral.toSortedJson)

def double (x : Float) : Wire := plain .double (numberJson x)

def int (i : Int64) : Wire := plain .int (.integer i.toInt)

def count (n : Nat) : Wire := int (Int64.ofNat n)

def string (text : String) : Wire := plain .string (.string text)

def bool (value : Bool) : Wire := plain .bool (.bool value)

def doubles (elements : List Float) : Wire := plain .array (arrayJson (.doubles elements))

def vector (point : Point Float) : Wire := plain .vector (pointJson point)

def axisList (axes : List (AxisSpec Float)) : Wire := plain .axisList (axesJson axes)

/-- The attributes that say where a value was found. -/
def elementAttributes (element : Element) : List (String × Wire) :=
  [("rank", int element.rank), ("domain_index", int element.domain),
    ("index", int element.index), ("assoc", string element.association.name)]

def ofValue : Value → Wire
  | .bool value => bool value
  | .int value => int value
  | .double value => double value
  | .string value => string value
  | .vector value => vector value
  | .array value => plain .array (arrayJson value)
  | .field name component =>
    composite .field (.string name)
      (component.map fun component => ("component", string component)).toList
  | .topology name => plain .topology (.string name)
  | .histogram value =>
    composite .histogram .null
      [("value", doubles value.values), ("min_val", double value.low),
        ("max_val", double value.high), ("num_bins", count value.values.length),
        ("clamp", bool value.clamps)]
  | .binning value =>
    composite .binning .null
      [("value", doubles value.values), ("association", string value.association.name),
        ("reduction_var", string value.reduced), ("reduction_op", string value.reduction.name),
        ("bin_axes", axisList (value.axes.map Axis.toSpec))]
  | .bin value =>
    composite .bin .null
      ([("value", double value.value), ("min", double value.low), ("max", double value.high),
        ("center", double value.center)] ++
        (value.index.map fun index => ("index", count index)).toList)
  | .axisList axes => axisList axes
  | .aabb value =>
    composite .aabb .null [("min", vector value.low), ("max", vector value.high)]
  | .valuePosition value =>
    composite .valuePosition .null
      ([("value", double value.value), ("position", vector value.position)] ++
        (value.element.map elementAttributes).getD [])
  | .lineout value =>
    composite .lineout (.array (value.coordinates.map pointJson))
      (Entries.insertAll
        [("empty_value", double value.emptyValue), ("samples", count value.coordinates.length)]
        (value.columns.entries.map fun entry => (entry.1, doubles entry.2)))
  | .null => plain .null .null

end InSitu.Wire
