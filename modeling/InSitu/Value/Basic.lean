import InSitu.Axis.Spec
import InSitu.Table
import InSitu.Value.Kind
/-!
The values that flow between the nodes of an expression.
-/

namespace InSitu

/-- One of the three coordinates of space. -/
inductive Coordinate where
  | x
  | y
  | z
  deriving DecidableEq

def Coordinate.ofName? (text : String) : Option Coordinate :=
  if text = "x" then some .x
  else if text = "y" then some .y
  else if text = "z" then some .z
  else none

/-- A point or a direction in space. -/
structure Point (α : Type) where
  x : α
  y : α
  z : α

namespace Point

variable {α β γ : Type}

def get (point : Point α) : Coordinate → α
  | .x => point.x
  | .y => point.y
  | .z => point.z

def toList (point : Point α) : List α := [point.x, point.y, point.z]

def ofList? : List α → Option (Point α)
  | [x, y, z] => some ⟨x, y, z⟩
  | _ => none

def constant (value : α) : Point α := ⟨value, value, value⟩

def zipWith (combine : α → β → γ) (first : Point α) (second : Point β) : Point γ :=
  ⟨combine first.x second.x, combine first.y second.y, combine first.z second.z⟩

/-- The point that differs from a constant one in one coordinate. -/
def single (coordinate : Coordinate) (value rest : α) : Point α :=
  match coordinate with
  | .x => ⟨value, rest, rest⟩
  | .y => ⟨rest, value, rest⟩
  | .z => ⟨rest, rest, value⟩

end Point

/-- Numbers of one element type, held as doubles. -/
structure NumericArray where
  elementType : ElementType
  elements : List Float

/-- Counts or probabilities of uniform bins over a range. -/
structure Histogram (α : Type) where
  values : List α
  low : α
  high : α
  /-- Whether samples outside the range are counted in the end bins. -/
  clamps : Bool

def Histogram.axis {α : Type} (histogram : Histogram α) (name : String) : Axis α :=
  ⟨name, histogram.clamps, .uniform histogram.low histogram.high histogram.values.length⟩

/-- The result of a reduction binning; the first axis varies fastest. -/
structure Binning where
  values : List Float
  association : Association
  /-- Empty for reductions that count. -/
  reduced : String
  reduction : Reduction
  axes : List (Axis Float)

/-- A bin picked out of a binning. -/
structure Bin (α : Type) where
  /-- None when a search found no bin. -/
  index : Option Nat
  value : α
  low : α
  high : α
  center : α

/-- The element of a mesh that a statistic found. -/
structure Element where
  rank : Int64
  domain : Int64
  index : Int64
  association : Association

/-- A value and the place where it was found. -/
structure ValuePosition (α : Type) where
  value : α
  position : Point α
  element : Option Element

/-- A box along the coordinates. -/
structure Box where
  low : Point Float
  high : Point Float

/-- Fields sampled along a segment. -/
structure Lineout where
  emptyValue : Float
  coordinates : List (Point Float)
  columns : Table (List Float)

/-- The result of a node. -/
inductive Value where
  | bool (value : Bool)
  | int (value : Int64)
  | double (value : Float)
  | string (value : String)
  | vector (value : Point Float)
  | array (value : NumericArray)
  | field (name : String) (component : Option String)
  | topology (name : String)
  | histogram (value : Histogram Float)
  | binning (value : Binning)
  | bin (value : Bin Float)
  | axisList (axes : List (AxisSpec Float))
  | aabb (value : Box)
  | valuePosition (value : ValuePosition Float)
  | lineout (value : Lineout)
  /-- The empty value. -/
  | null

namespace NumericArray

def doubles (elements : List Float) : NumericArray := ⟨.float64, elements⟩

def integers (elements : List Int64) : NumericArray := ⟨.int64, elements.map Number.ofInt64⟩

/-- An element, as an integer if the array holds integers. -/
def element? (array : NumericArray) (index : Nat) : Option Value :=
  array.elements[index]?.map fun element =>
    if array.elementType.isInteger then .int (Number.toInt64 element) else .double element

end NumericArray

namespace Value

def kind : Value → Kind
  | .bool _ => .bool
  | .int _ => .int
  | .double _ => .double
  | .string _ => .string
  | .vector _ => .vector
  | .array _ => .array
  | .field _ _ => .field
  | .topology _ => .topology
  | .histogram _ => .histogram
  | .binning _ => .binning
  | .bin _ => .bin
  | .axisList _ => .axisList
  | .aabb _ => .aabb
  | .valuePosition _ => .valuePosition
  | .lineout _ => .lineout
  | .null => .null

def isNull : Value → Bool
  | .null => true
  | _ => false

def bool? : Value → Option Bool
  | .bool value => some value
  | _ => none

def int? : Value → Option Int64
  | .int value => some value
  | _ => none

/-- An integer or a double, as a double. -/
def double? : Value → Option Float
  | .int value => some (Number.ofInt64 value)
  | .double value => some value
  | _ => none

/-- The number by which a value is compared; truth values count as zero and one. -/
def comparable? : Value → Option Float
  | .bool value => some (if value then 1.0 else 0.0)
  | value => value.double?

/-- The number that a value adds to a window of its history; located values add theirs. -/
def scalar? : Value → Option Float
  | .valuePosition found => some found.value
  | .bin picked => some picked.value
  | value => value.double?

def string? : Value → Option String
  | .string value => some value
  | _ => none

def vector? : Value → Option (Point Float)
  | .vector value => some value
  | _ => none

def array? : Value → Option NumericArray
  | .array value => some value
  | _ => none

end Value

end InSitu
