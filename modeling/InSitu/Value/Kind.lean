/-!
The names of kinds, element types, associations and reductions.
-/

namespace InSitu

/-- The kind of a value. -/
inductive Kind where
  | bool
  | int
  | double
  | string
  | vector
  | array
  | field
  | topology
  | histogram
  | binning
  | bin
  | axisList
  | aabb
  | valuePosition
  | lineout
  | null
  deriving DecidableEq

namespace Kind

def all : List Kind :=
  [.bool, .int, .double, .string, .vector, .array, .field, .topology, .histogram, .binning,
    .bin, .axisList, .aabb, .valuePosition, .lineout, .null]

def name : Kind → String
  | .bool => "bool"
  | .int => "int"
  | .double => "double"
  | .string => "string"
  | .vector => "vector"
  | .array => "array"
  | .field => "field"
  | .topology => "topology"
  | .histogram => "histogram"
  | .binning => "binning"
  | .bin => "bin"
  | .axisList => "axis_list"
  | .aabb => "aabb"
  | .valuePosition => "value_position"
  | .lineout => "lineout"
  | .null => "null"

def ofName? (text : String) : Option Kind := all.find? (·.name = text)

end Kind

/-- The type of the elements of an array. -/
inductive ElementType where
  | int32
  | int64
  | float32
  | float64
  deriving DecidableEq

namespace ElementType

def isInteger : ElementType → Bool
  | .int32 | .int64 => true
  | .float32 | .float64 => false

def name : ElementType → String
  | .int32 => "int32"
  | .int64 => "int64"
  | .float32 => "float32"
  | .float64 => "float64"

/-- The name of an element type at the start of a word. -/
def title : ElementType → String
  | .int32 => "Int32"
  | .int64 => "Int64"
  | .float32 => "Float32"
  | .float64 => "Float64"

end ElementType

/-- What the samples of a mesh belong to. -/
inductive Association where
  | point
  | cell
  deriving DecidableEq

namespace Association

def name : Association → String
  | .point => "point"
  | .cell => "cell"

/-- The association with a name; each has a second name. -/
def ofName? (text : String) : Option Association :=
  if text = "point" ∨ text = "vertex" then some .point
  else if text = "cell" ∨ text = "element" then some .cell
  else none

end Association

/-- How the samples of a bin become one number. -/
inductive Reduction where
  | sum
  | min
  | max
  | avg
  | count
  | pdf
  | std
  | var
  | rms
  deriving DecidableEq

namespace Reduction

def all : List Reduction := [.sum, .min, .max, .avg, .count, .pdf, .std, .var, .rms]

def name : Reduction → String
  | .sum => "sum"
  | .min => "min"
  | .max => "max"
  | .avg => "avg"
  | .count => "count"
  | .pdf => "pdf"
  | .std => "std"
  | .var => "var"
  | .rms => "rms"

def ofName? (text : String) : Option Reduction := all.find? (·.name = text)

/-- Whether the reduction counts samples and so needs no variable. -/
def isCount : Reduction → Bool
  | .count | .pdf => true
  | _ => false

end Reduction

end InSitu
