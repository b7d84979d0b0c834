import InSitu.Operation.Inlet
import InSitu.Sample.Statistics
/-!
Functions on numbers, vectors and arrays.
-/

namespace InSitu

/-- A function on numbers. -/
inductive NumberFunction where
  | min
  | max
  | abs
  | exp
  | log
  | pow
  deriving DecidableEq

/-- A statistic of the elements of an array. -/
inductive ArrayStatistic where
  | min
  | max
  | avg
  | sum
  deriving DecidableEq

namespace NumberFunction

def name : NumberFunction → String
  | .min => "min"
  | .max => "max"
  | .abs => "abs"
  | .exp => "exp"
  | .log => "log"
  | .pow => "pow"

def arity : NumberFunction → Nat
  | .min | .max | .pow => 2
  | .abs | .exp | .log => 1

def inlets (function : NumberFunction) : List Inlet :=
  (["arg1", "arg2"].take function.arity).map Inlet.needed

/-- Applies one of two functions to two arguments; integers stay integers. -/
def pick (inputs : Inputs) (onIntegers : Int64 → Int64 → Int64)
    (onDoubles : Float → Float → Float) : Except Fault Value := do
  match ← inputs.required "arg1", ← inputs.required "arg2" with
  | .int first, .int second => return .int (onIntegers first second)
  | _, _ =>
    let first ← inputs.number "arg1"
    let second ← inputs.number "arg2"
    return .double (onDoubles first second)

/-- The distance of an integer to zero, if a 64-bit word holds it. -/
def absolute? (value : Int64) : Option Int64 :=
  if value = Int64.minValue then none else some (if value < 0 then -value else value)

def run (function : NumberFunction) (inputs : Inputs) : Except Fault Value :=
  match function with
  | .min => pick inputs (fun first second => if second < first then second else first)
      Number.least
  | .max => pick inputs (fun first second => if first < second then second else first)
      Number.greatest
  | .abs => do
    match ← inputs.required "arg1" with
    | .int value =>
      match absolute? value with
      | some result => return .int result
      | none => .error (.badArgument inputs.node (.absoluteOverflow value))
    | _ => (inputs.number "arg1").map fun value => .double value.abs
  | .exp => (inputs.number "arg1").map fun value => .double value.exp
  | .log => (inputs.number "arg1").map fun value => .double value.log
  | .pow => do
    let base ← inputs.number "arg1"
    let exponent ← inputs.number "arg2"
    return .double (base.pow exponent)

end NumberFunction

namespace ArrayStatistic

def name : ArrayStatistic → String
  | .min => "array_min"
  | .max => "array_max"
  | .avg => "array_avg"
  | .sum => "array_sum"

def apply : ArrayStatistic → List Float → Float
  | .min => Sample.minimum
  | .max => Sample.maximum
  | .avg => Sample.mean
  | .sum => Sample.sum

/-- The statistic of an array, always a double. -/
def run (statistic : ArrayStatistic) (inputs : Inputs) : Except Fault Value :=
  (inputs.array "arg1").map fun array => .double (statistic.apply array.elements)

end ArrayStatistic

namespace Run

def vector (inputs : Inputs) : Except Fault Value := do
  let x ← inputs.number "arg1"
  let y ← inputs.number "arg2"
  let z ← inputs.number "arg3"
  return .vector ⟨x, y, z⟩

def magnitude (inputs : Inputs) : Except Fault Value :=
  (inputs.vector "arg1").map fun v => .double (v.x * v.x + v.y * v.y + v.z * v.z).sqrt

def elementAt (inputs : Inputs) : Except Fault Value := do
  let array ← inputs.array "array"
  let index ← inputs.int "index"
  let outside := Fault.indexOutOfRange inputs.node index array.elements.length
  if index < 0 then .error outside
  match array.element? index.toInt.toNat with
  | some element => return element
  | none => .error outside

/-- Whether a double is the one sought; what is no number is found by itself. -/
def isSought (sought element : Float) : Bool :=
  if sought.isNaN then element.isNaN else element == sought

/-- An array of doubles with one value replaced by another. -/
def replaceElements (inputs : Inputs) : Except Fault Value := do
  let array ← inputs.array "arg1"
  if array.elementType ≠ .float64 then
    .error (.unsupported inputs.node (.replaceIn array.elementType))
  let sought ← inputs.number "find"
  let replacement ← inputs.number "replace"
  return .array <| .doubles <| array.elements.map fun element =>
    if isSought sought element then replacement else element

end Run

end InSitu
