import InSitu.Fault.Basic
import InSitu.Value.Basic
/-!
Operators on two values, and `not`, which reads only the right one.

Integers stay integers and never wrap; with a double on one side both are doubles. Comparisons
are between doubles.
-/

namespace InSitu

/-- An operator on numbers. -/
inductive MathOperator where
  | add
  | sub
  | mul
  | div
  | mod
  deriving DecidableEq

/-- A comparison. -/
inductive Comparison where
  | less
  | lessOrEqual
  | greater
  | greaterOrEqual
  | equal
  | different
  deriving DecidableEq

/-- An operator of an expression. -/
inductive Operator where
  | math (operator : MathOperator)
  | both
  | either
  | negation
  | comparison (comparison : Comparison)
  deriving DecidableEq

def MathOperator.symbol : MathOperator → String
  | .add => "+"
  | .sub => "-"
  | .mul => "*"
  | .div => "/"
  | .mod => "%"

def Comparison.symbol : Comparison → String
  | .less => "<"
  | .lessOrEqual => "<="
  | .greater => ">"
  | .greaterOrEqual => ">="
  | .equal => "=="
  | .different => "!="

/-- Whether a comparison holds between two doubles. -/
def Comparison.holds : Comparison → Float → Float → Bool
  | .less, left, right => left < right
  | .lessOrEqual, left, right => left ≤ right
  | .greater, left, right => right < left
  | .greaterOrEqual, left, right => right ≤ left
  | .equal, left, right => left == right
  | .different, left, right => !(left == right)

namespace Operator

def all : List Operator :=
  [.math .add, .math .sub, .math .mul, .math .div, .math .mod, .both, .either, .negation,
    .comparison .less, .comparison .lessOrEqual, .comparison .greater,
    .comparison .greaterOrEqual, .comparison .equal, .comparison .different]

def symbol : Operator → String
  | .math operator => operator.symbol
  | .both => "and"
  | .either => "or"
  | .negation => "not"
  | .comparison relation => relation.symbol

def parse (node text : String) : Except Fault Operator :=
  match all.find? (·.symbol = text) with
  | some operator => .ok operator
  | none => .error (.misuse node (.unknownOperator text (all.map symbol)))

end Operator

namespace MathOperator

/-- The result on integers, if 64-bit words hold it. Division cuts toward zero, and a remainder
is taken only where the quotient fits as well. -/
def onIntegers? (operator : MathOperator) (left right : Int64) : Option Int64 :=
  match operator with
  | .add => Number.int64? (left.toInt + right.toInt)
  | .sub => Number.int64? (left.toInt - right.toInt)
  | .mul => Number.int64? (left.toInt * right.toInt)
  | .div => Number.int64? (left.toInt.tdiv right.toInt)
  | .mod => (Number.int64? (left.toInt.tdiv right.toInt)).bind fun _ =>
    Number.int64? (left.toInt.tmod right.toInt)

def onIntegers (operator : MathOperator) (node : String) (left right : Int64) :
    Except Fault Int64 :=
  if (operator = .div ∨ operator = .mod) ∧ right = 0 then
    .error (.badArgument node (.divisionByZero operator.symbol))
  else match operator.onIntegers? left right with
    | some result => .ok result
    | none => .error (.badArgument node (.overflow left operator.symbol right))

/-- The result on doubles, which have no remainder. -/
def onDoubles (operator : MathOperator) (node : String) (left right : Float) :
    Except Fault Float :=
  match operator with
  | .add => .ok (left + right)
  | .sub => .ok (left - right)
  | .mul => .ok (left * right)
  | .div => .ok (left / right)
  | .mod => .error (.misuse node .fractionalRemainder)

/-- The result on vectors, which can be added and subtracted. -/
def onVectors (operator : MathOperator) (node : String) (left right : Point Float) :
    Except Fault (Point Float) :=
  match operator with
  | .add => .ok (left.zipWith (fun first second => first + 1.0 * second) right)
  | .sub => .ok (left.zipWith (fun first second => first + -1.0 * second) right)
  | _ => .error (.misuse node (.vectorOperator operator.symbol))

def operand (node inlet : String) (value : Value) : Except Fault Float :=
  match value.double? with
  | some number => .ok number
  | none => .error (.typeMismatch node inlet .numberOrVector value.kind)

def apply (operator : MathOperator) (node : String) (left right : Value) :
    Except Fault Value :=
  match left, right with
  | .vector left, .vector right => (operator.onVectors node left right).map .vector
  | .vector _, _ | _, .vector _ =>
    .error (.misuse node (.mixedOperands operator.symbol left.kind right.kind))
  | .int left, .int right => (operator.onIntegers node left right).map .int
  | _, _ => do
    let left ← operand node "lhs" left
    let right ← operand node "rhs" right
    let result ← operator.onDoubles node left right
    return .double result

end MathOperator

namespace Operator

def truth (node inlet : String) (value : Value) : Except Fault Bool :=
  match value.bool? with
  | some truth => .ok truth
  | none => .error (.typeMismatch node inlet .bool value.kind)

def comparable (node inlet : String) (value : Value) : Except Fault Float :=
  match value.comparable? with
  | some number => .ok number
  | none => .error (.typeMismatch node inlet .comparable value.kind)

/-- Applies an operator; only `not` has no left operand. -/
def apply (operator : Operator) (node : String) (left : Option Value) (right : Value) :
    Except Fault Value :=
  match operator, left with
  | .negation, _ => (truth node "rhs" right).map fun right => .bool (!right)
  | _, none => .error (.missingInput node "lhs")
  | .both, some left => do
    let left ← truth node "lhs" left
    let right ← truth node "rhs" right
    return .bool (left && right)
  | .either, some left => do
    let left ← truth node "lhs" left
    let right ← truth node "rhs" right
    return .bool (left || right)
  | .math operator, some left => operator.apply node left right
  | .comparison relation, some left => do
    let left ← comparable node "lhs" left
    let right ← comparable node "rhs" right
    return .bool (relation.holds left right)

end Operator

end InSitu
