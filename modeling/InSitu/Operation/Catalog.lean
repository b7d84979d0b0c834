import InSitu.Operation.Basic
import InSitu.Value.Text
/-!
The operations by type name. Some need parameters; all else reaches an operation by its inlets.
-/

namespace InSitu.Operation

def simple : List Operation :=
  [.literal .nan (.double Number.notANumber), .literal .null .null, .conditional,
    .number .min, .number .max, .number .abs, .number .exp, .number .log, .number .pow,
    .vector, .magnitude, .elementAt, .replaceElements, .arrayStatistic .min,
    .arrayStatistic .max, .arrayStatistic .avg, .arrayStatistic .sum, .history, .historyRange,
    .historyGradient, .historyRangeGradient, .histogram, .transform .pdf, .transform .cdf,
    .transform .entropy, .quantile, .cycle, .time, .field, .topology, .bounds, .lineout,
    .fieldStatistic .min, .fieldStatistic .max, .fieldStatistic .avg, .fieldStatistic .sum,
    .fieldStatistic .nanCount, .fieldStatistic .infCount, .binning, .axis, .binByIndex,
    .binByValue, .pointAndAxis, .maxFromPoint]

/-- A parameter that must be there; the empty value counts as none. -/
def parameter (type : String) (parameters : Table Value) (key : String) : Except Fault Value :=
  match (parameters.get? key).filter fun value => !value.isNull with
  | some value => .ok value
  | none => .error (.misuse type (.missingParameter key))

def textParameter (type : String) (parameters : Table Value) (key : String) :
    Except Fault String := do
  let value ← parameter type parameters key
  match value.string? with
  | some text => return text
  | none => .error (.misuse type (.parameterNotString key value.kind))

/-- An integer as a double; other values stay what they are. -/
def promote : Value → Value
  | .int value => .double (Number.ofInt64 value)
  | value => value

def build (type : String) (parameters : Table Value) : Except Fault Operation :=
  match type with
  | "bool" => (parameter type parameters "value").map (.literal .bool)
  | "int" => (parameter type parameters "value").map (.literal .int)
  | "double" => (parameter type parameters "value").map fun value =>
    .literal .double (promote value)
  | "string" => (parameter type parameters "value").map (.literal .string)
  | "literal" => .ok (.literal .any ((parameters.get? "value").getD .null))
  | "identifier" => (textParameter type parameters "name").map .identifier
  | "dot" => (textParameter type parameters "name").map .attribute
  | "binary_op" => do
    let symbol ← textParameter type parameters "op_string"
    (Operator.parse type symbol).map .operator
  | "axis_list" => do
    match ← parameter type parameters "arity" with
    | .int arity =>
      if arity < 1 then .error (.misuse type (.badArity (Value.int arity).text))
      else return .axisList arity.toInt.toNat
    | other => .error (.misuse type (.badArity other.text))
  | _ =>
    match simple.find? (·.typeName = type) with
    | some operation => .ok operation
    | none => .error (.unknownNodeType type)

end InSitu.Operation
