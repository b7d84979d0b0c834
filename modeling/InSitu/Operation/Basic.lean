import InSitu.Operation.Distribution
import InSitu.Operation.Numeric
import InSitu.Operation.Operator
import InSitu.Operation.Recall
import InSitu.Value.Attributes
/-!
The operations that the nodes of an expression perform.

An operation has a type name, an ordered list of input inlets, a check of its own parameters and
a run, which reads the inlets and gives one value.
-/

namespace InSitu

/-- The declared type of a literal. -/
inductive LiteralType where
  | bool
  | int
  | double
  | string
  | nan
  | null
  /-- Any value. -/
  | any
  deriving DecidableEq

def LiteralType.name : LiteralType → String
  | .bool => "bool"
  | .int => "int"
  | .double => "double"
  | .string => "string"
  | .nan => "nan"
  | .null => "null"
  | .any => "literal"

def LiteralType.kind? : LiteralType → Option Kind
  | .bool => some .bool
  | .int => some .int
  | .double | .nan => some .double
  | .string => some .string
  | .null => some .null
  | .any => none

/-- What a node does. -/
inductive Operation where
  | literal (type : LiteralType) (value : Value)
  | identifier (name : String)
  /-- Reads an attribute of a value. -/
  | attribute (name : String)
  | conditional
  | operator (applied : Operator)
  | number (function : NumberFunction)
  | vector
  | magnitude
  | elementAt
  | replaceElements
  | arrayStatistic (statistic : ArrayStatistic)
  | history
  | historyRange
  | historyGradient
  | historyRangeGradient
  | histogram
  | transform (result : HistogramTransform)
  | quantile
  | cycle
  | time
  | field
  | topology
  | bounds
  | lineout
  | fieldStatistic (statistic : FieldStatistic)
  | binning
  | axis
  | axisList (arity : Nat)
  | binByIndex
  | binByValue
  | pointAndAxis
  | maxFromPoint

namespace Operation

def typeName : Operation → String
  | .literal type _ => type.name
  | .identifier _ => "identifier"
  | .attribute _ => "dot"
  | .conditional => "if"
  | .operator _ => "binary_op"
  | .number function => function.name
  | .vector => "vector"
  | .magnitude => "magnitude"
  | .elementAt => "array_access"
  | .replaceElements => "array_replace"
  | .arrayStatistic statistic => statistic.name
  | .history => "history"
  | .historyRange => "history_range"
  | .historyGradient => "history_gradient"
  | .historyRangeGradient => "history_range_gradient"
  | .histogram => "histogram"
  | .transform result => result.name
  | .quantile => "quantile"
  | .cycle => "cycle"
  | .time => "time"
  | .field => "field"
  | .topology => "topology"
  | .bounds => "bounds"
  | .lineout => "lineout"
  | .fieldStatistic statistic => "field_" ++ statistic.name
  | .binning => "binning"
  | .axis => "axis"
  | .axisList _ => "axis_list"
  | .binByIndex => "bin_by_index"
  | .binByValue => "bin_by_value"
  | .pointAndAxis => "point_and_axis"
  | .maxFromPoint => "max_from_point"

def inlets : Operation → List Inlet
  | .literal .. | .identifier _ | .cycle | .time => []
  | .attribute _ => [.needed "obj"]
  | .conditional => [.needed "condition", .needed "if", .needed "else"]
  | .operator _ => [.optional "lhs", .needed "rhs"]
  | .number function => function.inlets
  | .vector => [.needed "arg1", .needed "arg2", .needed "arg3"]
  | .magnitude | .arrayStatistic _ | .fieldStatistic _ => [.needed "arg1"]
  | .elementAt => [.needed "array", .needed "index"]
  | .replaceElements => [.needed "arg1", .needed "find", .needed "replace"]
  | .history =>
    [.needed "expr_name", .optional "absolute_index", .optional "relative_index"]
  | .historyRange | .historyRangeGradient => .needed "expr_name" :: Run.rangeInlets.map .optional
  | .historyGradient =>
    [.needed "expr_name", .optional "window_length", .optional "window_length_unit"]
  | .histogram =>
    [.needed "arg1", .optional "num_bins", .optional "min_val", .optional "max_val"]
  | .transform _ => [.needed "hist"]
  | .quantile => [.needed "cdf", .needed "q", .optional "interpolation"]
  | .field => [.needed "field_name", .optional "component"]
  | .topology => [.optional "arg1"]
  | .bounds => [.optional "topology"]
  | .lineout =>
    [.needed "samples", .needed "start", .needed "end", .optional "fields",
      .optional "empty_val"]
  | .binning =>
    [.optional "reduction_var", .needed "reduction_op", .needed "bin_axes",
      .optional "empty_bin_val", .optional "component"]
  | .axis =>
    [.needed "name", .optional "min_val", .optional "max_val", .optional "num_bins",
      .optional "bins", .optional "clamp"]
  | .axisList arity => (List.range arity).map fun index => .needed (Run.argumentName index)
  | .binByIndex => [.needed "binning", .needed "index"]
  | .binByValue => [.needed "binning", .needed "value"]
  | .pointAndAxis =>
    [.needed "binning", .optional "axis", .needed "threshold", .needed "point",
      .optional "miss_value", .optional "direction"]
  | .maxFromPoint => [.needed "binning", .optional "axis", .needed "point"]

/-- Checks the parameters of an operation by themselves. -/
def check (node : String) : Operation → Except Fault Unit
  | .literal type value =>
    match type.kind? with
    | some kind =>
      if kind = value.kind then .ok ()
      else .error (.misuse node (.literalKind type.name value.kind))
    | none => .ok ()
  | .identifier name => if name.isEmpty then .error (.misuse node .emptyIdentifier) else .ok ()
  | .attribute name => if name.isEmpty then .error (.misuse node .emptyAttribute) else .ok ()
  | .axisList arity => if arity = 0 then .error (.misuse node .noAxisArguments) else .ok ()
  | _ => .ok ()

/-- The newest value of an expression, with its name. -/
def newestOf (name : String) (environment : Environment) : Except Fault Output :=
  (environment.history.latest name).map fun entry => ⟨entry.value, some name⟩

def attributeOf (name : String) (inputs : Inputs) : Except Fault Value := do
  let value ← inputs.required "obj"
  let attributes := value.attributes?.getD []
  match Entries.get? attributes name with
  | some found => return found
  | none => .error (.unknownAttribute value.kind name (Entries.keys attributes))

def choose (inputs : Inputs) : Except Fault Value := do
  if ← inputs.bool "condition" then inputs.required "if" else inputs.required "else"

def applyOperator (operator : Operator) (inputs : Inputs) : Except Fault Value := do
  let right ← inputs.required "rhs"
  operator.apply inputs.node (inputs.get? "lhs") right

/-- The value of every operation but the recall of an expression. -/
def value (operation : Operation) (inputs : Inputs) (environment : Environment) :
    Except Fault Value :=
  match operation with
  | .literal _ value => .ok value
  | .identifier name => (newestOf name environment).map (·.value)
  | .attribute name => attributeOf name inputs
  | .conditional => choose inputs
  | .operator applied => applyOperator applied inputs
  | .number function => function.run inputs
  | .vector => Run.vector inputs
  | .magnitude => Run.magnitude inputs
  | .elementAt => Run.elementAt inputs
  | .replaceElements => Run.replaceElements inputs
  | .arrayStatistic statistic => statistic.run inputs
  | .history => Run.history inputs environment
  | .historyRange => Run.historyRange inputs environment
  | .historyGradient => Run.historyGradient inputs environment
  | .historyRangeGradient => Run.historyRangeGradient inputs environment
  | .histogram => Run.histogram inputs environment
  | .transform result => Run.transform result inputs
  | .quantile => Run.quantile inputs
  | .cycle => .ok (Run.cycle environment)
  | .time => Run.time environment
  | .field => Run.field inputs environment
  | .topology => Run.topology inputs environment
  | .bounds => Run.bounds inputs environment
  | .lineout => Run.lineout inputs environment
  | .fieldStatistic statistic => Run.fieldStatistic statistic inputs environment
  | .binning => Run.binning inputs environment
  | .axis => Run.axis inputs environment
  | .axisList arity => Run.axisList arity inputs
  | .binByIndex => Run.binByIndex inputs
  | .binByValue => Run.binByValue inputs
  | .pointAndAxis => Run.pointAndAxis inputs
  | .maxFromPoint => Run.maxFromPoint inputs

/-- Runs an operation; only a recalled value has an origin. -/
def run (operation : Operation) (inputs : Inputs) (environment : Environment) :
    Except Fault Output :=
  match operation with
  | .identifier name => newestOf name environment
  | _ => (operation.value inputs environment).map fun value => ⟨value, none⟩

end Operation

end InSitu
