import InSitu.Number.Layout
import InSitu.Text
import InSitu.Value.Kind
/-!
The causes of faults, one type for each family, and their wording.
-/

namespace InSitu

abbrev Cycle := UInt64

def phrase (parts : List String) : String := String.intercalate "" parts

/-- What an input inlet expects. -/
inductive Expected where
  | number
  | int
  | bool
  | string
  | fieldOrString
  | comparable
  | numberOrVector
  | vector
  | array
  | topologyOrString
  | histogram
  | axisList
  | binned
  | numericHistory

/-- What an input inlet expects, in words. -/
def Expected.text : Expected → String
  | .number => "int or double"
  | .int => "int"
  | .bool => "bool"
  | .string => "string"
  | .fieldOrString => "field or string"
  | .comparable => "bool, int or double"
  | .numberOrVector => "int, double or vector"
  | .vector => "vector"
  | .array => "array"
  | .topologyOrString => "topology or string"
  | .histogram => "histogram"
  | .axisList => "axis_list"
  | .binned => "binning or histogram"
  | .numericHistory => "history of numeric values"

/-- Malformed graphs, parameters and combinations of inputs. -/
inductive Misuse where
  | repeatedNode
  | noSuchInlet (type inlet : String) (known : List String)
  | inletTaken (inlet : String)
  | noOutput
  | outputWithoutValue
  | arrayOfOther
  | missingParameter (key : String)
  | parameterNotString (key : String) (found : Kind)
  | badArity (found : String)
  | noDefaultBins
  | shortHistory
  | literalKind (type : String) (found : Kind)
  | emptyIdentifier
  | emptyAttribute
  | unknownOperator (text : String) (known : List String)
  | vectorOperator (operator : String)
  | mixedOperands (operator : String) (left right : Kind)
  | fractionalRemainder
  | unknownInterpolation (text : String) (known : List String)
  | missingVariable (reduction : Reduction)
  | noAxes
  | axis (message : String)
  | shortComponent (component field : String) (size points : Nat)
  | unknownUnit (text : String)
  | unknownTopology (name : String) (known : List String)
  | ambiguousTopology (known : List String)
  | unknownReduction (text : String) (known : List String)
  | twoComponents (onField asArgument : String)
  | noAxisArguments
  | badExpressionName (found : Kind)
  | unpairedBounds (first last : String)
  | noBounds
  | severalFamilies (count : Nat)
  | twoIndexes
  | noIndex

def Misuse.message : Misuse → String
  | .repeatedNode => "a node with this name already exists"
  | .noSuchInlet type inlet known =>
    phrase [type, " has no input port '", inlet, "'; ports: ", Text.quotedList known]
  | .inletTaken inlet => s!"input port '{inlet}' is already connected"
  | .noOutput => "expression graph has no output node"
  | .outputWithoutValue => "output node produced no value"
  | .arrayOfOther => "array parameters must contain only numbers"
  | .missingParameter key => s!"missing required parameter '{key}'"
  | .parameterNotString key found =>
    s!"parameter '{key}' must be a string, got " ++ found.name
  | .badArity found => s!"parameter 'arity' must be a positive int, got {found}"
  | .noDefaultBins => "default_num_bins must be > 0"
  | .shortHistory => "max_history must be >= 2"
  | .literalKind type found => s!"{type} literal holds a value of kind " ++ found.name
  | .emptyIdentifier => "identifier name must not be empty"
  | .emptyAttribute => "attribute name must not be empty"
  | .unknownOperator text known =>
    s!"unknown operator '{text}'; expected one of " ++ String.intercalate " " known
  | .vectorOperator operator =>
    s!"vector arithmetic supports only + and -, not '{operator}'"
  | .mixedOperands operator left right =>
    phrase ["cannot apply '", operator, "' to a ", left.name, " and a ", right.name]
  | .fractionalRemainder => "'%' is only defined for int operands"
  | .unknownInterpolation text known =>
    s!"unknown interpolation '{text}'; expected one of " ++ String.intercalate ", " known
  | .missingVariable reduction =>
    phrase ["reduction_var can only be left empty when reduction_op is 'count' or 'pdf', not '",
      reduction.name, "'"]
  | .noAxes => "bin_axes must contain at least one axis"
  | .axis message => message
  | .shortComponent component field size points =>
    s!"component '{component}' of field '{field}' has {size} values for {points} points"
  | .unknownUnit text => s!"unknown unit '{text}'; expected one of index, time, cycle"
  | .unknownTopology name known =>
    s!"unknown topology '{name}'; known topologies: " ++ Text.quotedList known
  | .ambiguousTopology known =>
    s!"the dataset has {known.length} topologies, a name must be given: " ++
      Text.quotedList known
  | .unknownReduction text known =>
    s!"unknown reduction_op '{text}'; expected one of " ++ String.intercalate ", " known
  | .twoComponents onField asArgument =>
    s!"component given twice: '{onField}' on the field and '{asArgument}' as an argument"
  | .noAxisArguments => "axis_list needs at least one argument"
  | .badExpressionName found =>
    "expr_name must be an identifier or a string, got " ++ found.name
  | .unpairedBounds first last => s!"'{first}' and '{last}' must be given together"
  | .noBounds =>
    "one of absolute index, relative index, absolute time or absolute cycle bounds must be given"
  | .severalFamilies count => s!"only one addressing family may be given, got {count}"
  | .twoIndexes => "absolute_index and relative_index are mutually exclusive"
  | .noIndex => "one of absolute_index or relative_index must be given"

/-- The ways to address a range of a history. -/
inductive Family where
  | absoluteIndex
  | relativeIndex
  | absoluteTime
  | absoluteCycle
  deriving DecidableEq

def Family.text : Family → String
  | .absoluteIndex => "absolute index"
  | .relativeIndex => "relative index"
  | .absoluteTime => "absolute time"
  | .absoluteCycle => "absolute cycle"

/-- Well typed arguments outside their domain. -/
inductive BadArgument where
  | probability (q : Float)
  | emptyHistogram
  | negativeRelativeIndex (index : Int64)
  | negativeBounds (family : Family) (first last : Float)
  | unorderedBounds (family : Family) (first last : Float)
  | untimedEntry (position : Nat) (cycle : Cycle)
  | untimedDeltas
  | negativeWindow (length : Float)
  | shortWindow (length : Float)
  | untimedGradient
  | divisionByZero (operator : String)
  | overflow (left : Int64) (operator : String) (right : Int64)
  | absoluteOverflow (value : Int64)
  | tooFewSamples (count : Int64)
  | tooFewBins (count : Int64)
  | outsideAxis (value low high : Float)
  | direction (value : Int64)
  | emptyBinning

def BadArgument.message : BadArgument → String
  | .probability q => "quantile q must lie in [0, 1], got " ++ Number.inSentence q
  | .emptyHistogram => "cannot take a quantile of an empty histogram"
  | .negativeRelativeIndex index =>
    "relative_index must be non-negative, got " ++ toString index.toInt
  | .negativeBounds family first last =>
    phrase [family.text, " bounds must be non-negative, got (", Number.inSentence first, ", ",
      Number.inSentence last, ")"]
  | .unorderedBounds family first last =>
    phrase ["first ", family.text, " (", Number.inSentence first, ") must not exceed last (",
      Number.inSentence last, ")"]
  | .untimedEntry position cycle =>
    s!"history entry {position} (cycle " ++ toString cycle.toNat ++ ") has no simulation time"
  | .untimedDeltas => "time deltas requested but history entries have no simulation time"
  | .negativeWindow length =>
    "window_length must be non-negative, got " ++ Number.inSentence length
  | .shortWindow length =>
    "window_length must be at least 1 when measured in index or cycle units, got " ++
      Number.inSentence length
  | .untimedGradient => "time gradient requested but history has no simulation time"
  | .divisionByZero operator => s!"integer {operator} by zero"
  | .overflow left operator right =>
    phrase ["integer overflow in ", toString left.toInt, " ", operator, " ",
      toString right.toInt]
  | .absoluteOverflow value => "abs(" ++ toString value.toInt ++ ") overflows"
  | .tooFewSamples count => "samples must be greater than zero, got " ++ toString count.toInt
  | .tooFewBins count => "num_bins must be at least 1, got " ++ toString count.toInt
  | .outsideAxis value low high =>
    phrase ["value ", Number.inSentence value, " lies outside the axis range [",
      Number.inSentence low, ", ", Number.inSentence high, "]"]
  | .direction value =>
    "invalid direction " ++ toString value.toInt ++ "; valid directions are 1 or -1"
  | .emptyBinning => "cannot search an empty binning"

/-- Well formed requests without support. -/
inductive Unsupported where
  | severalAxes (count : Nat)
  | replaceIn (elementType : ElementType)
  | lineout

def Unsupported.message : Unsupported → String
  | .severalAxes count =>
    s!"lookups on binnings with {count} axes; only one axis is supported"
  | .replaceIn elementType =>
    "array_replace supports float64 arrays only, got " ++ elementType.title
  | .lineout => "the mesh collaborator does not support lineouts"

/-- Components that do not fit their field. -/
inductive ComponentFault where
  | neededByVariable (name : String) (known : List String)
  | scalarVariable (name component : String)
  | unknownInVariable (name component : String) (known : List String)
  | vectorAxis (name : String)
  | scalarField (field component : String)
  | unlisted (field component : String)
  | unknown (field component : String) (known : List String)
  | inHistogram (field component : String)

def ComponentFault.message : ComponentFault → String
  | .neededByVariable name known =>
    phrase ["reduction variable '", name,
      "' has multiple components and no component was given; known components: ",
      Text.quotedList known]
  | .scalarVariable name component =>
    s!"reduction variable '{name}' is scalar but component '{component}' was given"
  | .unknownInVariable name component known =>
    s!"reduction variable '{name}' has no component '{component}'; known components: " ++
      Text.quotedList known
  | .vectorAxis name => s!"axis '{name}' must be a scalar field or one of x, y, z"
  | .scalarField field component =>
    s!"field '{field}' is scalar but component '{component}' was requested"
  | .unlisted field component => s!"field '{field}' has no component '{component}'"
  | .unknown field component known =>
    s!"field '{field}' has no component '{component}'; known components: " ++
      Text.quotedList known
  | .inHistogram field component =>
    s!"histograms take a whole field; component '{component}' of '{field}' was given"

/-- Answers of a dataset that cannot be given or are inconsistent. -/
inductive DatasetFault where
  | fieldSize (field : String) (size points : Nat)
  | unknownTopology (name known : String)
  | noSamples (field : String)
  | binningSize (found expected : Nat)
  | histogramSize (field : String) (found expected : Nat)
  | noTime

def DatasetFault.message : DatasetFault → String
  | .fieldSize field size points => s!"field '{field}' has {size} values for {points} points"
  | .unknownTopology name known => s!"unknown topology '{name}'; known topologies: [{known}]"
  | .noSamples field => s!"field '{field}' has no samples"
  | .binningSize found expected => s!"binning returned {found} bins, expected {expected}"
  | .histogramSize field found expected =>
    s!"histogram of '{field}' returned {found} bins, expected {expected}"
  | .noTime => "dataset publishes no simulation time"

end InSitu
