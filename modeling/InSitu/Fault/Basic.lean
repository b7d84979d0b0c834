import InSitu.Fault.Cause
import InSitu.Wire.Basic
/-!
The faults of an evaluation.

A fault belongs to one of two tiers: it is found while requests are checked, or once the inputs
are known to be well formed.
-/

namespace InSitu

/-- Why a request or an evaluation failed. -/
inductive Fault where
  | misuse (node : String) (cause : Misuse)
  | missingInput (node inlet : String)
  | typeMismatch (node inlet : String) (expected : Expected) (found : Kind)
  | badArgument (node : String) (cause : BadArgument)
  | badRange (node : String) (low high : Float)
  | unknownIdentifier (name : String) (known : List String)
  | emptyHistory (name : String)
  | indexOutOfRange (node : String) (index : Int64) (size : Nat)
  | unsupported (node : String) (cause : Unsupported)
  | unknownAttribute (kind : Kind) (name : String) (available : List String)
  | unknownField (node field : String) (known : List String)
  | component (node : String) (cause : ComponentFault)
  | historyOrder (name : String) (last cycle : Cycle)
  | dependencyCycle (nodes : List String)
  | unknownNode (name : String)
  | unknownNodeType (name : String)
  | dataset (cause : DatasetFault)
  | wire (cause : WireFault)
  /-- A text is no document of the expected form. -/
  | unreadable
  /-- A file cannot be read or written. -/
  | file

/-- When a fault is found. -/
inductive Tier where
  | validation
  | evaluation
  deriving DecidableEq

def Tier.name : Tier → String
  | .validation => "Validation"
  | .evaluation => "Evaluation"

namespace Fault

def tier : Fault → Tier
  | .misuse .. | .missingInput .. | .typeMismatch .. | .badArgument .. | .badRange .. =>
    .validation
  | _ => .evaluation

def ofAxis (node : String) : AxisFault Float → Fault
  | .unorderedBounds _ low high => .badRange node low high
  | fault => .misuse node (.axis fault.message)

def message : Fault → String
  | .misuse node cause => node ++ ": " ++ cause.message
  | .missingInput node inlet => s!"{node}: missing required input '{inlet}'"
  | .typeMismatch node inlet expected found =>
    phrase [node, ": input '", inlet, "' must be ", expected.text, ", got ", found.name]
  | .badArgument node cause => node ++ ": " ++ cause.message
  | .badRange node low high =>
    phrase [node, ": min_val (", Number.inSentence low, ") must be smaller than max_val (",
      Number.inSentence high, ")"]
  | .unknownIdentifier name known =>
    s!"unknown expression identifier '{name}'; known identifiers: " ++ Text.quotedList known
  | .emptyHistory name => s!"identifier '{name}' has no history entries"
  | .indexOutOfRange node index size =>
    phrase [node, ": index ", toString index.toInt, " is out of range for ", toString size,
      " entries"]
  | .unsupported node cause => node ++ ": not implemented: " ++ cause.message
  | .unknownAttribute kind name available =>
    phrase ["value of kind ", kind.name, " has no attribute '", name, "'; available: ",
      Text.quotedList available]
  | .unknownField node field known =>
    s!"{node}: unknown field '{field}'; known fields: " ++ Text.quotedList known
  | .component node cause => node ++ ": " ++ cause.message
  | .historyOrder name last cycle =>
    phrase ["history for '", name, "' is at cycle ", toString last.toNat,
      "; cannot append cycle ", toString cycle.toNat]
  | .dependencyCycle nodes => "cycle detected in expression graph: " ++ Text.quotedList nodes
  | .unknownNode name => s!"unknown node '{name}' in expression graph"
  | .unknownNodeType name => s!"unknown node type '{name}'"
  | .dataset cause => "mesh collaborator: " ++ cause.message
  | .wire cause => "wire format: " ++ cause.message
  | .unreadable => "serialization"
  | .file => "io"

end Fault

end InSitu
