import InSitu.Axis.Literal
import InSitu.Value.Kind
/-!
Values as they are stored and exchanged: a kind, a plain payload and named attributes.

Main statement of the format: a record has the fields `type`, `value`, `attrs` and `name`, of
which all but the first may be left out.
-/

namespace InSitu

/-- The stored form of a value. -/
structure Wire where
  kind : Kind
  value : Json
  attributes : List (String × Wire)
  /-- The identifier from which the value was read. -/
  name : Option String

/-- Why a payload does not fit the kind of its value. -/
inductive PayloadFault where
  | notBool
  | notInteger
  | notNumber
  | notString
  | notFieldName
  | notComponent
  | notTopologyName
  | notArray
  | notNumeric
  | notVector (size : Nat)
  | notCoordinates
  | unknownAssociation
  | unknownReduction
  | attributeNotNumber (name : String)
  | attributeNotString (name : String)
  | badAxisLiteral

/-- Why a stored value has no meaning. -/
inductive WireFault where
  | payload (kind : Kind) (fault : PayloadFault)
  | missingAttribute (kind : Kind) (name : String)
  | axis (fault : AxisFault Float)

/-- Why a payload does not fit, in words. -/
def PayloadFault.message : PayloadFault → String
  | .notBool => "expected a bool"
  | .notInteger => "expected an integer"
  | .notNumber => "expected a number"
  | .notString => "expected a string"
  | .notFieldName => "expected a field name"
  | .notComponent => "component is not a string"
  | .notTopologyName => "expected a topology name"
  | .notArray => "expected a JSON array"
  | .notNumeric => "non-numeric array element"
  | .notVector size => s!"vector needs 3 components, got {size}"
  | .notCoordinates => "expected a list of coordinates"
  | .unknownAssociation => "unknown association"
  | .unknownReduction => "unknown reduction_op"
  | .attributeNotNumber name => s!"attribute '{name}' is not a number"
  | .attributeNotString name => s!"attribute '{name}' is not a string"
  | .badAxisLiteral => "bad axis literal"

/-- Why a stored value has no meaning, in words. -/
def WireFault.message : WireFault → String
  | .payload kind fault => "invalid payload for '" ++ kind.name ++ "': " ++ fault.message
  | .missingAttribute kind name => "'" ++ kind.name ++ s!"' value is missing attribute '{name}'"
  | .axis fault => fault.message

namespace Wire

def plain (kind : Kind) (value : Json) : Wire := ⟨kind, value, [], none⟩

def composite (kind : Kind) (value : Json) (attributes : List (String × Wire)) : Wire :=
  ⟨kind, value, attributes, none⟩

/-- Attaches the identifier from which the value was read. -/
def withName (wire : Wire) (name : String) : Wire := { wire with name := some name }

end Wire

end InSitu
