import InSitu.Value.Basic
import InSitu.Wire.Basic
/-!
The meaning of stored values.
-/

namespace InSitu.Wire

/-- A number, or one of the spellings of the doubles that are not finite. -/
def number? : Json → Option Float
  | .string "nan" => some Number.notANumber
  | .string "inf" => some Number.infinity
  | .string "-inf" => some Number.negativeInfinity
  | json => json.number?

/-- What is read from a value of a kind, or why its payload does not fit. -/
def orFault {α : Type} (kind : Kind) (fault : PayloadFault) : Option α → Except WireFault α
  | some result => .ok result
  | none => .error (.payload kind fault)

def isInteger : Json → Bool
  | .integer _ => true
  | _ => false

/-- Reads an array. Its elements are integers if there are any and all are written so. -/
def arrayOf (kind : Kind) (json : Json) : Except WireFault NumericArray := do
  let items ← orFault kind .notArray json.array?
  let elements ← items.mapM fun item => orFault kind .notNumeric (number? item)
  return ⟨if !items.isEmpty && items.all isInteger then .int64 else .float64, elements⟩

def pointOf (kind : Kind) (json : Json) : Except WireFault (Point Float) := do
  let array ← arrayOf kind json
  orFault kind (.notVector array.elements.length) (Point.ofList? array.elements)

/-- Reads axes; all literals must be readable before the first is checked. -/
def axesOf (kind : Kind) (json : Json) : Except WireFault (List (AxisSpec Float)) := do
  let literals ← orFault kind .badAxisLiteral (Json.listOf? AxisLiteral.ofJson? json)
  literals.mapM fun literal => literal.toSpec.mapError .axis

/-- An attribute, if it is there. -/
def attribute? (wire : Wire) (name : String) : Option Wire := Entries.get? wire.attributes name

def requiredAttribute (wire : Wire) (name : String) : Except WireFault Wire :=
  match wire.attribute? name with
  | some found => .ok found
  | none => .error (.missingAttribute wire.kind name)

def numberAttribute (wire : Wire) (name : String) : Except WireFault Float := do
  let found ← wire.requiredAttribute name
  orFault wire.kind (.attributeNotNumber name) (number? found.value)

def stringAttribute (wire : Wire) (name : String) : Except WireFault String := do
  let found ← wire.requiredAttribute name
  orFault wire.kind (.attributeNotString name) found.value.string?

def arrayAttribute (wire : Wire) (name : String) : Except WireFault (List Float) := do
  let found ← wire.requiredAttribute name
  let array ← arrayOf wire.kind found.value
  return array.elements

def pointAttribute (wire : Wire) (name : String) : Except WireFault (Point Float) := do
  let found ← wire.requiredAttribute name
  pointOf wire.kind found.value

/-- An optional attribute that is an integer; what is none counts as absent. -/
def int64Attribute? (wire : Wire) (name : String) : Option Int64 :=
  (wire.attribute? name).bind fun found => found.value.int64?

def fieldValue (wire : Wire) : Except WireFault Value := do
  let name ← orFault .field .notFieldName wire.value.string?
  match wire.attribute? "component" with
  | none => return .field name none
  | some component =>
    let component ← orFault .field .notComponent component.value.string?
    return .field name (some component)

/-- A histogram; it clamps unless it says otherwise. -/
def histogramValue (wire : Wire) : Except WireFault Value := do
  let values ← wire.arrayAttribute "value"
  let clamps := ((wire.attribute? "clamp").bind fun found => found.value.bool?).getD true
  let low ← wire.numberAttribute "min_val"
  let high ← wire.numberAttribute "max_val"
  return .histogram ⟨values, low, high, clamps⟩

/-- A binning; its axes have nothing left open. -/
def binningValue (wire : Wire) : Except WireFault Value := do
  let association ← wire.stringAttribute "association"
  let association ← orFault .binning .unknownAssociation (Association.ofName? association)
  let reduction ← wire.stringAttribute "reduction_op"
  let reduction ← orFault .binning .unknownReduction (Reduction.ofName? reduction)
  let literals ← wire.requiredAttribute "bin_axes"
  let specs ← axesOf .binning literals.value
  let axes ← specs.mapM fun spec => (spec.resolve 0 none).mapError .axis
  let values ← wire.arrayAttribute "value"
  let reduced ← wire.stringAttribute "reduction_var"
  return .binning ⟨values, association, reduced, reduction, axes⟩

/-- A bin; its index is optional. -/
def binValue (wire : Wire) : Except WireFault Value := do
  let index := (wire.attribute? "index").bind fun found => found.value.natural?
  let value ← wire.numberAttribute "value"
  let low ← wire.numberAttribute "min"
  let high ← wire.numberAttribute "max"
  let center ← wire.numberAttribute "center"
  return .bin ⟨index, value, low, high, center⟩

/-- The element of a found value, if all its numbers are there. -/
def elementOf? (wire : Wire) : Option Element := do
  let rank ← wire.int64Attribute? "rank"
  let domain ← wire.int64Attribute? "domain_index"
  let index ← wire.int64Attribute? "index"
  let association := (wire.attribute? "assoc").bind fun found =>
    found.value.string?.bind Association.ofName?
  return ⟨rank, domain, index, association.getD .point⟩

def positionValue (wire : Wire) : Except WireFault Value := do
  let value ← wire.numberAttribute "value"
  let position ← wire.pointAttribute "position"
  return .valuePosition ⟨value, position, wire.elementOf?⟩

/-- A lineout; every attribute but two is a variable. -/
def lineoutValue (wire : Wire) : Except WireFault Value := do
  let items ← orFault .lineout .notCoordinates wire.value.array?
  let coordinates ← items.mapM (pointOf .lineout)
  let columns ← (wire.attributes.filter fun entry =>
      entry.1 != "empty_value" && entry.1 != "samples").mapM fun entry => do
    let array ← arrayOf .lineout entry.2.value
    return (entry.1, array.elements)
  let emptyValue ← wire.numberAttribute "empty_value"
  return .lineout ⟨emptyValue, coordinates, Table.ofList columns⟩

def toValue (wire : Wire) : Except WireFault Value :=
  match wire.kind with
  | .bool => (orFault .bool .notBool wire.value.bool?).map .bool
  | .int => (orFault .int .notInteger wire.value.int64?).map .int
  | .double => (orFault .double .notNumber (number? wire.value)).map .double
  | .string => (orFault .string .notString wire.value.string?).map .string
  | .vector => (pointOf .vector wire.value).map .vector
  | .array => (arrayOf .array wire.value).map .array
  | .field => wire.fieldValue
  | .topology => (orFault .topology .notTopologyName wire.value.string?).map .topology
  | .histogram => wire.histogramValue
  | .binning => wire.binningValue
  | .bin => wire.binValue
  | .axisList => (axesOf .axisList wire.value).map .axisList
  | .aabb => do
    let low ← wire.pointAttribute "min"
    let high ← wire.pointAttribute "max"
    return .aabb ⟨low, high⟩
  | .valuePosition => wire.positionValue
  | .lineout => wire.lineoutValue
  | .null => .ok .null

end InSitu.Wire
