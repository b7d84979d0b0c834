import InSitu.Axis.Spec
import InSitu.Json.Record
import InSitu.Number.Layout
/-!
Axes in JSON, and the wording of axis faults.
-/

namespace InSitu

def axisFields : List String := ["name", "min_val", "max_val", "num_bins", "bins", "clamp"]

/-- Reads an axis literal; only the name must be there. -/
def AxisLiteral.ofJson? (json : Json) : Option (AxisLiteral Float) := do
  let record ← json.record? axisFields
  let name ← record.required "name" Json.string?
  let low ← record.defaulted "min_val" none (Json.optional? Json.number?)
  let high ← record.defaulted "max_val" none (Json.optional? Json.number?)
  let count ← record.defaulted "num_bins" none (Json.optional? Json.natural?)
  let edges ← record.defaulted "bins" none (Json.optional? (Json.listOf? Json.number?))
  let clamps ← record.defaulted "clamp" false Json.bool?
  return ⟨name, low, high, count, edges, clamps⟩

/-- A double of a document; JSON has no other than finite ones. -/
def finiteOrNull (x : Float) : Json := if x.isFinite then .double x else .null

/-- The fields of a literal, open ones left out. -/
def AxisLiteral.fields (literal : AxisLiteral Float) : List (String × Json) :=
  [("name", .string literal.name)] ++
  (literal.low.map fun low => ("min_val", finiteOrNull low)).toList ++
  (literal.high.map fun high => ("max_val", finiteOrNull high)).toList ++
  (literal.count.map fun count => ("num_bins", .integer count)).toList ++
  (literal.edges.map fun edges => ("bins", .array (edges.map finiteOrNull))).toList ++
  [("clamp", .bool literal.clamps)]

def AxisLiteral.toJson (literal : AxisLiteral Float) : Json := .object literal.fields

/-- A literal inside a document, where fields are sorted by name. -/
def AxisLiteral.toSortedJson (literal : AxisLiteral Float) : Json :=
  .object (Json.sortFields literal.fields)

/-- What is wrong with an axis, in words. -/
def AxisFault.message : AxisFault Float → String
  | .unorderedBounds axis low high =>
    s!"axis '{axis}': min_val (" ++ Number.inSentence low ++
      ") must be smaller than max_val (" ++ Number.inSentence high ++ ")"
  | .tooFewEdges axis count =>
    s!"axis '{axis}': rectilinear axis needs at least 2 edges, got {count}"
  | .unorderedEdges axis position edge next =>
    s!"axis '{axis}': edges must be strictly increasing (edge {position} = " ++
      Number.inSentence edge ++ " followed by " ++ Number.inSentence next ++ ")"
  | .noBins axis => s!"axis '{axis}': num_bins must be at least 1"
  | .mixedLayout axis =>
    s!"axis '{axis}': 'bins' cannot be combined with 'min_val', 'max_val' or 'num_bins'"
  | .missingLow axis => s!"axis '{axis}': missing min_val and no data range to infer it from"
  | .missingHigh axis => s!"axis '{axis}': missing max_val and no data range to infer it from"

end InSitu
