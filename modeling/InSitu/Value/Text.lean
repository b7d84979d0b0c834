import InSitu.Number.Layout
import InSitu.Text
import InSitu.Value.Basic
/-!
Values in words.
-/

namespace InSitu.Value

def text : Value → String
  | .bool value => if value then "true" else "false"
  | .int value => toString value.toInt
  | .double value => Number.inSentence value
  | .string value => Text.quoted value
  | .vector point =>
    "(" ++ String.intercalate ", " (point.toList.map Number.inSentence) ++ ")"
  | .array numbers => Number.listText numbers.elements
  | .field name none => s!"field({name})"
  | .field name (some component) => s!"field({name}, {component})"
  | .topology name => s!"topology({name})"
  | .histogram counts =>
    s!"histogram[{counts.values.length} bins over " ++ Number.inSentence counts.low ++
      ".." ++ Number.inSentence counts.high ++ "]"
  | .binning bins =>
    "binning[" ++ bins.reduction.name ++ "(" ++ bins.reduced ++
      s!") over {bins.axes.length} axes]"
  | .bin picked =>
    "bin[" ++ Number.inSentence picked.value ++ " in " ++ Number.inSentence picked.low ++ ".." ++
      Number.inSentence picked.high ++ "]"
  | .axisList axes => "axes[" ++ String.intercalate ", " (axes.map (·.name)) ++ "]"
  | .aabb box =>
    "aabb[" ++ Number.listText box.low.toList ++ " .. " ++ Number.listText box.high.toList ++ "]"
  | .valuePosition found =>
    Number.inSentence found.value ++ " at " ++ Number.listText found.position.toList
  | .lineout samples => s!"lineout[{samples.coordinates.length} samples]"
  | .null => "null"

end InSitu.Value
