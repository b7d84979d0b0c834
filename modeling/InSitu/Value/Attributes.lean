import InSitu.Value.Basic
/-!
The attributes of composite values, by which their parts are read.
-/

namespace InSitu

def lineoutAttributes : List String := ["empty_value", "samples", "x", "y", "z"]

namespace Value

def doubles (elements : List Float) : Value := .array (.doubles elements)

def count (n : Nat) : Value := .int (Int64.ofNat n)

/-- The attributes in order, none for kinds without. A variable of a lineout does not hide an
attribute that every lineout has. -/
def attributes? : Value → Option (List (String × Value))
  | .vector point => some [("x", .double point.x), ("y", .double point.y), ("z", .double point.z)]
  | .field name component =>
    some (("name", .string name) ::
      (component.map fun component => ("component", .string component)).toList)
  | .histogram counts =>
    some [("value", doubles counts.values), ("min_val", .double counts.low),
      ("max_val", .double counts.high), ("num_bins", count counts.values.length),
      ("clamp", .bool counts.clamps)]
  | .binning bins =>
    some [("value", doubles bins.values), ("association", .string bins.association.name),
      ("reduction_var", .string bins.reduced),
      ("reduction_op", .string bins.reduction.name),
      ("bin_axes", .axisList (bins.axes.map Axis.toSpec))]
  | .bin picked =>
    some ([("value", .double picked.value), ("min", .double picked.low),
      ("max", .double picked.high), ("center", .double picked.center)] ++
      (picked.index.map fun index => ("index", count index)).toList)
  | .aabb box => some [("min", .vector box.low), ("max", .vector box.high)]
  | .valuePosition found =>
    some ([("value", .double found.value), ("position", .vector found.position)] ++
      (found.element.map fun element =>
        [("rank", .int element.rank), ("domain_index", .int element.domain),
          ("index", .int element.index), ("assoc", .string element.association.name)]).getD [])
  | .lineout samples =>
    some ([("empty_value", .double samples.emptyValue),
      ("samples", count samples.coordinates.length),
      ("x", doubles (samples.coordinates.map (·.x))),
      ("y", doubles (samples.coordinates.map (·.y))),
      ("z", doubles (samples.coordinates.map (·.z)))] ++
      (samples.columns.entries.filter fun entry => entry.1 ∉ lineoutAttributes).map
        fun entry => (entry.1, doubles entry.2))
  | _ => none

def attribute? (value : Value) (name : String) : Option Value :=
  value.attributes?.bind fun attributes => Entries.get? attributes name

end Value

end InSitu
