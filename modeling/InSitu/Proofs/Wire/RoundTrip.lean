import InSitu.Proofs.Number.Integers
import InSitu.Proofs.Table
import InSitu.Proofs.Wire.Payload

/-!
# Storing a value and reading it back

Every kind has a writer and a reader that are written apart.  A value comes back if its parts have
a form in a document: an array of 64-bit integers must hold such integers, axes must be well formed
with finite numbers, and the variables of a lineout must not take the names of its attributes.
-/

namespace InSitu

/-- Doubles, or integers of 64 bits at least one of which is there to show it. -/
def NumericArray.Storable (array : NumericArray) : Prop :=
  array.elementType = .float64 ∨
    array.elementType = .int64 ∧ array.elements ≠ [] ∧
      ∀ x ∈ array.elements, ∃ integer : Int64, Number.IsInteger x integer.toInt

/-- A well formed spec with finite numbers. -/
structure AxisSpec.Storable (spec : AxisSpec Float) : Prop extends spec.WellFormed where
  finite : ∀ x ∈ spec.numbers, x.isFinite = true

/-- A well formed axis with finite numbers. -/
structure Axis.Storable (axis : Axis Float) : Prop extends axis.WellFormed where
  finite : ∀ x ∈ axis.toSpec.numbers, x.isFinite = true

def Value.Storable : Value → Prop
  | .array numbers => numbers.Storable
  | .binning bins => ∀ axis ∈ bins.axes, axis.Storable
  | .bin picked => ∀ index ∈ picked.index, index < 2 ^ 63
  | .axisList specs => ∀ spec ∈ specs, spec.Storable
  | .lineout samples =>
    "empty_value" ∉ samples.columns.keys ∧ "samples" ∉ samples.columns.keys
  | _ => True

theorem Axis.Storable.toSpec {axis : Axis Float} (storable : axis.Storable) :
    axis.toSpec.Storable :=
  ⟨storable.toWellFormed.toSpec, storable.finite⟩

namespace Wire

theorem arrayOf_arrayJson (kind : Kind) {array : NumericArray} (storable : array.Storable) :
    arrayOf kind (arrayJson array) = .ok array := by
  obtain ⟨elementType, elements⟩ := array
  rcases storable with isFloat | ⟨isInteger, nonempty, integers⟩
  · cases isFloat
    rw [arrayJson_of_not_isInteger rfl]
    exact arrayOf_numberJson kind elements
  · cases isInteger
    have kept : elements.map (fun x => Float.ofInt (Number.toInt64 x).toInt) = elements := by
      refine (List.map_congr_left (g := id) fun x member => ?_).trans (List.map_id elements)
      obtain ⟨integer, isInteger⟩ := integers x member
      obtain ⟨cut, restored⟩ := Number.toInt64_and_ofInt_of_isInteger isInteger
      rw [cut, restored, id]
    rw [arrayOf_arrayJson_of_isInteger kind rfl]
    simp [kept, nonempty]

theorem axesOf_axesJson_of_storable (kind : Kind) {specs : List (AxisSpec Float)}
    (storable : ∀ spec ∈ specs, spec.Storable) :
    axesOf kind (axesJson specs) = .ok specs := by
  have edges : ∀ spec ∈ specs, ∀ x ∈ spec.listedEdges, x.isFinite = true := by
    intro spec member x listed
    refine (storable spec member).finite x ?_
    obtain ⟨name, clamps, bins⟩ := spec
    cases bins with
    | uniform low high count =>
        cases listed
    | edged edges =>
        exact listed
  rw [axesOf_axesJson kind (fun spec member => (storable spec member).toWellFormed) edges]
  refine congrArg Except.ok
    ((List.map_congr_left (g := id) fun spec member => ?_).trans (List.map_id specs))
  exact AxisSpec.openInfinite_of_finite (storable spec member).finite

section Attributes

variable {wire : Wire} {name : String}

theorem requiredAttribute_of_attribute? (found : Wire) (here : wire.attribute? name = some found) :
    wire.requiredAttribute name = .ok found := by
  rw [requiredAttribute, here]

theorem numberAttribute_of_attribute? (x : Float)
    (here : wire.attribute? name = some (double x)) : wire.numberAttribute name = .ok x := by
  rw [numberAttribute, requiredAttribute_of_attribute? _ here]
  change orFault _ _ (number? (numberJson x)) = _
  rw [number?_numberJson]
  rfl

theorem stringAttribute_of_attribute? (text : String)
    (here : wire.attribute? name = some (string text)) :
    wire.stringAttribute name = .ok text := by
  rw [stringAttribute, requiredAttribute_of_attribute? _ here]
  rfl

theorem arrayAttribute_of_attribute? (xs : List Float)
    (here : wire.attribute? name = some (doubles xs)) : wire.arrayAttribute name = .ok xs := by
  rw [arrayAttribute, requiredAttribute_of_attribute? _ here]
  change (arrayOf _ (doubles xs).value).bind _ = _
  rw [arrayOf_doubles]
  rfl

theorem pointAttribute_of_attribute? (point : Point Float)
    (here : wire.attribute? name = some (vector point)) :
    wire.pointAttribute name = .ok point := by
  rw [pointAttribute, requiredAttribute_of_attribute? _ here]
  exact pointOf_pointJson _ point

theorem int64Attribute?_of_attribute? (value : Int64)
    (here : wire.attribute? name = some (int value)) :
    wire.int64Attribute? name = some value := by
  rw [int64Attribute?, here]
  exact int64?_toInt value

end Attributes

theorem toValue_field (name : String) (component : Option String) :
    (ofValue (.field name component)).toValue = .ok (.field name component) := by
  cases component with
  | none =>
      rfl
  | some component =>
      rfl

theorem toValue_histogram (value : Histogram Float) :
    (ofValue (.histogram value)).toValue = .ok (.histogram value) := by
  change (ofValue (.histogram value)).histogramValue = _
  rw [histogramValue, arrayAttribute_of_attribute? value.values rfl,
    numberAttribute_of_attribute? value.low rfl,
    numberAttribute_of_attribute? value.high rfl]
  rfl

theorem ofName?_name_association (association : Association) :
    Association.ofName? association.name = some association := by
  cases association <;> decide

theorem ofName?_name_reduction (reduction : Reduction) :
    Reduction.ofName? reduction.name = some reduction := by
  cases reduction <;> decide

/-- All parts of a binning are read as they are, save its axes. -/
theorem toValue_binning_eq (value : Binning) :
    (ofValue (.binning value)).toValue =
      (axesOf .binning (axesJson (value.axes.map Axis.toSpec))).bind fun specs =>
        (specs.mapM fun spec : AxisSpec Float =>
          (spec.resolve 0 none).mapError WireFault.axis).map fun axes =>
            .binning { value with axes } := by
  change (ofValue (.binning value)).binningValue = _
  rw [binningValue, stringAttribute_of_attribute? value.association.name rfl,
    stringAttribute_of_attribute? value.reduction.name rfl,
    requiredAttribute_of_attribute? (axisList (value.axes.map Axis.toSpec)) rfl,
    arrayAttribute_of_attribute? value.values rfl,
    stringAttribute_of_attribute? value.reduced rfl]
  simp only [bind, Except.bind, ofName?_name_association, ofName?_name_reduction, orFault]
  rfl

theorem toValue_binning {value : Binning} (storable : ∀ axis ∈ value.axes, axis.Storable) :
    (ofValue (.binning value)).toValue = .ok (.binning value) := by
  have specs : ∀ spec ∈ value.axes.map Axis.toSpec, spec.Storable :=
    List.forall_mem_map.mpr fun axis isAxis => (storable axis isAxis).toSpec
  have axes : (value.axes.map Axis.toSpec).mapM
      (fun spec : AxisSpec Float => (spec.resolve 0 none).mapError WireFault.axis) =
        .ok value.axes := by
    rw [List.mapM_map]
    refine mapM_eq_pure fun axis member => ?_
    rw [Function.comp_apply, Axis.resolve_toSpec (storable axis member).checked]
    rfl
  rw [toValue_binning_eq, axesOf_axesJson_of_storable .binning specs, Except.bind, axes]
  rfl

/-- The index of a bin is the one part that may be lost. -/
theorem toValue_bin_eq (value : Bin Float) :
    (ofValue (.bin value)).toValue =
      .ok (.bin { value with
        index := ((ofValue (.bin value)).attribute? "index").bind fun found =>
          found.value.natural? }) := by
  change (ofValue (.bin value)).binValue = _
  rw [binValue, numberAttribute_of_attribute? value.value rfl,
    numberAttribute_of_attribute? value.low rfl,
    numberAttribute_of_attribute? value.high rfl,
    numberAttribute_of_attribute? value.center rfl]
  rfl

theorem toValue_bin {value : Bin Float} (storable : ∀ index ∈ value.index, index < 2 ^ 63) :
    (ofValue (.bin value)).toValue = .ok (.bin value) := by
  have index : (((ofValue (.bin value)).attribute? "index").bind fun found =>
      found.value.natural?) = value.index := by
    obtain ⟨index, number, low, high, center⟩ := value
    cases index with
    | none =>
        rfl
    | some index =>
        exact natural?_toInt_ofNat (storable index rfl)
  rw [toValue_bin_eq, index]

theorem toValue_aabb (value : Box) : (ofValue (.aabb value)).toValue = .ok (.aabb value) := by
  have low : (ofValue (.aabb value)).pointAttribute "min" = .ok value.low :=
    pointAttribute_of_attribute? _ rfl
  have high : (ofValue (.aabb value)).pointAttribute "max" = .ok value.high :=
    pointAttribute_of_attribute? _ rfl
  change ((ofValue (.aabb value)).pointAttribute "min").bind _ = _
  rw [low]
  change ((ofValue (.aabb value)).pointAttribute "max").bind _ = _
  rw [high]
  rfl

theorem elementOf?_ofValue (value : ValuePosition Float) :
    (ofValue (.valuePosition value)).elementOf? = value.element := by
  obtain ⟨number, position, element⟩ := value
  cases element with
  | none =>
      rfl
  | some element =>
      have association :
          ((ofValue (.valuePosition ⟨number, position, some element⟩)).attribute? "assoc").bind
            (fun found => found.value.string?.bind Association.ofName?) =
              some element.association :=
        ofName?_name_association element.association
      rw [elementOf?, int64Attribute?_of_attribute? element.rank rfl,
        int64Attribute?_of_attribute? element.domain rfl,
        int64Attribute?_of_attribute? element.index rfl, association]
      rfl

theorem toValue_valuePosition (value : ValuePosition Float) :
    (ofValue (.valuePosition value)).toValue = .ok (.valuePosition value) := by
  change (ofValue (.valuePosition value)).positionValue = _
  rw [positionValue, numberAttribute_of_attribute? value.value rfl,
    pointAttribute_of_attribute? value.position rfl, elementOf?_ofValue]
  rfl

section Lineout

variable (value : Lineout)

/-- The attributes that every lineout has. -/
def lineoutBase : List (String × Wire) :=
  [("empty_value", double value.emptyValue), ("samples", count value.coordinates.length)]

def lineoutColumns : List (String × Wire) :=
  value.columns.entries.map fun entry => (entry.1, doubles entry.2)

theorem keys_lineoutColumns : Entries.keys (lineoutColumns value) = value.columns.keys := by
  simp [Entries.keys, lineoutColumns, Table.keys]

theorem attributes_lineout :
    (ofValue (.lineout value)).attributes =
      Entries.insertAll (lineoutBase value) (lineoutColumns value) := rfl

theorem nodup_keys_attributes_lineout :
    (Entries.keys (ofValue (.lineout value)).attributes).Nodup := by
  have baseDistinct : (Entries.keys (lineoutBase value)).Nodup := by
    simp [Entries.keys, lineoutBase]
  exact Entries.nodup_keys_insertAll baseDistinct (lineoutColumns value)

/-- The attributes of a lineout are a double, an integer and arrays of doubles. -/
theorem mem_attributes_lineout {value : Lineout} {entry : String × Wire}
    (member : entry ∈ (ofValue (.lineout value)).attributes) :
    entry.2 = double value.emptyValue ∨ entry.2 = count value.coordinates.length ∨
      ∃ column, entry.2 = doubles column := by
  have found := Entries.get?_eq_some_of_mem (nodup_keys_attributes_lineout value) member
  rcases Entries.get?_insertAll_cases found with inBase | inColumns
  · rcases List.mem_pair.mp (Entries.mem_of_get?_eq_some inBase) with first | second
    · exact .inl (congrArg Prod.snd first)
    · exact .inr (.inl (congrArg Prod.snd second))
  · obtain ⟨column, _, same⟩ := List.mem_map.mp inColumns
    exact .inr (.inr ⟨column.2, (congrArg Prod.snd same).symm⟩)

/-- The variables that are told apart from the attributes. -/
def keptColumns : Table (List Float) :=
  value.columns.restrict fun key => key != "empty_value" && key != "samples"

theorem filter_attributes_lineout :
    (ofValue (.lineout value)).attributes.filter
        (fun entry => entry.1 != "empty_value" && entry.1 != "samples") =
      (keptColumns value).entries.map fun entry => (entry.1, doubles entry.2) := by
  have distinct : (Entries.keys (lineoutColumns value)).Nodup := by
    rw [keys_lineoutColumns]
    exact value.columns.distinct
  have fresh : ∀ key ∈ Entries.keys (lineoutColumns value),
      (key != "empty_value" && key != "samples") = true →
        key ∉ Entries.keys (lineoutBase value) := by
    intro key _ kept known
    simp [lineoutBase, Entries.keys] at known
    simp at kept
    tauto
  rw [attributes_lineout, Entries.filter_insertAll distinct fresh]
  simp [lineoutBase, lineoutColumns, keptColumns, Table.restrict, List.filter_map,
    Function.comp_def]

theorem coordinates_lineout :
    (value.coordinates.map pointJson).mapM (pointOf .lineout) = .ok value.coordinates := by
  rw [List.mapM_map]
  exact mapM_eq_pure fun point _ => pointOf_pointJson .lineout point

theorem columns_lineout :
    ((keptColumns value).entries.map fun entry => (entry.1, doubles entry.2)).mapM
        (fun entry : String × Wire => do
          let array ← arrayOf .lineout entry.2.value
          return (entry.1, array.elements)) =
      .ok (keptColumns value).entries := by
  rw [List.mapM_map]
  refine mapM_eq_pure fun entry _ => ?_
  rw [Function.comp_apply, arrayOf_doubles]
  rfl

theorem toValue_lineout_eq :
    (ofValue (.lineout value)).toValue =
      ((ofValue (.lineout value)).numberAttribute "empty_value").map fun emptyValue =>
        .lineout ⟨emptyValue, value.coordinates, keptColumns value⟩ := by
  have items : (ofValue (.lineout value)).value = .array (value.coordinates.map pointJson) := rfl
  change (ofValue (.lineout value)).lineoutValue = _
  rw [lineoutValue, filter_attributes_lineout, columns_lineout, items]
  change ((value.coordinates.map pointJson).mapM (pointOf .lineout)).bind _ = _
  rw [coordinates_lineout]
  change ((ofValue (.lineout value)).numberAttribute "empty_value").bind (fun emptyValue =>
    Except.ok (Value.lineout
      ⟨emptyValue, value.coordinates, .ofList (keptColumns value).entries⟩)) = _
  rw [Table.ofList_entries]
  cases (ofValue (.lineout value)).numberAttribute "empty_value" with
  | error fault =>
      rfl
  | ok emptyValue =>
      rfl

/-- The empty value of a lineout is read unless a variable stands in its place. -/
theorem numberAttribute_lineout (free : "empty_value" ∉ value.columns.keys) :
    (ofValue (.lineout value)).numberAttribute "empty_value" = .ok value.emptyValue := by
  refine numberAttribute_of_attribute? _ ?_
  rw [attribute?, attributes_lineout, Entries.get?_insertAll_of_not_mem]
  · rfl
  · rwa [keys_lineoutColumns]

theorem numberAttribute_lineout_of_mem (taken : "empty_value" ∈ value.columns.keys) :
    (ofValue (.lineout value)).numberAttribute "empty_value" =
      .error (.payload .lineout (.attributeNotNumber "empty_value")) := by
  obtain ⟨⟨_, column⟩, member, rfl⟩ := List.mem_map.mp taken
  have distinct : (Entries.keys (lineoutColumns value)).Nodup := by
    rw [keys_lineoutColumns]
    exact value.columns.distinct
  have found : (ofValue (.lineout value)).attribute? "empty_value" = some (doubles column) :=
    Entries.get?_insertAll_of_mem distinct (List.mem_map.mpr ⟨("empty_value", column), member, rfl⟩)
  rw [numberAttribute, requiredAttribute_of_attribute? _ found]
  rfl

theorem keptColumns_of_free (noEmptyValue : "empty_value" ∉ value.columns.keys)
    (noSamples : "samples" ∉ value.columns.keys) : keptColumns value = value.columns := by
  have entries : (keptColumns value).entries = value.columns.entries := by
    refine List.filter_eq_self.mpr fun entry member => ?_
    have known : entry.1 ∈ value.columns.keys := List.mem_map_of_mem member
    have notEmptyValue : entry.1 ≠ "empty_value" := fun same => noEmptyValue (same ▸ known)
    have notSamples : entry.1 ≠ "samples" := fun same => noSamples (same ▸ known)
    simp [notEmptyValue, notSamples]
  rw [← Table.ofList_entries (keptColumns value), entries, Table.ofList_entries]

end Lineout

theorem toValue_lineout {value : Lineout} (noEmptyValue : "empty_value" ∉ value.columns.keys)
    (noSamples : "samples" ∉ value.columns.keys) :
    (ofValue (.lineout value)).toValue = .ok (.lineout value) := by
  rw [toValue_lineout_eq, numberAttribute_lineout value noEmptyValue,
    keptColumns_of_free value noEmptyValue noSamples]
  rfl

/-! ## All kinds -/

/-- A value that can be stored is what its stored form means. -/
theorem toValue_ofValue {value : Value} (storable : value.Storable) :
    (ofValue value).toValue = .ok value := by
  cases value with
  | bool value =>
      rfl
  | int value =>
      change (orFault .int .notInteger (Number.int64? value.toInt)).map Value.int = _
      rw [int64?_toInt]
      rfl
  | double value =>
      change (orFault .double .notNumber (number? (numberJson value))).map Value.double = _
      rw [number?_numberJson]
      rfl
  | string text =>
      rfl
  | vector point =>
      change (pointOf .vector (pointJson point)).map Value.vector = _
      rw [pointOf_pointJson]
      rfl
  | array numbers =>
      change (arrayOf .array (arrayJson numbers)).map Value.array = _
      rw [arrayOf_arrayJson .array storable]
      rfl
  | field name component =>
      exact toValue_field name component
  | topology name =>
      rfl
  | histogram value =>
      exact toValue_histogram value
  | binning value =>
      exact toValue_binning storable
  | bin value =>
      exact toValue_bin storable
  | axisList specs =>
      change (axesOf .axisList (axesJson specs)).map Value.axisList = _
      rw [axesOf_axesJson_of_storable .axisList storable]
      rfl
  | aabb value =>
      exact toValue_aabb value
  | valuePosition value =>
      exact toValue_valuePosition value
  | lineout value =>
      exact toValue_lineout storable.1 storable.2
  | null =>
      rfl

/-- The identifier is no part of the meaning. -/
theorem toValue_withName (wire : Wire) (name : String) :
    (wire.withName name).toValue = wire.toValue := by
  obtain ⟨kind, value, attributes, former⟩ := wire
  cases kind <;> rfl

end Wire

end InSitu
