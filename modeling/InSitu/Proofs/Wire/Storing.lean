import InSitu.Proofs.Json.Reading
import InSitu.Proofs.Wire.Document
import InSitu.Proofs.Wire.Meaning

/-!
# Stored values as texts

The document of a value with well formed axes nests few levels and holds no integers beyond a
machine word, so its text is read back if its doubles are.  With this a storable value survives all
three steps: its stored form, the document of this form, and the text of the document.
-/

namespace InSitu

namespace Json

theorem itemsLegible_iff (items : List Json) (levels : Nat) :
    ItemsLegible items levels ↔ ∀ item ∈ items, item.Legible levels := by
  induction items with
  | nil =>
      simp [ItemsLegible]
  | cons item rest inductionHypothesis =>
      simp [ItemsLegible, inductionHypothesis]

theorem fieldsLegible_iff (fields : List (String × Json)) (levels : Nat) :
    FieldsLegible fields levels ↔ ∀ field ∈ fields, field.2.Legible levels := by
  induction fields with
  | nil =>
      simp [FieldsLegible]
  | cons field rest inductionHypothesis =>
      simp [FieldsLegible, inductionHypothesis]

theorem legible_array {items : List Json} {levels : Nat}
    (inner : ∀ item ∈ items, item.Legible levels) : (array items).Legible (levels + 1) :=
  ⟨levels.succ_pos, (itemsLegible_iff items levels).mpr inner⟩

theorem legible_object {fields : List (String × Json)} {levels : Nat}
    (inner : ∀ field ∈ fields, field.2.Legible levels) : (object fields).Legible (levels + 1) :=
  ⟨levels.succ_pos, (fieldsLegible_iff fields levels).mpr inner⟩

theorem legible_map_array {α : Type} {elements : List α} {write : α → Json} {levels : Nat}
    (inner : ∀ element ∈ elements, (write element).Legible levels) :
    (array (elements.map write)).Legible (levels + 1) := by
  refine legible_array fun item isItem => ?_
  obtain ⟨element, member, rfl⟩ := List.mem_map.mp isItem
  exact inner element member

theorem legible_toInt (integer : Int64) (levels : Nat) :
    (Json.integer integer.toInt).Legible levels := by
  have low : Int64.minValue.toInt = -2 ^ 63 := rfl
  have high : Int64.maxValue.toInt = 2 ^ 63 - 1 := rfl
  have least := integer.le_toInt
  have greatest := integer.toInt_le
  change -2 ^ 63 ≤ integer.toInt ∧ integer.toInt < 2 ^ 64
  omega

end Json

theorem legible_finiteOrNull (x : Float) (levels : Nat) : (finiteOrNull x).Legible levels := by
  rw [finiteOrNull]
  split <;> trivial

theorem AxisSpec.legible_toSortedJson {spec : AxisSpec Float} (wellFormed : spec.WellFormed)
    (levels : Nat) : spec.toLiteral.toSortedJson.Legible (levels + 2) := by
  have size : UInt64.size = 2 ^ 64 := rfl
  have counts : ∀ count ∈ spec.toLiteral.count, (Json.integer count).Legible (levels + 1) := by
    intro count isCount
    have counted := wellFormed.counted
    obtain ⟨name, clamps, bins⟩ := spec
    cases bins with
    | edged edges =>
        cases isCount
    | uniform low high number =>
        have fits := counted count isCount
        change -2 ^ 63 ≤ (count : Int) ∧ (count : Int) < 2 ^ 64
        omega
  rw [AxisLiteral.toSortedJson, AxisLiteral.sortFields_fields]
  refine Json.legible_object fun field member => ?_
  simp only [AxisLiteral.orderedFields, List.mem_append, List.mem_singleton, Option.mem_toList,
    Option.map_eq_some_iff] at member
  rcases member with ((((⟨edges, _, rfl⟩ | rfl) | ⟨high, _, rfl⟩) | ⟨low, _, rfl⟩) | rfl) |
    ⟨count, isCount, rfl⟩
  · exact Json.legible_map_array fun x _ => legible_finiteOrNull x levels
  · trivial
  · exact legible_finiteOrNull high _
  · exact legible_finiteOrNull low _
  · trivial
  · exact counts count isCount

theorem Value.Storable.wellFormed {value : Value} (storable : value.Storable) :
    value.WellFormed := by
  cases value with
  | binning bins =>
      exact fun axis member => (storable axis member).toWellFormed
  | axisList specs =>
      exact fun spec member => (storable spec member).toWellFormed
  | _ =>
      trivial

namespace Wire

theorem legible_numberJson (x : Float) (levels : Nat) : (numberJson x).Legible levels := by
  rw [numberJson]
  split
  · trivial
  · split <;> trivial

theorem legible_arrayJson (array : NumericArray) (levels : Nat) :
    (arrayJson array).Legible (levels + 1) := by
  refine Json.legible_map_array fun x _ => ?_
  split
  · exact Json.legible_toInt _ levels
  · exact legible_numberJson x levels

theorem legible_pointJson (point : Point Float) (levels : Nat) :
    (pointJson point).Legible (levels + 1) :=
  Json.legible_map_array fun x _ => legible_numberJson x levels

theorem legible_axesJson {specs : List (AxisSpec Float)}
    (wellFormed : ∀ spec ∈ specs, spec.WellFormed) (levels : Nat) :
    (axesJson specs).Legible (levels + 3) :=
  Json.legible_map_array fun spec member =>
    AxisSpec.legible_toSortedJson (wellFormed spec member) levels

/-- A payload of few levels, and attributes without attributes of their own. -/
structure Shallow (wire : Wire) (levels : Nat) : Prop where
  payload : wire.value.Legible (levels + 2)
  attributes : ∀ entry ∈ wire.attributes,
    entry.2.attributes = [] ∧ entry.2.value.Legible levels

theorem legible_payloadFields {value : Json} {levels : Nat} (legible : value.Legible levels) :
    ∀ field ∈ payloadFields value, field.2.Legible levels := by
  intro field member
  cases value with
  | null =>
      cases member
  | _ =>
      rw [List.mem_singleton.mp member]
      exact legible

theorem legible_nameFields (name : Option String) (levels : Nat) :
    ∀ field ∈ nameFields name, field.2.Legible levels := by
  intro field member
  obtain ⟨_, _, rfl⟩ := Option.map_eq_some_iff.mp (Option.mem_toList.mp member)
  trivial

theorem legible_toJson_of_attributes_nil {wire : Wire} {levels : Nat} (plain : wire.attributes = [])
    (payload : wire.value.Legible levels) : (toJson wire).Legible (levels + 1) := by
  obtain ⟨kind, value, attributes, name⟩ := wire
  cases plain
  rw [toJson_mk]
  refine Json.legible_object fun field member => ?_
  rcases List.mem_cons.mp member with rfl | later
  · trivial
  · rcases List.mem_append.mp later with isPayload | isName
    · exact legible_payloadFields payload field isPayload
    · exact legible_nameFields name levels field isName

theorem attributesJson_eq_map (attributes : List (String × Wire)) :
    attributesJson attributes = attributes.map fun entry => (entry.1, toJson entry.2) := by
  induction attributes with
  | nil =>
      rfl
  | cons entry rest inductionHypothesis =>
      rw [attributesJson, inductionHypothesis]
      rfl

theorem Shallow.legible_toJson {wire : Wire} {levels : Nat} (shallow : wire.Shallow levels) :
    (toJson wire).Legible (levels + 3) := by
  obtain ⟨kind, value, attributes, name⟩ := wire
  obtain ⟨payload, flat⟩ := shallow
  rw [toJson_mk]
  refine Json.legible_object fun field member => ?_
  rcases List.mem_cons.mp member with rfl | later
  · trivial
  · rcases List.mem_append.mp later with isPayload | later
    · exact legible_payloadFields payload field isPayload
    · rcases List.mem_append.mp later with isAttributes | isName
      · cases attributes with
        | nil =>
            cases isAttributes
        | cons first rest =>
            rw [List.mem_singleton.mp isAttributes, attributesJson_eq_map]
            refine Json.legible_object fun inner isInner => ?_
            obtain ⟨entry, isEntry, rfl⟩ := List.mem_map.mp isInner
            obtain ⟨plain, legible⟩ := flat entry isEntry
            exact legible_toJson_of_attributes_nil plain legible
      · exact legible_nameFields name _ field isName

/-- What a value is stored as nests few levels. -/
theorem shallow_ofValue {value : Value} (wellFormed : value.WellFormed) (levels : Nat) :
    (ofValue value).Shallow (levels + 3) := by
  have ofDouble (x : Float) : (double x).attributes = [] ∧ (double x).value.Legible (levels + 3) :=
    ⟨rfl, legible_numberJson x _⟩
  have ofDoubles (xs : List Float) :
      (doubles xs).attributes = [] ∧ (doubles xs).value.Legible (levels + 3) :=
    ⟨rfl, legible_arrayJson _ _⟩
  have ofVector (point : Point Float) :
      (vector point).attributes = [] ∧ (vector point).value.Legible (levels + 3) :=
    ⟨rfl, legible_pointJson point _⟩
  have ofInt (integer : Int64) :
      (int integer).attributes = [] ∧ (int integer).value.Legible (levels + 3) :=
    ⟨rfl, Json.legible_toInt integer _⟩
  have ofString (text : String) :
      (string text).attributes = [] ∧ (string text).value.Legible (levels + 3) :=
    ⟨rfl, trivial⟩
  have ofBool (truth : Bool) :
      (bool truth).attributes = [] ∧ (bool truth).value.Legible (levels + 3) :=
    ⟨rfl, trivial⟩
  cases value with
  | bool value =>
      exact ⟨trivial, by simp [ofValue, bool, plain]⟩
  | int value =>
      exact ⟨Json.legible_toInt value _, by simp [ofValue, int, plain]⟩
  | double value =>
      exact ⟨legible_numberJson value _, by simp [ofValue, double, plain]⟩
  | string text =>
      exact ⟨trivial, by simp [ofValue, string, plain]⟩
  | vector point =>
      exact ⟨legible_pointJson point _, by simp [ofValue, vector, plain]⟩
  | array numbers =>
      exact ⟨legible_arrayJson numbers _, by simp [ofValue, plain]⟩
  | field name component =>
      refine ⟨trivial, ?_⟩
      cases component with
      | none =>
          simp [ofValue, composite]
      | some component =>
          simp [ofValue, composite, ofString]
  | topology name =>
      exact ⟨trivial, by simp [ofValue, plain]⟩
  | histogram value =>
      refine ⟨trivial, ?_⟩
      simp [ofValue, composite, count, ofDoubles, ofDouble, ofInt, ofBool]
  | binning value =>
      have specs : ∀ spec ∈ value.axes.map Axis.toSpec, spec.WellFormed :=
        List.forall_mem_map.mpr fun axis isAxis => (wellFormed axis isAxis).toSpec
      have ofAxes : (axisList (value.axes.map Axis.toSpec)).attributes = [] ∧
          (axisList (value.axes.map Axis.toSpec)).value.Legible (levels + 3) :=
        ⟨rfl, legible_axesJson specs levels⟩
      refine ⟨trivial, ?_⟩
      simp [ofValue, composite, ofDoubles, ofString, ofAxes]
  | bin value =>
      refine ⟨trivial, ?_⟩
      obtain ⟨index, number, low, high, center⟩ := value
      cases index with
      | none =>
          simp [ofValue, composite, ofDouble]
      | some index =>
          simp [ofValue, composite, count, ofDouble, ofInt]
  | axisList specs =>
      exact ⟨legible_axesJson wellFormed _, by simp [ofValue, axisList, plain]⟩
  | aabb value =>
      refine ⟨trivial, ?_⟩
      simp [ofValue, composite, ofVector]
  | valuePosition value =>
      refine ⟨trivial, ?_⟩
      obtain ⟨number, position, element⟩ := value
      cases element with
      | none =>
          simp [ofValue, composite, ofDouble, ofVector]
      | some element =>
          simp [ofValue, composite, elementAttributes, ofDouble, ofVector, ofInt, ofString]
  | lineout value =>
      refine ⟨Json.legible_map_array fun point _ => legible_pointJson point _, ?_⟩
      intro entry member
      rcases mem_attributes_lineout member with same | same | ⟨column, same⟩
      · rw [same]
        exact ofDouble _
      · rw [same]
        exact ofInt _
      · rw [same]
        exact ofDoubles column
  | null =>
      exact ⟨trivial, by simp [ofValue, plain]⟩

/-! ## Values -/

/-- The stored form of a value, with the identifier that it was read from if there is one. -/
def recorded (value : Value) : (name : Option String) → Wire
  | none => ofValue value
  | some name => (ofValue value).withName name

theorem toValue_recorded (value : Value) (name : Option String) :
    (recorded value name).toValue = (ofValue value).toValue := by
  cases name with
  | none =>
      rfl
  | some name =>
      exact toValue_withName (ofValue value) name

theorem plain_recorded (value : Value) (name : Option String) : (recorded value name).Plain := by
  cases name with
  | none =>
      exact plain_ofValue value
  | some name =>
      exact (plain_ofValue value).withName name

theorem shallow_recorded {value : Value} (wellFormed : value.WellFormed) (name : Option String)
    (levels : Nat) : (recorded value name).Shallow (levels + 3) := by
  have shallow := shallow_ofValue wellFormed levels
  cases name with
  | none =>
      exact shallow
  | some name =>
      exact ⟨shallow.payload, shallow.attributes⟩

theorem legible_recorded {value : Value} (storable : value.Storable) (name : Option String) :
    (toJson (recorded value name)).Legible Json.depthLimit :=
  (shallow_recorded storable.wellFormed name 121).legible_toJson

/-- Storing a value and reading it back gives the same value, with a name attached or without: by
its stored form, by the document of this form, and by the text of this document if the doubles in
it are read back from their texts. -/
theorem stored_value_is_read_back {value : Value} (storable : value.Storable)
    (name : Option String) :
    (recorded value name).toValue = .ok value ∧
      ofJson? (toJson (recorded value name)) = some (recorded value name) ∧
      ((∀ x ∈ (toJson (recorded value name)).doubles, Json.ReadsBack x) →
        (Json.parse? (Json.compact (toJson (recorded value name)))).bind ofJson? =
          some (recorded value name)) := by
  have meant : (recorded value name).toValue = .ok value := by
    rw [toValue_recorded, toValue_ofValue storable]
  have read := ofJson?_toJson (recorded value name) (plain_recorded value name)
  refine ⟨meant, read, fun readBack => ?_⟩
  rw [Json.parse?_compact (legible_recorded storable name) readBack]
  exact read

/-- Bins over two axes, one of which lists its edges; two of the bins hold no finite number. -/
def unevenBins : Value :=
  .binning
    { values := [1.5, Number.notANumber, -0.0, Number.infinity]
      association := .cell
      reduced := "density"
      reduction := .avg
      axes := [⟨"x", true, .uniform 0.0 1.5 2⟩, ⟨"y", false, .edged [-0.5, 0.0, 1.5]⟩] }

/-- Integers, and nothing but the form of the numbers says so. -/
def countedCells : Value := .array ⟨.int64, [3.0, -2.0]⟩

theorem storable_unevenBins : unevenBins.Storable := by
  intro axis member
  rcases List.mem_pair.mp member with rfl | rfl
  · exact ⟨⟨rfl, by decide⟩, by decide +kernel⟩
  · exact ⟨⟨rfl, by decide⟩, by decide +kernel⟩

theorem storable_countedCells : countedCells.Storable := by
  have three : Number.IsInteger 3.0 (3 : Int64).toInt := by
    change ((6755399441055744 : Int) : ℚ) * 2 ^ (-51 : Int) = 3
    norm_num
  have minusTwo : Number.IsInteger (-2.0) (-2 : Int64).toInt := by
    change ((-4503599627370496 : Int) : ℚ) * 2 ^ (-51 : Int) = -2
    norm_num
  refine .inr ⟨rfl, by simp, fun x member => ?_⟩
  rcases List.mem_pair.mp member with rfl | rfl
  · exact ⟨3, three⟩
  · exact ⟨-2, minusTwo⟩

theorem doubles_unevenBins :
    (toJson (recorded unevenBins (some "mean_density"))).doubles =
      [1.5, -0.0, 1.5, 0.0, -0.5, 0.0, 1.5] := by
  decide +kernel

theorem readsBack_doubles_unevenBins :
    ∀ x ∈ (toJson (recorded unevenBins (some "mean_density"))).doubles, Json.ReadsBack x := by
  have oneAndAHalf : Json.ReadsBack 1.5 :=
    Json.readsBack_of_text "1.5" ⟨false, ['1'], ['5'], none⟩ (by decide) (by decide +kernel)
      (by cbv) rfl
  have minusZero : Json.ReadsBack (-0.0) :=
    Json.readsBack_of_text "-0.0" ⟨true, ['0'], ['0'], none⟩ (by decide) (by decide +kernel)
      (by cbv) rfl
  have zero : Json.ReadsBack 0.0 :=
    Json.readsBack_of_text "0.0" ⟨false, ['0'], ['0'], none⟩ (by decide) (by decide +kernel)
      (by cbv) rfl
  have minusHalf : Json.ReadsBack (-0.5) :=
    Json.readsBack_of_text "-0.5" ⟨true, ['0'], ['5'], none⟩ (by decide) (by decide +kernel)
      (by cbv) rfl
  rw [doubles_unevenBins]
  simp [oneAndAHalf, minusZero, zero, minusHalf]

theorem unevenBins_and_countedCells_are_read_back :
    unevenBins.Storable ∧ countedCells.Storable ∧
      (recorded unevenBins (some "mean_density")).toValue = .ok unevenBins ∧
      (Json.parse? (Json.compact (toJson (recorded unevenBins (some "mean_density"))))).bind
          ofJson? = some (recorded unevenBins (some "mean_density")) ∧
      (recorded countedCells none).toValue = .ok countedCells ∧
      (Json.parse? (Json.compact (toJson (recorded countedCells none)))).bind ofJson? =
        some (recorded countedCells none) := by
  obtain ⟨bins, _, binsText⟩ :=
    stored_value_is_read_back storable_unevenBins (some "mean_density")
  obtain ⟨cells, _, cellsText⟩ := stored_value_is_read_back storable_countedCells none
  have noDoubles : (toJson (recorded countedCells none)).doubles = [] := by
    decide +kernel
  exact ⟨storable_unevenBins, storable_countedCells, bins,
    binsText readsBack_doubles_unevenBins, cells, cellsText (by simp [noDoubles])⟩

end Wire

end InSitu
