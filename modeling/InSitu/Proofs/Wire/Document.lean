import InSitu.Proofs.Wire.RoundTrip
import InSitu.Wire.Json

/-!
# Stored values as documents

The record of a stored value is read back as it was written if the names of its attributes are
distinct and its payload is one that sorting the fields of objects leaves alone.  Both hold of what
a value is stored as.
-/

namespace InSitu

theorem Kind.ofName?_name (kind : Kind) : Kind.ofName? kind.name = some kind := by
  cases kind <;> decide

namespace Json

theorem sorted?_eq_self_iff {json : Json} :
    json.sorted? = some json ↔ json.isReadable = true ∧ json.sorted = json := by
  rw [sorted?]
  split
  · rename_i readable
    simp [readable]
  · rename_i unreadable
    simp [unreadable]

theorem sorted?_array {items : List Json} (inner : ∀ item ∈ items, item.sorted? = some item) :
    (array items).sorted? = some (array items) := by
  have parts : allReadable items = true ∧ sortedItems items = items := by
    induction items with
    | nil =>
        exact ⟨rfl, rfl⟩
    | cons item rest inductionHypothesis =>
        obtain ⟨readable, sorted⟩ := sorted?_eq_self_iff.mp (inner item List.mem_cons_self)
        obtain ⟨restReadable, restSorted⟩ := inductionHypothesis fun other member =>
          inner other (List.mem_cons_of_mem item member)
        rw [allReadable, sortedItems, readable, restReadable, sorted, restSorted]
        exact ⟨rfl, rfl⟩
  exact sorted?_eq_self_iff.mpr ⟨parts.1, congrArg array parts.2⟩

theorem sorted?_object {fields : List (String × Json)}
    (inner : ∀ field ∈ fields, field.2.sorted? = some field.2)
    (ordered : sortFields fields = fields) : (object fields).sorted? = some (object fields) := by
  have parts : fieldsReadable fields = true ∧ sortedFields fields = fields := by
    clear ordered
    induction fields with
    | nil =>
        exact ⟨rfl, rfl⟩
    | cons field rest inductionHypothesis =>
        obtain ⟨readable, sorted⟩ := sorted?_eq_self_iff.mp (inner field List.mem_cons_self)
        obtain ⟨restReadable, restSorted⟩ := inductionHypothesis fun other member =>
          inner other (List.mem_cons_of_mem field member)
        rw [fieldsReadable, sortedFields, readable, restReadable, sorted, restSorted]
        exact ⟨rfl, rfl⟩
  refine sorted?_eq_self_iff.mpr ⟨parts.1, congrArg object ?_⟩
  rw [parts.2, ordered]

end Json

theorem sorted?_finiteOrNull (x : Float) : (finiteOrNull x).sorted? = some (finiteOrNull x) := by
  rw [finiteOrNull]
  split <;> rfl

theorem AxisLiteral.sorted?_toSortedJson (literal : AxisLiteral Float) :
    literal.toSortedJson.sorted? = some literal.toSortedJson := by
  rw [toSortedJson, sortFields_fields]
  refine Json.sorted?_object (fun field member => ?_) literal.sortFields_orderedFields
  have edgesSorted (edges : List Float) :
      (Json.array (edges.map finiteOrNull)).sorted? =
        some (Json.array (edges.map finiteOrNull)) := by
    refine Json.sorted?_array fun item isItem => ?_
    obtain ⟨x, _, rfl⟩ := List.mem_map.mp isItem
    exact sorted?_finiteOrNull x
  simp only [orderedFields, List.mem_append, List.mem_singleton, Option.mem_toList,
    Option.map_eq_some_iff] at member
  rcases member with ((((⟨edges, _, rfl⟩ | rfl) | ⟨high, _, rfl⟩) | ⟨low, _, rfl⟩) | rfl) |
    ⟨count, _, rfl⟩
  · exact edgesSorted edges
  · rfl
  · exact sorted?_finiteOrNull high
  · exact sorted?_finiteOrNull low
  · rfl
  · rfl

namespace Wire

mutual

/-- A stored value whose record determines it. -/
def Plain : Wire → Prop
  | ⟨_, value, attributes, _⟩ =>
    value.sorted? = some value ∧ (Entries.keys attributes).Nodup ∧ PlainAttributes attributes

def PlainAttributes : List (String × Wire) → Prop
  | [] => True
  | (_, wire) :: rest => Plain wire ∧ PlainAttributes rest

end

def payloadFields : Json → List (String × Json)
  | .null => []
  | value => [("value", value)]

def attributeFields : List (String × Wire) → List (String × Json)
  | [] => []
  | attributes => [("attrs", .object (attributesJson attributes))]

def nameFields (name : Option String) : List (String × Json) :=
  (name.map fun name => ("name", Json.string name)).toList

theorem toJson_mk (kind : Kind) (value : Json) (attributes : List (String × Wire))
    (name : Option String) :
    toJson ⟨kind, value, attributes, name⟩ =
      .object (("type", .string kind.name) ::
        (payloadFields value ++ (attributeFields attributes ++ nameFields name))) := by
  cases value <;> cases attributes <;> rfl

theorem draftOf?_nameFields (name : Option String) :
    draftOf? (nameFields name) = some { name := name.map some } := by
  cases name with
  | none =>
      rfl
  | some name =>
      rfl

theorem draftOf?_attributeFields {attributes : List (String × Wire)}
    (distinct : (Entries.keys attributes).Nodup)
    (read : attributesOf? (attributesJson attributes) = some attributes)
    {fields : List (String × Json)} {name : Option (Option String)}
    (rest : draftOf? fields = some { name := name }) :
    ∃ entered, entered.getD [] = attributes ∧
      draftOf? (attributeFields attributes ++ fields) =
        some { attributes := entered, name := name } := by
  have inserted : Entries.insertAll [] attributes = attributes :=
    Entries.insertAll_eq_append distinct
  cases attributes with
  | nil =>
      exact ⟨none, rfl, rest⟩
  | cons first others =>
      refine ⟨some (first :: others), rfl, ?_⟩
      simp [attributeFields, draftOf?, rest, read, Draft.enterAttributes, inserted]

theorem draftOf?_payloadFields {value : Json} (payload : value.sorted? = some value)
    {fields : List (String × Json)} {attributes : Option (List (String × Wire))}
    {name : Option (Option String)}
    (rest : draftOf? fields = some { attributes := attributes, name := name }) :
    ∃ entered, entered.getD .null = value ∧
      draftOf? (payloadFields value ++ fields) =
        some { value := entered, attributes := attributes, name := name } := by
  cases value with
  | null =>
      exact ⟨none, rfl, rest⟩
  | _ =>
      refine ⟨some _, rfl, ?_⟩
      simp [payloadFields, draftOf?, rest, payload, Draft.enterValue]

mutual

/-- A plain stored value is read back from its record. -/
theorem ofJson?_toJson : (wire : Wire) → wire.Plain → ofJson? (toJson wire) = some wire
  | ⟨kind, value, attributes, name⟩, ⟨payload, distinct, plain⟩ => by
      have read := attributesOf?_attributesJson attributes plain
      obtain ⟨enteredAttributes, isAttributes, fromAttributes⟩ :=
        draftOf?_attributeFields distinct read (draftOf?_nameFields name)
      obtain ⟨enteredValue, isValue, fromValue⟩ := draftOf?_payloadFields payload fromAttributes
      have isName : (name.map some).getD none = name := by
        cases name <;> rfl
      rw [toJson_mk, ofJson?, draftOf?, fromValue]
      simp [Draft.enterKind, Kind.ofJson?, Kind.ofName?_name, Draft.finish?, isValue,
        isAttributes, isName]

theorem attributesOf?_attributesJson : (attributes : List (String × Wire)) →
    PlainAttributes attributes → attributesOf? (attributesJson attributes) = some attributes
  | [], _ => rfl
  | (name, wire) :: rest, ⟨wirePlain, restPlain⟩ => by
      have first := ofJson?_toJson wire wirePlain
      have others := attributesOf?_attributesJson rest restPlain
      rw [attributesJson, attributesOf?, first, others]
      rfl

end

/-! ## Values -/

theorem sorted?_numberJson (x : Float) : (numberJson x).sorted? = some (numberJson x) := by
  rw [numberJson]
  split
  · rfl
  · split <;> rfl

theorem sorted?_arrayJson (array : NumericArray) :
    (arrayJson array).sorted? = some (arrayJson array) := by
  refine Json.sorted?_array fun item isItem => ?_
  obtain ⟨x, _, rfl⟩ := List.mem_map.mp isItem
  split
  · rfl
  · exact sorted?_numberJson x

theorem sorted?_pointJson (point : Point Float) :
    (pointJson point).sorted? = some (pointJson point) := by
  refine Json.sorted?_array fun item isItem => ?_
  obtain ⟨x, _, rfl⟩ := List.mem_map.mp isItem
  exact sorted?_numberJson x

theorem sorted?_axesJson (specs : List (AxisSpec Float)) :
    (axesJson specs).sorted? = some (axesJson specs) := by
  refine Json.sorted?_array fun item isItem => ?_
  obtain ⟨spec, _, rfl⟩ := List.mem_map.mp isItem
  exact spec.toLiteral.sorted?_toSortedJson

theorem plain_of_sorted? {kind : Kind} {value : Json} (payload : value.sorted? = some value) :
    (plain kind value).Plain :=
  ⟨payload, List.nodup_nil, trivial⟩

theorem plainAttributes_iff (attributes : List (String × Wire)) :
    PlainAttributes attributes ↔ ∀ entry ∈ attributes, entry.2.Plain := by
  induction attributes with
  | nil =>
      simp [PlainAttributes]
  | cons entry rest inductionHypothesis =>
      simp [PlainAttributes, inductionHypothesis]

/-- What a value is stored as is determined by its record. -/
theorem plain_ofValue (value : Value) : (ofValue value).Plain := by
  have ofDouble (x : Float) : (double x).Plain := plain_of_sorted? (sorted?_numberJson x)
  have ofDoubles (xs : List Float) : (doubles xs).Plain := plain_of_sorted? (sorted?_arrayJson _)
  have ofVector (point : Point Float) : (vector point).Plain :=
    plain_of_sorted? (sorted?_pointJson point)
  have ofAxisList (specs : List (AxisSpec Float)) : (axisList specs).Plain :=
    plain_of_sorted? (sorted?_axesJson specs)
  cases value with
  | bool value =>
      exact plain_of_sorted? rfl
  | int value =>
      exact plain_of_sorted? rfl
  | double value =>
      exact ofDouble value
  | string text =>
      exact plain_of_sorted? rfl
  | vector point =>
      exact ofVector point
  | array numbers =>
      exact plain_of_sorted? (sorted?_arrayJson numbers)
  | field name component =>
      cases component with
      | none =>
          exact plain_of_sorted? rfl
      | some component =>
          exact ⟨rfl, by simp [Entries.keys], plain_of_sorted? rfl, trivial⟩
  | topology name =>
      exact plain_of_sorted? rfl
  | histogram value =>
      exact ⟨rfl, by simp [Entries.keys], ofDoubles _, ofDouble _, ofDouble _, plain_of_sorted? rfl,
        plain_of_sorted? rfl, trivial⟩
  | binning value =>
      exact ⟨rfl, by simp [Entries.keys], ofDoubles _, plain_of_sorted? rfl, plain_of_sorted? rfl,
        plain_of_sorted? rfl, ofAxisList _, trivial⟩
  | bin value =>
      obtain ⟨index, number, low, high, center⟩ := value
      cases index with
      | none =>
          exact ⟨rfl, by simp [Entries.keys], ofDouble _, ofDouble _, ofDouble _, ofDouble _,
            trivial⟩
      | some index =>
          exact ⟨rfl, by simp [Entries.keys], ofDouble _, ofDouble _, ofDouble _, ofDouble _,
            plain_of_sorted? rfl, trivial⟩
  | axisList specs =>
      exact ofAxisList specs
  | aabb value =>
      exact ⟨rfl, by simp [Entries.keys], ofVector _, ofVector _, trivial⟩
  | valuePosition value =>
      obtain ⟨number, position, element⟩ := value
      cases element with
      | none =>
          exact ⟨rfl, by simp [Entries.keys], ofDouble _, ofVector _, trivial⟩
      | some element =>
          exact ⟨rfl, by simp [Entries.keys, elementAttributes], ofDouble _, ofVector _,
            plain_of_sorted? rfl, plain_of_sorted? rfl, plain_of_sorted? rfl,
            plain_of_sorted? rfl, trivial⟩
  | lineout value =>
      have distinct := nodup_keys_attributes_lineout value
      refine ⟨Json.sorted?_array fun item isItem => ?_, distinct,
        (plainAttributes_iff _).mpr fun entry member => ?_⟩
      · obtain ⟨point, _, rfl⟩ := List.mem_map.mp isItem
        exact sorted?_pointJson point
      · rcases mem_attributes_lineout member with same | same | ⟨column, same⟩
        · rw [same]
          exact ofDouble _
        · rw [same]
          exact plain_of_sorted? rfl
        · rw [same]
          exact ofDoubles column
  | null =>
      exact plain_of_sorted? rfl

theorem Plain.withName {wire : Wire} (plain : wire.Plain) (name : String) :
    (wire.withName name).Plain := by
  obtain ⟨kind, value, attributes, former⟩ := wire
  exact plain

end Wire

end InSitu
