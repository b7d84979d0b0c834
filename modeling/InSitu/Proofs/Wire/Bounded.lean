import InSitu.Proofs.Json.Bounded
import InSitu.Proofs.Wire.Meaning
import InSitu.Wire.Json

/-!
# Stored values with bounded numbers

A document with bounded numbers holds stored values with bounded numbers.  What
such a stored value means can be stored again but for two kinds: the integers of
an array and the index of a bin may lie above the signed words, since they are
read from unsigned ones too.
-/

namespace InSitu

/-- All bounds and edges of a literal are finite. -/
structure AxisLiteral.Finite (literal : AxisLiteral Float) : Prop where
  low : ∀ x ∈ literal.low, x.isFinite = true
  high : ∀ x ∈ literal.high, x.isFinite = true
  edges : ∀ edges ∈ literal.edges, ∀ x ∈ edges, x.isFinite = true

theorem isFinite_of_defaulted_bound {record : Json.Record} {name : String} {bound : Option Float}
    (bounded : ∀ field ∈ record.fields, field.2.Bounded)
    (read : record.defaulted name none (Json.optional? Json.number?) = some bound) :
    ∀ x ∈ bound, x.isFinite = true := by
  rintro x rfl
  rcases Json.Record.exists_of_defaulted read with absent | ⟨json, isField, given⟩
  · cases absent
  · exact Json.isFinite_of_number? (bounded _ isField) (Json.of_optional? given)

theorem AxisLiteral.finite_of_ofJson? {json : Json} {literal : AxisLiteral Float}
    (bounded : json.Bounded) (read : AxisLiteral.ofJson? json = some literal) :
    literal.Finite := by
  simp only [ofJson?, Option.bind_eq_bind, Option.bind_eq_some_iff] at read
  obtain ⟨record, viewed, _, _, low, isLow, high, isHigh, _, _, edges, areEdges, _, _, same⟩ := read
  have fields := Json.bounded_record? bounded viewed
  cases same
  refine ⟨isFinite_of_defaulted_bound fields isLow, isFinite_of_defaulted_bound fields isHigh, ?_⟩
  rintro listed rfl x member
  rcases Json.Record.exists_of_defaulted areEdges with absent | ⟨array, isField, given⟩
  · cases absent
  · obtain ⟨part, partBounded, number⟩ :=
      Json.exists_of_listOf? (Json.of_optional? given) member
    exact Json.isFinite_of_number? (partBounded (fields _ isField)) number

theorem AxisLiteral.Finite.toSpec {literal : AxisLiteral Float} (finite : literal.Finite) :
    Yields (fun spec : AxisSpec Float => ∀ x ∈ spec.numbers, x.isFinite = true)
      literal.toSpec := by
  simp only [AxisLiteral.toSpec, yields_bind, yields_pure]
  intro spec laidOut _ _
  rw [AxisLiteral.layout] at laidOut
  split at laidOut
  · rename_i edges listed
    split at laidOut
    · cases laidOut
    · cases laidOut
      exact finite.edges edges listed
  · cases laidOut
    intro x member
    rcases List.mem_append.mp member with isLow | isHigh
    · exact finite.low x (Option.mem_toList.mp isLow)
    · exact finite.high x (Option.mem_toList.mp isHigh)

/-- Without a range of data an axis takes all its numbers from its spec. -/
theorem AxisSpec.finite_resolve {spec : AxisSpec Float}
    (finite : ∀ x ∈ spec.numbers, x.isFinite = true) (defaultCount : Nat) :
    Yields (fun axis : Axis Float => ∀ x ∈ axis.toSpec.numbers, x.isFinite = true)
      (spec.resolve defaultCount none) := by
  obtain ⟨name, clamps, bins⟩ := spec
  cases bins with
  | edged edges =>
      simp only [AxisSpec.resolve, yields_bind, yields_pure]
      intro bins same _ _
      cases same
      exact finite
  | uniform low high count =>
      simp only [AxisSpec.resolve]
      split
      · simp
      · simp
      · rename_i lowBound highBound isLow isHigh
        have lowGiven : low = some lowBound := by
          simpa using isLow
        have highGiven : high = some highBound := by
          simpa using isHigh
        subst lowGiven highGiven
        simp only [yields_bind, yields_pure]
        intro bins same _ _
        cases same
        exact finite

namespace Wire

theorem finite_axesOf (kind : Kind) {json : Json} (bounded : json.Bounded) :
    Yields (fun specs : List (AxisSpec Float) =>
        ∀ spec ∈ specs, ∀ x ∈ spec.numbers, x.isFinite = true) (axesOf kind json) := by
  simp only [axesOf, yields_bind]
  intro literals read
  refine yields_mapM fun literal member => yields_mapError.mpr ?_
  cases listed : Json.listOf? AxisLiteral.ofJson? json with
  | none =>
      rw [listed] at read
      cases read
  | some found =>
      rw [listed] at read
      cases read
      obtain ⟨part, partBounded, isLiteral⟩ := Json.exists_of_listOf? listed member
      exact (AxisLiteral.finite_of_ofJson? (partBounded bounded) isLiteral).toSpec

theorem storable_axesOf (kind : Kind) {json : Json} (bounded : json.Bounded) :
    Yields (fun specs => ∀ spec ∈ specs, spec.Storable) (axesOf kind json) :=
  fun specs read spec member =>
    ⟨wellFormed_axesOf kind json specs read spec member,
      finite_axesOf kind bounded specs read spec member⟩

/-! ## Records -/

mutual

/-- A stored value whose payload and attributes are bounded. -/
def Bounded : Wire → Prop
  | ⟨_, value, attributes, _⟩ => value.Bounded ∧ AttributesBounded attributes

def AttributesBounded : List (String × Wire) → Prop
  | [] => True
  | (_, wire) :: rest => Bounded wire ∧ AttributesBounded rest

end

theorem bounded_iff (wire : Wire) :
    wire.Bounded ↔ wire.value.Bounded ∧ ∀ entry ∈ wire.attributes, entry.2.Bounded := by
  obtain ⟨kind, value, attributes, name⟩ := wire
  rw [Bounded]
  apply and_congr_right
  intro _
  induction attributes with
  | nil =>
      simp [AttributesBounded]
  | cons entry rest inductionHypothesis =>
      simp [AttributesBounded, inductionHypothesis]

/-- What has been entered so far is bounded. -/
structure Draft.Bounded (draft : Draft) : Prop where
  value : ∀ value ∈ draft.value, value.Bounded
  attributes : ∀ attributes ∈ draft.attributes, ∀ entry ∈ attributes, entry.2.Bounded

namespace Draft.Bounded

variable {draft next : Draft} {json : Json}

theorem empty : Draft.Bounded {} := ⟨nofun, nofun⟩

theorem enterKind (bounded : draft.Bounded) (entered : draft.enterKind json = some next) :
    next.Bounded := by
  rw [Draft.enterKind] at entered
  split at entered
  · cases entered
  · obtain ⟨kind, _, rfl⟩ := Option.map_eq_some_iff.mp entered
    exact ⟨bounded.value, bounded.attributes⟩

theorem enterName (bounded : draft.Bounded) (entered : draft.enterName json = some next) :
    next.Bounded := by
  rw [Draft.enterName] at entered
  split at entered
  · cases entered
  · obtain ⟨name, _, rfl⟩ := Option.map_eq_some_iff.mp entered
    exact ⟨bounded.value, bounded.attributes⟩

theorem enterValue (bounded : draft.Bounded) (jsonBounded : json.Bounded)
    (entered : draft.enterValue json = some next) : next.Bounded := by
  rw [Draft.enterValue] at entered
  split at entered
  · cases entered
  · obtain ⟨value, sorted, rfl⟩ := Option.map_eq_some_iff.mp entered
    refine ⟨fun other isValue => ?_, bounded.attributes⟩
    cases isValue
    exact Json.bounded_sorted? jsonBounded sorted

theorem enterAttributes (bounded : draft.Bounded) {attributes : List (String × Wire)}
    (inner : ∀ entry ∈ attributes, entry.2.Bounded)
    (entered : draft.enterAttributes attributes = some next) : next.Bounded := by
  rw [Draft.enterAttributes] at entered
  split at entered
  · cases entered
  · cases entered
    refine ⟨bounded.value, fun others areAttributes entry member => ?_⟩
    cases areAttributes
    exact inner entry (Table.mem_of_get?_ofList ((Table.get?_eq_some_iff).mpr member))

theorem finish? (bounded : draft.Bounded) {wire : Wire} (finished : draft.finish? = some wire) :
    wire.Bounded := by
  obtain ⟨kind, _, rfl⟩ := Option.map_eq_some_iff.mp finished
  rw [bounded_iff]
  constructor
  · cases entered : draft.value with
    | none =>
        trivial
    | some value =>
        exact bounded.value value entered
  · cases entered : draft.attributes with
    | none =>
        simp
    | some attributes =>
        exact bounded.attributes attributes entered

end Draft.Bounded

theorem bounded_attributesOf? {fields : List (String × Json)}
    (each : ∀ field ∈ fields, ∀ wire, ofJson? field.2 = some wire → wire.Bounded)
    {attributes : List (String × Wire)} (read : attributesOf? fields = some attributes) :
    ∀ entry ∈ attributes, entry.2.Bounded := by
  induction fields generalizing attributes with
  | nil =>
      cases read
      simp
  | cons field rest inductionHypothesis =>
      obtain ⟨first, others⟩ := List.forall_mem_cons.mp each
      rw [attributesOf?] at read
      obtain ⟨wire, isWire, restRead⟩ := Option.bind_eq_some_iff.mp read
      obtain ⟨found, isFound, same⟩ := Option.bind_eq_some_iff.mp restRead
      cases same
      exact List.forall_mem_cons.mpr ⟨first wire isWire, inductionHypothesis others isFound⟩

/-- The fields of an object are entered one after the other. -/
theorem bounded_draftOf? {fields : List (String × Json)}
    (bounded : ∀ field ∈ fields, field.2.Bounded)
    (inner : ∀ key nested, (key, Json.object nested) ∈ fields → ∀ attributes,
      attributesOf? nested = some attributes → ∀ entry ∈ attributes, entry.2.Bounded)
    {draft : Draft} (read : draftOf? fields = some draft) : draft.Bounded := by
  induction fields generalizing draft with
  | nil =>
      cases read
      exact .empty
  | cons field rest inductionHypothesis =>
      obtain ⟨key, json⟩ := field
      obtain ⟨first, others⟩ := List.forall_mem_cons.mp bounded
      rw [draftOf?] at read
      obtain ⟨former, isFormer, entered⟩ := Option.bind_eq_some_iff.mp read
      have formerBounded := inductionHypothesis others (fun key nested member =>
        inner key nested (List.mem_cons_of_mem _ member)) isFormer
      split at entered
      · exact formerBounded.enterKind entered
      · split at entered
        · exact formerBounded.enterValue first entered
        · split at entered
          · split at entered
            · obtain ⟨attributes, isRead, last⟩ := Option.bind_eq_some_iff.mp entered
              exact formerBounded.enterAttributes
                (inner key _ List.mem_cons_self attributes isRead) last
            · cases entered
          · split at entered
            · exact formerBounded.enterName entered
            · cases entered
              exact formerBounded

/-- The fields of a record that is written as an array stand in their order. -/
theorem bounded_ofJson?_array {items : List Json} (bounded : ∀ item ∈ items, item.Bounded)
    (inner : ∀ nested, Json.object nested ∈ items → ∀ attributes,
      attributesOf? nested = some attributes → ∀ entry ∈ attributes, entry.2.Bounded)
    {wire : Wire} (read : ofJson? (.array items) = some wire) : wire.Bounded := by
  rw [ofJson?.eq_def] at read
  split at read
  · rename_i same
    cases same
  · rename_i kind same
    cases same
    obtain ⟨first, isFirst, finished⟩ := Option.bind_eq_some_iff.mp read
    exact (Draft.Bounded.empty.enterKind isFirst).finish? finished
  · rename_i kind value same
    cases same
    simp only [Option.bind_eq_bind, Option.bind_eq_some_iff] at read
    obtain ⟨first, isFirst, second, isSecond, finished⟩ := read
    have valueBounded : value.Bounded := bounded value (by simp)
    exact ((Draft.Bounded.empty.enterKind isFirst).enterValue valueBounded isSecond).finish?
      finished
  · rename_i kind value nested same
    cases same
    simp only [Option.bind_eq_bind, Option.bind_eq_some_iff] at read
    obtain ⟨first, isFirst, second, isSecond, attributes, isRead, third, isThird, finished⟩ := read
    have valueBounded : value.Bounded := bounded value (by simp)
    have entered := ((Draft.Bounded.empty.enterKind isFirst).enterValue valueBounded isSecond)
    exact (entered.enterAttributes (inner nested (by simp) attributes isRead) isThird).finish?
      finished
  · rename_i kind value nested name same
    cases same
    simp only [Option.bind_eq_bind, Option.bind_eq_some_iff] at read
    obtain ⟨first, isFirst, second, isSecond, attributes, isRead, third, isThird, fourth, isFourth,
      finished⟩ := read
    have valueBounded : value.Bounded := bounded value (by simp)
    have entered := ((Draft.Bounded.empty.enterKind isFirst).enterValue valueBounded isSecond)
    exact ((entered.enterAttributes (inner nested (by simp) attributes isRead) isThird).enterName
      isFourth).finish? finished
  · cases read

/-- The stored values of a bounded document are bounded. -/
theorem bounded_ofJson? : (json : Json) → json.Bounded → (wire : Wire) →
    ofJson? json = some wire → wire.Bounded
  | .object fields, bounded, wire, read => by
      rw [Json.bounded_object_iff] at bounded
      rw [ofJson?] at read
      obtain ⟨draft, drafted, finished⟩ := Option.bind_eq_some_iff.mp read
      refine (bounded_draftOf? bounded (fun key nested member attributes isRead => ?_)
        drafted).finish? finished
      have nestedBounded := (Json.bounded_object_iff nested).mp (bounded _ member)
      exact bounded_attributesOf? (fun field isField =>
        bounded_ofJson? field.2 (nestedBounded field isField)) isRead
  | .array items, bounded, wire, read => by
      rw [Json.bounded_array_iff] at bounded
      refine bounded_ofJson?_array bounded (fun nested member attributes isRead => ?_) read
      have nestedBounded := (Json.bounded_object_iff nested).mp (bounded _ member)
      exact bounded_attributesOf? (fun field isField =>
        bounded_ofJson? field.2 (nestedBounded field isField)) isRead
  | .null, _, _, read | .bool _, _, _, read | .integer _, _, _, read | .double _, _, _, read
  | .string _, _, _, read | .unreadable, _, _, read => by
      cases read
termination_by json => sizeOf json
decreasing_by
  -- The attributes of a stored value stand two levels further in.
  all_goals
    have inNested := List.sizeOf_lt_of_mem isField
    have inContainer := List.sizeOf_lt_of_mem member
    obtain ⟨key, value⟩ := field
    simp only [Prod.mk.sizeOf_spec, Json.object.sizeOf_spec, Json.array.sizeOf_spec] at *
    omega

end Wire

end InSitu
