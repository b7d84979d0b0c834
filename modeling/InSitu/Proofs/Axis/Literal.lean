import InSitu.Axis.Literal
import InSitu.Proofs.Axis.Locating
import InSitu.Proofs.Number.Unpacked
import InSitu.Proofs.Yielding

/-!
# Axis literals in documents

A literal is read back as it was written, save that a bound without a finite value is lost and that
edges without one are not read at all.
-/

namespace InSitu

/-- Fields with known names are all kept if no name is repeated. -/
theorem Json.knownFields?_eq_self {names : List String} {fields : List (String × Json)}
    (known : ∀ key ∈ fields.map Prod.fst, key ∈ names)
    (distinct : (fields.map Prod.fst).Nodup) : knownFields? names fields = some fields := by
  induction fields with
  | nil =>
      rfl
  | cons field rest inductionHypothesis =>
      rw [List.map_cons, List.forall_mem_cons] at known
      rw [List.map_cons, List.nodup_cons] at distinct
      rw [knownFields?, inductionHypothesis known.2 distinct.2, Option.bind_eq_bind,
        Option.bind_some, if_pos known.1, if_neg distinct.1]
      rfl

namespace AxisLiteral

/-- The fields of a literal in the order of their names. -/
def orderedFields (literal : AxisLiteral Float) : List (String × Json) :=
  (literal.edges.map fun edges => ("bins", .array (edges.map finiteOrNull))).toList ++
  [("clamp", .bool literal.clamps)] ++
  (literal.high.map fun high => ("max_val", finiteOrNull high)).toList ++
  (literal.low.map fun low => ("min_val", finiteOrNull low)).toList ++
  [("name", .string literal.name)] ++
  (literal.count.map fun count => ("num_bins", .integer count)).toList

theorem sortFields_fields (literal : AxisLiteral Float) :
    Json.sortFields literal.fields = literal.orderedFields := by
  obtain ⟨name, low, high, count, edges, clamps⟩ := literal
  cases low <;> cases high <;> cases count <;> cases edges <;>
    simp only [fields, orderedFields, Json.sortFields, Json.insertSorted, Option.map_none,
      Option.map_some, Option.toList_none, Option.toList_some, List.append_nil, List.nil_append,
      List.cons_append, List.foldl_cons, List.foldl_nil, String.reduceLT, String.reduceEq,
      ↓reduceIte]

theorem sortFields_orderedFields (literal : AxisLiteral Float) :
    Json.sortFields literal.orderedFields = literal.orderedFields := by
  obtain ⟨name, low, high, count, edges, clamps⟩ := literal
  cases low <;> cases high <;> cases count <;> cases edges <;>
    simp only [orderedFields, Json.sortFields, Json.insertSorted, Option.map_none,
      Option.map_some, Option.toList_none, Option.toList_some, List.append_nil, List.nil_append,
      List.cons_append, List.foldl_cons, List.foldl_nil, String.reduceLT, String.reduceEq,
      ↓reduceIte]

theorem keys_optionalField {α : Type} (name : String) (field : Option α) (write : α → Json) :
    ((field.map fun value => (name, write value)).toList.map Prod.fst).Sublist [name] := by
  cases field with
  | none =>
      exact List.nil_sublist [name]
  | some value =>
      exact List.Sublist.refl [name]

/-- No field is written that a literal does not have, and none is written twice. -/
theorem keys_orderedFields (literal : AxisLiteral Float) :
    (literal.orderedFields.map Prod.fst).Sublist
      ["bins", "clamp", "max_val", "min_val", "name", "num_bins"] := by
  simp only [orderedFields, List.map_append]
  have edges := keys_optionalField "bins" literal.edges fun edges => .array (edges.map finiteOrNull)
  have high := keys_optionalField "max_val" literal.high finiteOrNull
  have low := keys_optionalField "min_val" literal.low finiteOrNull
  have count := keys_optionalField "num_bins" literal.count fun count => .integer count
  exact ((((edges.append (.refl _)).append high).append low).append (.refl _)).append count

theorem knownFields?_orderedFields (literal : AxisLiteral Float) :
    Json.knownFields? axisFields literal.orderedFields = some literal.orderedFields := by
  have sublist := keys_orderedFields literal
  refine Json.knownFields?_eq_self (fun key member => ?_) (sublist.nodup (by decide))
  have listed : ["bins", "clamp", "max_val", "min_val", "name", "num_bins"] ⊆ axisFields := by
    decide
  exact listed (sublist.subset member)

theorem number?_finiteOrNull_of_isFinite {x : Float} (finite : x.isFinite = true) :
    (finiteOrNull x).number? = some x := by
  rw [finiteOrNull, if_pos finite]
  rfl

theorem number?_finiteOrNull_of_not_isFinite {x : Float} (infinite : x.isFinite = false) :
    (finiteOrNull x).number? = none := by
  rw [finiteOrNull, infinite]
  rfl

/-- A bound without a finite value reads as an open one. -/
theorem optional?_finiteOrNull (x : Float) :
    Json.optional? Json.number? (finiteOrNull x) = some ((some x).filter Float.isFinite) := by
  rw [finiteOrNull]
  cases finite : x.isFinite with
  | false =>
      simp [Json.optional?, Option.filter, finite]
  | true =>
      simp [Json.optional?, Json.number?, Option.filter, finite]

theorem mapM_number?_finiteOrNull (edges : List Float) :
    (edges.map finiteOrNull).mapM Json.number? =
      if edges.all Float.isFinite then some edges else none := by
  induction edges with
  | nil =>
      rfl
  | cons edge edges inductionHypothesis =>
      rw [List.map_cons, List.mapM_cons, inductionHypothesis]
      cases finite : edge.isFinite with
      | false =>
          simp [number?_finiteOrNull_of_not_isFinite finite, finite]
      | true =>
          rw [number?_finiteOrNull_of_isFinite finite]
          by_cases rest : edges.all Float.isFinite
          · simp [finite, rest]
          · simp [finite, rest]

theorem natural?_integer (count : Nat) :
    Json.natural? (.integer count) = if count < UInt64.size then some count else none := by
  simp [Json.natural?, Number.natural?]

/-- What reading a literal requires of its number of bins and its edges. -/
structure Readable (literal : AxisLiteral Float) : Prop where
  count : ∀ count ∈ literal.count, count < UInt64.size
  edges : ∀ edges ∈ literal.edges, edges.all Float.isFinite = true

/-- The literal without the bounds that have no form in a document. -/
def dropUnwritten (literal : AxisLiteral Float) : AxisLiteral Float :=
  { literal with
    low := literal.low.filter Float.isFinite
    high := literal.high.filter Float.isFinite }

theorem record?_toSortedJson (literal : AxisLiteral Float) :
    literal.toSortedJson.record? axisFields = some ⟨literal.orderedFields⟩ := by
  rw [toSortedJson, Json.record?, sortFields_fields, knownFields?_orderedFields]
  rfl

section Fields

variable (literal : AxisLiteral Float)

theorem read_name : (Json.Record.mk literal.orderedFields).required "name" Json.string? =
    some literal.name := by
  obtain ⟨name, low, high, count, edges, clamps⟩ := literal
  cases low <;> cases high <;> cases edges <;>
    simp [orderedFields, Json.Record.required, Entries.get?, Json.string?]

theorem read_low : (Json.Record.mk literal.orderedFields).defaulted "min_val" none
    (Json.optional? Json.number?) = some (literal.low.filter Float.isFinite) := by
  obtain ⟨name, low, high, count, edges, clamps⟩ := literal
  cases low <;> cases high <;> cases count <;> cases edges <;>
    simp [orderedFields, Json.Record.defaulted, Entries.get?, optional?_finiteOrNull]

theorem read_high : (Json.Record.mk literal.orderedFields).defaulted "max_val" none
    (Json.optional? Json.number?) = some (literal.high.filter Float.isFinite) := by
  obtain ⟨name, low, high, count, edges, clamps⟩ := literal
  cases low <;> cases high <;> cases count <;> cases edges <;>
    simp [orderedFields, Json.Record.defaulted, Entries.get?, optional?_finiteOrNull]

theorem read_clamps : (Json.Record.mk literal.orderedFields).defaulted "clamp" false
    Json.bool? = some literal.clamps := by
  obtain ⟨name, low, high, count, edges, clamps⟩ := literal
  cases edges <;>
    simp [orderedFields, Json.Record.defaulted, Entries.get?, Json.bool?]

theorem read_count : (Json.Record.mk literal.orderedFields).defaulted "num_bins" none
    (Json.optional? Json.natural?) =
      if ∀ count ∈ literal.count, count < UInt64.size then some literal.count else none := by
  obtain ⟨name, low, high, count, edges, clamps⟩ := literal
  cases count with
  | none =>
      cases low <;> cases high <;> cases edges <;>
        simp [orderedFields, Json.Record.defaulted, Entries.get?]
  | some count =>
      have read : Json.optional? Json.natural? (.integer count) =
          if count < UInt64.size then some (some count) else none := by
        rw [Json.optional?, natural?_integer]
        · split <;> rfl
        · simp
      cases low <;> cases high <;> cases edges <;>
        simp [orderedFields, Json.Record.defaulted, Entries.get?, read]

theorem read_edges : (Json.Record.mk literal.orderedFields).defaulted "bins" none
    (Json.optional? (Json.listOf? Json.number?)) =
      if ∀ edges ∈ literal.edges, edges.all Float.isFinite = true then some literal.edges
      else none := by
  obtain ⟨name, low, high, count, edges, clamps⟩ := literal
  cases edges with
  | none =>
      cases low <;> cases high <;> cases count <;>
        simp [orderedFields, Json.Record.defaulted, Entries.get?]
  | some edges =>
      have read : Json.optional? (Json.listOf? Json.number?) (.array (edges.map finiteOrNull)) =
          if edges.all Float.isFinite then some (some edges) else none := by
        rw [Json.optional?, Json.listOf?, Json.array?, Option.bind_some,
          mapM_number?_finiteOrNull]
        · split <;> rfl
        · simp
      simp only [orderedFields, Json.Record.defaulted, Entries.get?, Option.map_some,
        Option.toList_some, List.cons_append, List.append_assoc, if_pos, read, Option.mem_some_iff,
        forall_eq']

end Fields

theorem ofJson?_of_readable {literal : AxisLiteral Float} (readable : literal.Readable) :
    ofJson? literal.toSortedJson = some literal.dropUnwritten := by
  rw [ofJson?, record?_toSortedJson]
  simp only [Option.bind_eq_bind, Option.bind_some, read_name, read_low, read_high, read_clamps,
    read_count, read_edges, if_pos readable.count, if_pos readable.edges]
  rfl

theorem ofJson?_of_not_readable {literal : AxisLiteral Float} (unreadable : ¬ literal.Readable) :
    ofJson? literal.toSortedJson = none := by
  rw [ofJson?, record?_toSortedJson]
  simp only [Option.bind_eq_bind, Option.bind_some, read_name, read_low, read_high, read_clamps,
    read_count, read_edges]
  by_cases count : ∀ count ∈ literal.count, count < UInt64.size
  · have edges : ¬ ∀ edges ∈ literal.edges, edges.all Float.isFinite = true :=
      fun edges => unreadable ⟨count, edges⟩
    rw [if_pos count, if_neg edges]
    rfl
  · rw [if_neg count]
    rfl

end AxisLiteral

namespace AxisSpec

/-- A spec that can be asked for, its number of bins within a machine word. -/
structure WellFormed (spec : AxisSpec Float) : Prop where
  checked : spec.check = .ok ()
  counted : ∀ count ∈ spec.toLiteral.count, count < UInt64.size

/-- All bounds and edges of a spec. -/
def numbers (spec : AxisSpec Float) : List Float :=
  match spec.bins with
  | .uniform low high _ => low.toList ++ high.toList
  | .edged edges => edges

/-- The edges that are listed; none of a uniform spec. -/
def listedEdges (spec : AxisSpec Float) : List Float :=
  match spec.bins with
  | .uniform _ _ _ => []
  | .edged edges => edges

/-- The spec with its infinite bounds left open. -/
def openInfinite (spec : AxisSpec Float) : AxisSpec Float :=
  match spec.bins with
  | .uniform low high count =>
    { spec with
      bins := .uniform (low.filter Float.isFinite) (high.filter Float.isFinite) count }
  | .edged _ => spec

theorem openInfinite_of_finite {spec : AxisSpec Float}
    (finite : ∀ x ∈ spec.numbers, x.isFinite = true) : spec.openInfinite = spec := by
  obtain ⟨name, clamps, bins⟩ := spec
  cases bins with
  | edged edges =>
      rfl
  | uniform low high count =>
      have kept (bound : Option Float) (isFinite : ∀ x ∈ bound, x.isFinite = true) :
          bound.filter Float.isFinite = bound := by
        cases bound with
        | none =>
            rfl
        | some x =>
            simp [Option.filter, isFinite x rfl]
      have lowKept := kept low fun x isLow =>
        finite x (List.mem_append_left _ (Option.mem_toList.mpr isLow))
      have highKept := kept high fun x isHigh =>
        finite x (List.mem_append_right _ (Option.mem_toList.mpr isHigh))
      simp only [openInfinite, lowKept, highKept]

theorem check_uniform_iff (name : String) (clamps : Bool) (low high : Option Float)
    (count : Option Nat) :
    (AxisSpec.mk name clamps (.uniform low high count)).check = .ok () ↔
      (∀ x ∈ low, ∀ y ∈ high, x < y) ∧ count ≠ some 0 := by
  rw [check]
  cases low with
  | none =>
      by_cases empty : count = some 0 <;> simp [empty, bind, Except.bind, pure, Except.pure]
  | some x =>
      cases high with
      | none =>
          by_cases empty : count = some 0 <;> simp [empty, bind, Except.bind, pure, Except.pure]
      | some y =>
          by_cases ordered : x < y <;> by_cases empty : count = some 0 <;>
            simp [ordered, empty, bind, Except.bind, pure, Except.pure]

/-- What is left open cannot be out of order. -/
theorem check_openInfinite {spec : AxisSpec Float} (checked : spec.check = .ok ()) :
    spec.openInfinite.check = .ok () := by
  obtain ⟨name, clamps, bins⟩ := spec
  cases bins with
  | edged edges =>
      exact checked
  | uniform low high count =>
      obtain ⟨ordered, nonzero⟩ := (check_uniform_iff name clamps low high count).mp checked
      refine (check_uniform_iff name clamps _ _ count).mpr ⟨?_, nonzero⟩
      intro x isLow y isHigh
      exact ordered x (Option.filter_eq_some_iff.mp isLow).1 y
        (Option.filter_eq_some_iff.mp isHigh).1

theorem readable_toLiteral_iff {spec : AxisSpec Float} (wellFormed : spec.WellFormed) :
    spec.toLiteral.Readable ↔ ∀ x ∈ spec.listedEdges, x.isFinite = true := by
  have counted := wellFormed.counted
  obtain ⟨name, clamps, bins⟩ := spec
  cases bins with
  | edged edges =>
      constructor
      · intro readable
        exact List.all_eq_true.mp (readable.edges edges rfl)
      · intro finite
        refine ⟨counted, fun listed isListed => ?_⟩
        cases isListed
        exact List.all_eq_true.mpr finite
  | uniform low high count =>
      constructor
      · intro _ x listed
        cases listed
      · intro _
        refine ⟨counted, fun edges listed => ?_⟩
        cases listed

theorem toSpec_dropUnwritten {spec : AxisSpec Float} (checked : spec.check = .ok ()) :
    spec.toLiteral.dropUnwritten.toSpec = .ok spec.openInfinite := by
  have laidOut : spec.toLiteral.dropUnwritten.layout = .ok spec.openInfinite := by
    obtain ⟨name, clamps, bins⟩ := spec
    cases bins <;> rfl
  rw [AxisLiteral.toSpec, laidOut]
  change (spec.openInfinite.check.bind fun _ => .ok spec.openInfinite) = _
  rw [check_openInfinite checked]
  rfl

end AxisSpec

/-- A literal is laid out as a spec that can be asked for, if its own number of bins can. -/
theorem AxisLiteral.wellFormed_toSpec {literal : AxisLiteral Float}
    (counted : ∀ count ∈ literal.count, count < UInt64.size) :
    Yields AxisSpec.WellFormed literal.toSpec := by
  simp only [toSpec, yields_bind, yields_pure]
  intro spec laidOut _ checked
  refine ⟨checked, fun count isCount => ?_⟩
  rw [layout] at laidOut
  split at laidOut
  · split at laidOut
    · cases laidOut
    · cases laidOut
      cases isCount
  · cases laidOut
    exact counted count isCount

theorem lt_of_natural? {json : Json} {count : Nat} (read : json.natural? = some count) :
    count < UInt64.size := by
  cases json with
  | integer value =>
      change (if _ then _ else _) = _ at read
      split at read
      · cases read
        omega
      · cases read
  | _ =>
      cases read

/-- A literal that is read has a number of bins within a machine word. -/
theorem AxisLiteral.counted_of_ofJson? {json : Json} {literal : AxisLiteral Float}
    (read : AxisLiteral.ofJson? json = some literal) :
    ∀ count ∈ literal.count, count < UInt64.size := by
  simp only [ofJson?, Option.bind_eq_bind, Option.bind_eq_some_iff] at read
  obtain ⟨record, _, _, _, _, _, _, _, number, isNumber, _, _, _, _, same⟩ := read
  cases same
  rintro count rfl
  rw [Json.Record.defaulted] at isNumber
  split at isNumber
  · rw [Json.optional?.eq_def] at isNumber
    split at isNumber
    · cases isNumber
    · obtain ⟨found, isFound, same⟩ := Option.map_eq_some_iff.mp isNumber
      cases same
      exact lt_of_natural? isFound
  · cases isNumber

/-! ## Axes -/

namespace Axis

/-- An axis that can be asked for, its number of bins within a machine word. -/
structure WellFormed (axis : Axis Float) : Prop where
  checked : axis.check = .ok ()
  counted : ∀ count ∈ axis.toSpec.toLiteral.count, count < UInt64.size

theorem WellFormed.toSpec {axis : Axis Float} (wellFormed : axis.WellFormed) :
    axis.toSpec.WellFormed := by
  obtain ⟨checked, counted⟩ := wellFormed
  refine ⟨?_, counted⟩
  obtain ⟨name, clamps, bins⟩ := axis
  cases bins with
  | edged edges =>
      exact checked
  | uniform low high count =>
      have nonzero := Nat.ne_of_gt (binCount_pos checked)
      refine (AxisSpec.check_uniform_iff name clamps _ _ _).mpr ⟨?_, ?_⟩
      · rintro x isLow y isHigh
        cases isLow
        cases isHigh
        refine Decidable.byContradiction fun unordered => ?_
        simp [check, unordered] at checked
      · intro isZero
        exact nonzero (Option.some.inj isZero)

/-- An axis that is resolved has been checked. -/
theorem wellFormed_resolve {spec : AxisSpec Float} (wellFormed : spec.WellFormed)
    {defaultCount : Nat} (counted : defaultCount < UInt64.size)
    (range : Option (Float × Float)) : Yields WellFormed (spec.resolve defaultCount range) := by
  have given := wellFormed.counted
  obtain ⟨name, clamps, bins⟩ := spec
  cases bins with
  | edged edges =>
      simp only [AxisSpec.resolve, yields_bind, yields_pure]
      intro bins same _ checked
      cases same
      refine ⟨checked, fun count isCount => ?_⟩
      cases isCount
  | uniform low high count =>
      simp only [AxisSpec.resolve]
      split
      · simp
      · simp
      · simp only [yields_bind, yields_pure]
        intro bins same _ checked
        cases same
        refine ⟨checked, fun other isCount => ?_⟩
        cases isCount
        cases count with
        | none =>
            exact counted
        | some count =>
            exact given count rfl

/-- An axis leaves nothing open, so it is resolved as it is. -/
theorem resolve_toSpec {axis : Axis Float} (checked : axis.check = .ok ()) :
    axis.toSpec.resolve 0 none = .ok axis := by
  have resolved : axis.toSpec.resolve 0 none = axis.check.bind fun _ => .ok axis := by
    obtain ⟨name, clamps, bins⟩ := axis
    cases bins <;> rfl
  rw [resolved, checked]
  rfl

end Axis

end InSitu
