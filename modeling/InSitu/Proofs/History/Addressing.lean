import InSitu.Proofs.History.Window

/-!
# Addresses by index

An index counts entries from the oldest or from the newest one.  A single index
and a range of indices are resolved in different ways, and the two ends of a
range counted back change places; all of them agree on which entries are meant.
The steps between an index and a place are differences of words, and none of
them leaves the words.
-/

namespace InSitu

/-- A range resolved to exactly the positions with a property: to nothing if no
position has it, and otherwise to a span in which all of them lie. -/
structure Addresses (resolved : Option Span) (size : Nat) (selected : Nat → Prop) : Prop where
  none_iff : resolved = none ↔ ∀ position < size, ¬ selected position
  within : ∀ span, resolved = some span → span.first ≤ span.last ∧ span.last < size
  selected_iff : ∀ span, resolved = some span → ∀ position < size,
    (span.first ≤ position ∧ position ≤ span.last ↔ selected position)

theorem addresses_none {size : Nat} {selected : Nat → Prop}
    (missed : ∀ position < size, ¬ selected position) : Addresses none size selected where
  none_iff := iff_of_true rfl missed
  within _ impossible := by
    cases impossible
  selected_iff _ impossible := by
    cases impossible

theorem addresses_some {span : Span} {size : Nat} {selected : Nat → Prop}
    (ordered : span.first ≤ span.last) (inside : span.last < size)
    (selects : ∀ position < size,
      (span.first ≤ position ∧ position ≤ span.last ↔ selected position)) :
    Addresses (some span) size selected where
  none_iff := by
    have reached := (selects span.last inside).mp ⟨ordered, le_refl _⟩
    exact iff_of_false (Option.some_ne_none span) fun missed => missed span.last inside reached
  within := by
    rintro _ ⟨⟩
    exact ⟨ordered, inside⟩
  selected_iff := by
    rintro _ ⟨⟩
    exact selects

namespace Number

/-- The difference of two words, nothing if no word holds it. -/
def difference? (x y : Int64) : Option Int64 := int64? (x.toInt - y.toInt)

theorem exists_difference? {x y : Int64} (atLeast : -2 ^ 63 ≤ x.toInt - y.toInt)
    (below : x.toInt - y.toInt < 2 ^ 63) :
    ∃ z, difference? x y = some z ∧ z.toInt = x.toInt - y.toInt := by
  have least : Int64.minValue.toInt = -2 ^ 63 := rfl
  have greatest : Int64.maxValue.toInt = 2 ^ 63 - 1 := rfl
  refine ⟨Int64.ofInt (x.toInt - y.toInt), if_pos ⟨by omega, by omega⟩, ?_⟩
  exact Int64.toInt_ofInt_of_le atLeast below

theorem toInt_min (x y : Int64) : (min x y).toInt = min x.toInt y.toInt := by
  change (if x ≤ y then x else y).toInt = _
  split <;> rename_i order
  · exact (min_eq_left (Int64.le_iff_toInt_le.mp order)).symm
  · exact (min_eq_right (not_le.mp (mt Int64.le_iff_toInt_le.mpr order)).le).symm

theorem toInt_max (x y : Int64) : (max x y).toInt = max x.toInt y.toInt := by
  change (if x ≤ y then y else x).toInt = _
  split <;> rename_i order
  · exact (max_eq_right (Int64.le_iff_toInt_le.mp order)).symm
  · exact (max_eq_left (not_le.mp (mt Int64.le_iff_toInt_le.mpr order)).le).symm

end Number

namespace RangeSelector

/-- The span of absolute indices, each step a difference of words. -/
def absoluteSpanInWords? (size first last : Int64) : Option (Option Span) :=
  if size ≤ first then some none
  else do
    let newest ← Number.difference? size 1
    return some ⟨first.toInt.toNat, (min last newest).toInt.toNat⟩

/-- The span of relative indices, each step a difference of words. -/
def relativeSpanInWords? (size first last : Int64) : Option (Option Span) := do
  let beyondStop ← Number.difference? size first
  let stop ← Number.difference? beyondStop 1
  if stop < 0 then return none
  let beyondStart ← Number.difference? size last
  let start ← Number.difference? beyondStart 1
  return some ⟨(max start 0).toInt.toNat, stop.toInt.toNat⟩

variable {first last : Int64} {timeline : ValueTimeline}

/-- A range of absolute indices is cut at the newest entry. -/
theorem resolve_absoluteIndex (natural : 0 ≤ first.toInt) (ordered : first.toInt ≤ last.toInt)
    (recorded : timeline.entries ≠ []) (node : String) :
    (absoluteIndex first last).resolve node timeline =
      .ok (if (timeline.size : Int) ≤ first.toInt then none
        else some ⟨first.toInt.toNat, (min last.toInt (timeline.size - 1)).toNat⟩) := by
  have checked : (absoluteIndex first last).check node = .ok () :=
    check_of_ordered rfl natural ordered node
  have nonempty : timeline.entries.isEmpty = false := List.isEmpty_eq_false_iff.mpr recorded
  rw [resolve, checked, Timeline.size]
  by_cases missed : (timeline.entries.length : Int) ≤ first.toInt
  · simp only [nonempty, if_pos missed, bind, Except.bind]
    rfl
  · simp only [nonempty, if_neg missed, bind, Except.bind]
    rfl

theorem absoluteSpanInWords?_eq {size : Int64} (positive : 0 < size.toInt) :
    absoluteSpanInWords? size first last =
      some (if size.toInt ≤ first.toInt then none
        else some ⟨first.toInt.toNat, (min last.toInt (size.toInt - 1)).toNat⟩) := by
  have one : (1 : Int64).toInt = 1 := rfl
  have sizeBelow := size.toInt_lt
  obtain ⟨newest, isNewest, newestExact⟩ :=
    Number.exists_difference? (x := size) (y := 1) (by omega) (by omega)
  rw [absoluteSpanInWords?, isNewest]
  simp only [Int64.le_iff_toInt_le, Option.bind_eq_bind, Option.bind_some, Number.toInt_min,
    newestExact, one]
  split <;> rfl

theorem relativeSpanInWords?_eq {size : Int64} (positive : 0 < size.toInt)
    (natural : 0 ≤ first.toInt) (ordered : first.toInt ≤ last.toInt) :
    relativeSpanInWords? size first last =
      some (if size.toInt - first.toInt - 1 < 0 then none
        else some ⟨(max (size.toInt - last.toInt - 1) 0).toNat,
          (size.toInt - first.toInt - 1).toNat⟩) := by
  have zero : (0 : Int64).toInt = 0 := rfl
  have one : (1 : Int64).toInt = 1 := rfl
  have sizeBelow := size.toInt_lt
  have lastBelow := last.toInt_lt
  obtain ⟨beyondStop, isBeyondStop, beyondStopExact⟩ :=
    Number.exists_difference? (x := size) (y := first) (by omega) (by omega)
  obtain ⟨stop, isStop, stopExact⟩ :=
    Number.exists_difference? (x := beyondStop) (y := 1) (by omega) (by omega)
  obtain ⟨beyondStart, isBeyondStart, beyondStartExact⟩ :=
    Number.exists_difference? (x := size) (y := last) (by omega) (by omega)
  obtain ⟨start, isStart, startExact⟩ :=
    Number.exists_difference? (x := beyondStart) (y := 1) (by omega) (by omega)
  simp only [relativeSpanInWords?, isBeyondStop, isStop, isBeyondStart, isStart,
    Option.bind_eq_bind, Option.bind_some, Int64.lt_iff_toInt_lt, Number.toInt_max, stopExact,
    startExact, beyondStopExact, beyondStartExact, zero, one]
  split <;> rfl

/-- What a range of absolute indices addresses, without a step that leaves the words. -/
theorem absoluteIndex_addresses (natural : 0 ≤ first.toInt) (ordered : first.toInt ≤ last.toInt)
    (recorded : timeline.entries ≠ []) (node : String) :
    ∃ resolved, (absoluteIndex first last).resolve node timeline = .ok resolved ∧
      (Addresses resolved timeline.size fun position =>
        first.toInt ≤ position ∧ position ≤ last.toInt) ∧
      ∀ size : Int64, size.toInt = timeline.size →
        absoluteSpanInWords? size first last = some resolved := by
  have positive : 0 < timeline.size := List.length_pos_iff.mpr recorded
  refine ⟨_, resolve_absoluteIndex natural ordered recorded node, ?_, ?_⟩
  · split
    · exact addresses_none fun position inside => by omega
    · exact addresses_some (by dsimp only; omega) (by dsimp only; omega)
        fun position inside => by dsimp only; omega
  · intro size same
    rw [absoluteSpanInWords?_eq (by omega), same]

theorem relativeIndex_addresses (natural : 0 ≤ first.toInt) (ordered : first.toInt ≤ last.toInt)
    (recorded : timeline.entries ≠ []) (node : String) :
    ∃ resolved, (relativeIndex first last).resolve node timeline = .ok resolved ∧
      (Addresses resolved timeline.size fun position =>
        first.toInt ≤ (timeline.size : Int) - 1 - position ∧
          (timeline.size : Int) - 1 - position ≤ last.toInt) ∧
      ∀ size : Int64, size.toInt = timeline.size →
        relativeSpanInWords? size first last = some resolved := by
  have positive : 0 < timeline.size := List.length_pos_iff.mpr recorded
  refine ⟨_, resolve_relativeIndex natural ordered recorded node, ?_, ?_⟩
  · split
    · exact addresses_none fun position inside => by omega
    · exact addresses_some (by dsimp only; omega) (by dsimp only; omega)
        fun position inside => by dsimp only; omega
  · intro size same
    rw [relativeSpanInWords?_eq (by omega) natural ordered, same]

end RangeSelector

namespace Timeline

variable {timeline : ValueTimeline} {span : Span}

theorem getElem?_slice (span : Span) (timeline : ValueTimeline) (position : Nat) :
    (timeline.slice span)[position]? =
      if span.first + position ≤ span.last then timeline.entries[span.first + position]?
      else none := by
  rw [slice, List.getElem?_drop, List.getElem?_take]
  simp only [Nat.lt_succ_iff]

theorem length_slice (inside : span.last < timeline.size) :
    (timeline.slice span).length = span.last + 1 - span.first := by
  rw [size] at inside
  rw [slice, List.length_drop, List.length_take]
  omega

theorem getLast?_slice (ordered : span.first ≤ span.last) (inside : span.last < timeline.size) :
    (timeline.slice span).getLast? = timeline.entries[span.last]? := by
  have newest : span.first + (span.last + 1 - span.first - 1) = span.last := by
    omega
  rw [List.getLast?_eq_getElem?, length_slice inside, getElem?_slice, newest, if_pos le_rfl]

theorem slice_singleton {position : Nat} {entry : ValueEntry}
    (found : timeline.entries[position]? = some entry) :
    timeline.slice ⟨position, position⟩ = [entry] := by
  obtain ⟨inside, _⟩ := List.getElem?_eq_some_iff.mp found
  have single : (timeline.slice ⟨position, position⟩).length = 1 := by
    rw [length_slice inside]
    exact Nat.add_sub_cancel_left position 1
  have newest : (timeline.slice ⟨position, position⟩).getLast? = timeline.entries[position]? :=
    getLast?_slice le_rfl inside
  obtain ⟨only, isOnly⟩ := List.length_eq_one_iff.mp single
  rw [isOnly, found] at newest
  have same : only = entry := Option.some.inj newest
  rw [isOnly, same]

theorem select_absolute {index : Int64} (natural : 0 ≤ index.toInt)
    (inside : index.toInt < timeline.size) (node : String) :
    ∃ entry, timeline.entries[index.toInt.toNat]? = some entry ∧
      timeline.select node (.absolute index) = .ok entry := by
  have within : ¬ (index < 0 ∨ (timeline.size : Int) ≤ index.toInt) := by
    have zero : (0 : Int64).toInt = 0 := rfl
    rw [Int64.lt_iff_toInt_lt]
    omega
  have recorded : index.toInt.toNat < timeline.entries.length := by
    rw [size] at inside
    omega
  refine ⟨_, List.getElem?_eq_getElem recorded, ?_⟩
  simp only [select, if_neg within, bind, Except.bind, List.getElem?_eq_getElem recorded]
  rfl

theorem select_absolute_of_outside {index : Int64}
    (outside : index.toInt < 0 ∨ timeline.size ≤ index.toInt) (node : String) :
    timeline.select node (.absolute index) =
      .error (.indexOutOfRange node index timeline.size) := by
  rw [← show (0 : Int64).toInt = 0 from rfl, ← Int64.lt_iff_toInt_lt] at outside
  simp only [select, if_pos outside, bind, Except.bind]

theorem select_relative_of_negative {index : Int64} (negative : index.toInt < 0) (node : String) :
    timeline.select node (.relative index) =
      .error (.badArgument node (.negativeRelativeIndex index)) := by
  rw [← show (0 : Int64).toInt = 0 from rfl, ← Int64.lt_iff_toInt_lt] at negative
  simp only [select, if_pos negative, bind, Except.bind]

/-! ## All addresses by index -/

/-- What addresses by index mean in a timeline. -/
structure AddressedByIndex (timeline : ValueTimeline) (node : String) : Prop where
  absoluteRange : ∀ first last : Int64, 0 ≤ first.toInt → first.toInt ≤ last.toInt →
    ∃ resolved, (RangeSelector.absoluteIndex first last).resolve node timeline = .ok resolved ∧
      (Addresses resolved timeline.size fun position =>
        first.toInt ≤ position ∧ position ≤ last.toInt) ∧
      ∀ size : Int64, size.toInt = timeline.size →
        RangeSelector.absoluteSpanInWords? size first last = some resolved
  relativeRange : ∀ first last : Int64, 0 ≤ first.toInt → first.toInt ≤ last.toInt →
    ∃ resolved, (RangeSelector.relativeIndex first last).resolve node timeline = .ok resolved ∧
      (Addresses resolved timeline.size fun position =>
        first.toInt ≤ (timeline.size : Int) - 1 - position ∧
          (timeline.size : Int) - 1 - position ≤ last.toInt) ∧
      ∀ size : Int64, size.toInt = timeline.size →
        RangeSelector.relativeSpanInWords? size first last = some resolved
  absoluteEntry : ∀ index : Int64, 0 ≤ index.toInt → index.toInt < timeline.size →
    ∃ entry, timeline.entries[index.toInt.toNat]? = some entry ∧
      timeline.select node (.absolute index) = .ok entry
  absoluteFault_iff : ∀ index : Int64,
    (timeline.select node (.absolute index) = .error (.indexOutOfRange node index timeline.size) ↔
      index.toInt < 0 ∨ timeline.size ≤ index.toInt)
  relativeEntry : ∀ index : Int64, 0 ≤ index.toInt →
    ∃ entry, timeline.entries[(max 0 ((timeline.size : Int) - 1 - index.toInt)).toNat]? =
        some entry ∧
      timeline.select node (.relative index) = .ok entry
  relativeFault_iff : ∀ index : Int64,
    (timeline.select node (.relative index) =
        .error (.badArgument node (.negativeRelativeIndex index)) ↔
      index.toInt < 0)
  /-- Counted back or from the oldest entry, alone or as the end of a range, one
  entry is meant. -/
  agree : ∀ back oldest : Int64, 0 ≤ back.toInt → back.toInt < timeline.size →
    back.toInt ≤ oldest.toInt →
      ∃ entry, timeline.select node (.relative back) = .ok entry ∧
        (∃ window, (RangeSelector.relativeIndex back oldest).entriesOf node timeline =
            .ok (some window) ∧ window.getLast? = some entry) ∧
        ∀ place : Int64, place.toInt = timeline.size - 1 - back.toInt →
          (RangeSelector.absoluteIndex place place).entriesOf node timeline = .ok (some [entry])

theorem addresses_agree {back oldest : Int64} (natural : 0 ≤ back.toInt)
    (inside : back.toInt < timeline.size) (ordered : back.toInt ≤ oldest.toInt) (node : String) :
    ∃ entry, timeline.select node (.relative back) = .ok entry ∧
      (∃ window, (RangeSelector.relativeIndex back oldest).entriesOf node timeline =
          .ok (some window) ∧ window.getLast? = some entry) ∧
      ∀ place : Int64, place.toInt = timeline.size - 1 - back.toInt →
        (RangeSelector.absoluteIndex place place).entriesOf node timeline =
          .ok (some [entry]) := by
  have recorded : timeline.entries ≠ [] := by
    rw [← List.length_pos_iff]
    rw [size] at inside
    omega
  obtain ⟨entry, found, selected⟩ := select_relative natural node recorded
  refine ⟨entry, selected, ?_, fun place isPlace => ?_⟩
  · rw [RangeSelector.entriesOf, RangeSelector.resolve_relativeIndex natural ordered recorded,
      if_neg (by omega)]
    refine ⟨_, rfl, ?_⟩
    rw [getLast?_slice (by dsimp only; omega) (by dsimp only; omega), ← found]
    congr 1
    dsimp only
    omega
  · have here : (min place.toInt ((timeline.size : Int) - 1)).toNat = place.toInt.toNat := by
      omega
    have same : place.toInt.toNat = timeline.size - 1 - back.toInt.toNat := by
      omega
    rw [RangeSelector.entriesOf,
      RangeSelector.resolve_absoluteIndex (by omega) le_rfl recorded, if_neg (by omega), here,
      same]
    exact congrArg (fun window => Except.ok (some window)) (slice_singleton found)

/-- In a timeline with an entry every address by index has its meaning. -/
theorem indices_address_places (recorded : timeline.entries ≠ []) (node : String) :
    timeline.AddressedByIndex node where
  absoluteRange _ _ natural ordered :=
    RangeSelector.absoluteIndex_addresses natural ordered recorded node
  relativeRange _ _ natural ordered :=
    RangeSelector.relativeIndex_addresses natural ordered recorded node
  absoluteEntry _ natural inside := select_absolute natural inside node
  absoluteFault_iff index := by
    refine ⟨fun faulty => ?_, fun outside => select_absolute_of_outside outside node⟩
    by_contra within
    obtain ⟨natural, inside⟩ : 0 ≤ index.toInt ∧ index.toInt < timeline.size := by
      omega
    obtain ⟨entry, _, selected⟩ := select_absolute natural inside node
    rw [selected] at faulty
    cases faulty
  relativeEntry index natural := by
    have place : (max 0 ((timeline.size : Int) - 1 - index.toInt)).toNat =
        timeline.size - 1 - index.toInt.toNat := by
      omega
    rw [place]
    exact select_relative natural node recorded
  relativeFault_iff index := by
    refine ⟨fun faulty => ?_, fun negative => select_relative_of_negative negative node⟩
    by_contra natural
    obtain ⟨entry, _, selected⟩ := select_relative (Int.not_lt.mp natural) node recorded
    rw [selected] at faulty
    cases faulty
  agree _ _ natural inside ordered := addresses_agree natural inside ordered node

/-- Three entries, the newest at place 2. -/
def threeReadings : ValueTimeline :=
  ⟨[⟨3, none, .double 10.0⟩, ⟨5, none, .double 20.0⟩, ⟨8, none, .double 30.0⟩]⟩

theorem threeReadings_addressed :
    threeReadings.entries ≠ [] ∧
      (RangeSelector.relativeIndex 1 10).resolve "w" threeReadings = .ok (some ⟨0, 1⟩) ∧
      threeReadings.AddressedByIndex "w" := by
  have recorded : threeReadings.entries ≠ [] := List.cons_ne_nil _ _
  refine ⟨recorded, ?_, indices_address_places recorded "w"⟩
  exact RangeSelector.resolve_relativeIndex (by decide) (by decide) recorded "w"

end Timeline

end InSitu
