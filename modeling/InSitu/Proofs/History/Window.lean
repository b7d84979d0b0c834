import InSitu.History.Window
import InSitu.Proofs.Number.Rounding

/-!
# Addresses counted from the newest entry

What a relative address stands for, without positions: the entry that many
places before the newest one, and the entries between two such places.  The
check of a range compares its ends as doubles; rounding keeps integers in order,
so ends in order pass it.
-/

namespace InSitu

namespace RangeSelector

theorem check_of_ordered {selector : RangeSelector} {first last : Int64}
    (ends : selector.ends = (Number.ofInt64 first, Number.ofInt64 last))
    (natural : 0 ≤ first.toInt) (ordered : first.toInt ≤ last.toInt) (node : String) :
    selector.check node = .ok () := by
  have zero : (0.0 : Float) = 0 := by
    rfl
  have firstNatural := Number.not_ofInt64_lt_zero natural
  have lastNatural := Number.not_ofInt64_lt_zero (natural.trans ordered)
  have rounded := Number.ofInt64_le_ofInt64 natural ordered
  rw [check, ends, zero]
  dsimp only
  rw [if_neg (by simp only [firstNatural, lastNatural, or_self, and_false, not_false_iff])]
  rw [if_neg (not_not_intro rounded)]

/-- The entries of a range, none if it misses the history. -/
def entriesOf (selector : RangeSelector) (node : String) (timeline : ValueTimeline) :
    Except Fault (Option (List ValueEntry)) :=
  (selector.resolve node timeline).map (Option.map timeline.slice)

/-- A range of relative indices is cut at the oldest entry. -/
theorem resolve_relativeIndex {first last : Int64} {timeline : ValueTimeline}
    (natural : 0 ≤ first.toInt) (ordered : first.toInt ≤ last.toInt)
    (recorded : timeline.entries ≠ []) (node : String) :
    (relativeIndex first last).resolve node timeline =
      .ok (if (timeline.size : Int) - first.toInt - 1 < 0 then none
        else some ⟨(max ((timeline.size : Int) - last.toInt - 1) 0).toNat,
          ((timeline.size : Int) - first.toInt - 1).toNat⟩) := by
  have checked : (relativeIndex first last).check node = .ok () :=
    check_of_ordered rfl natural ordered node
  have nonempty : timeline.entries.isEmpty = false := List.isEmpty_eq_false_iff.mpr recorded
  rw [resolve, checked, Timeline.size]
  by_cases missed : (timeline.entries.length : Int) - first.toInt - 1 < 0
  · simp only [nonempty, if_pos missed, bind, Except.bind]
    rfl
  · simp only [nonempty, if_neg missed, bind, Except.bind]
    rfl

/-- The entries from `last` to `first` places before the newest one.  A range
may begin before the oldest entry, but not end there. -/
theorem entriesOf_relativeIndex {first last : Int64} (natural : 0 ≤ first.toInt)
    (ordered : first.toInt ≤ last.toInt) (node : String) (timeline : ValueTimeline) :
    (relativeIndex first last).entriesOf node timeline =
      .ok (if first.toInt.toNat < timeline.size then
        some ((timeline.entries.take (timeline.size - first.toInt.toNat)).drop
          (timeline.size - 1 - last.toInt.toNat))
      else none) := by
  by_cases recorded : timeline.entries = []
  · have checked : (relativeIndex first last).check node = .ok () :=
      check_of_ordered rfl natural ordered node
    rw [entriesOf, resolve, checked, Timeline.size, recorded]
    rfl
  · rw [entriesOf, resolve_relativeIndex natural ordered recorded]
    by_cases reached : first.toInt.toNat < timeline.size
    · have start : (max ((timeline.size : Int) - last.toInt - 1) 0).toNat =
          timeline.size - 1 - last.toInt.toNat := by
        omega
      have stop : ((timeline.size : Int) - first.toInt - 1).toNat + 1 =
          timeline.size - first.toInt.toNat := by
        omega
      rw [if_neg (by omega), if_pos reached, ← start, ← stop]
      rfl
    · rw [if_pos (by omega), if_neg reached]
      rfl

end RangeSelector

namespace Timeline

/-- A relative address means an entry of every timeline that has one. -/
theorem select_relative {index : Int64} (natural : 0 ≤ index.toInt) (node : String)
    {timeline : ValueTimeline} (recorded : timeline.entries ≠ []) :
    ∃ entry, timeline.entries[timeline.size - 1 - index.toInt.toNat]? = some entry ∧
      timeline.select node (.relative index) = .ok entry := by
  have positive := List.length_pos_iff.mpr recorded
  have inside : timeline.size - 1 - index.toInt.toNat < timeline.entries.length := by
    rw [size]
    omega
  have notNegative : ¬ index < 0 := by
    rw [Int64.lt_iff_toInt_lt]
    exact Int.not_lt.mpr natural
  refine ⟨_, List.getElem?_eq_getElem inside, ?_⟩
  simp only [select, if_neg notNegative, bind, Except.bind, List.getElem?_eq_getElem inside]
  rfl

/-- The values and the steps of a range depend on its entries alone. -/
theorem range_eq_of_entriesOf {selector : RangeSelector} {node : String}
    {first second : ValueTimeline}
    (alike : selector.entriesOf node first = selector.entriesOf node second)
    (unit : Option DeltaUnit) :
    first.range node selector unit = second.range node selector unit := by
  have byEntries (timeline : ValueTimeline) : timeline.range node selector unit =
      (selector.entriesOf node timeline).bind fun
        | none => .ok none
        | some entries => do
          let values ← windowValues node entries
          let deltas ← unit.mapM fun unit => windowDeltas node unit entries
          return some ⟨values, deltas⟩ := by
    rw [range, RangeSelector.entriesOf]
    cases selector.resolve node timeline with
    | error fault =>
        rfl
    | ok span =>
        cases span with
        | none =>
            rfl
        | some span =>
            rfl
  rw [byEntries, byEntries, alike]

end Timeline

end InSitu
