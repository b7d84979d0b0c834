import InSitu.Binning.Request
import InSitu.Proofs.Axis.Locating
import InSitu.Proofs.Number.Order

/-!
# Bins partition their range

Without rounding, the bins of a well formed axis share their edges and cover its range, and a value
is located in the one bin between whose edges it lies.  Both layouts place a value by the last edge
that is not above it: one computes the number of this edge, the other counts the edges below.
-/

namespace InSitu

namespace Axis

variable {axis : Axis ℚ}

theorem check_uniform_iff {name : String} {clamps : Bool} {low high : ℚ} {count : Nat} :
    (Axis.mk name clamps (.uniform low high count)).check = .ok () ↔ low < high ∧ 0 < count := by
  simp only [check]
  by_cases ordered : low < high
  · by_cases none : count = 0
    · simp [ordered, none]
    · simp [ordered, none, Nat.pos_of_ne_zero none]
  · simp [ordered]

theorem firstDescent?_eq_none_iff {edges : List ℚ} :
    firstDescent? edges = none ↔ edges.Pairwise (· < ·) := by
  rw [← List.isChain_iff_pairwise]
  fun_induction firstDescent? edges with
  | case1 edge next rest rising inductionHypothesis =>
      rw [Option.map_eq_none_iff, inductionHypothesis, List.isChain_cons_cons]
      exact (and_iff_right rising).symm
  | case2 edge next rest falling =>
      rw [List.isChain_cons_cons]
      constructor
      · intro impossible
        cases impossible
      · intro chain
        exact absurd chain.1 falling
  | case3 edges short =>
      cases edges with
      | nil =>
          simp
      | cons edge rest =>
          cases rest with
          | nil =>
              simp
          | cons next rest =>
              exact absurd rfl (short edge next rest)

theorem check_edged_iff {name : String} {clamps : Bool} {edges : List ℚ} :
    (Axis.mk name clamps (.edged edges)).check = .ok () ↔
      2 ≤ edges.length ∧ edges.Pairwise (· < ·) := by
  rw [← firstDescent?_eq_none_iff]
  simp only [check, checkEdges]
  by_cases short : edges.length < 2
  · simp [short]
  · cases descent : firstDescent? edges with
    | none =>
        simp [short, Nat.le_of_not_lt short]
    | some found =>
        simp [short]

/-- The edges of the bins, counted from the lower end of the range. -/
def edge (axis : Axis ℚ) (position : Nat) : ℚ :=
  match axis.bins with
  | .uniform low high count => low + position * ((high - low) / count)
  | .edged edges => edges.getD position 0

theorem edge_lt_edge (checked : axis.check = .ok ()) {first second : Nat} (before : first < second)
    (known : second ≤ axis.binCount) : axis.edge first < axis.edge second := by
  obtain ⟨name, clamps, bins⟩ := axis
  cases bins with
  | uniform low high count =>
      obtain ⟨ordered, positive⟩ := check_uniform_iff.mp checked
      have width : 0 < (high - low) / (count : ℚ) :=
        div_pos (sub_pos.mpr ordered) (Nat.cast_pos.mpr positive)
      have farther : (first : ℚ) < second := Nat.cast_lt.mpr before
      exact add_lt_add_right (mul_lt_mul_of_pos_right farther width) low
  | edged edges =>
      obtain ⟨long, rising⟩ := check_edged_iff.mp checked
      have inside : second < edges.length := by
        simp only [binCount] at known
        omega
      simp only [edge, List.getD_eq_getElem edges 0 inside,
        List.getD_eq_getElem edges 0 (before.trans inside)]
      exact List.pairwise_iff_getElem.mp rising first second _ inside before

theorem range?_eq_edges (checked : axis.check = .ok ()) :
    axis.range? = some (axis.edge 0, axis.edge axis.binCount) := by
  obtain ⟨name, clamps, bins⟩ := axis
  cases bins with
  | uniform low high count =>
      obtain ⟨ordered, positive⟩ := check_uniform_iff.mp checked
      have nonzero : (count : ℚ) ≠ 0 := Nat.cast_ne_zero.mpr positive.ne'
      have last : low + count * ((high - low) / count) = high := by
        field_simp
        ring
      simp [range?, edge, binCount, last]
  | edged edges =>
      obtain ⟨long, rising⟩ := check_edged_iff.mp checked
      have first : edges.head? = some (edges.getD 0 0) := by
        rw [List.head?_eq_getElem?, List.getD_eq_getElem edges 0 (by omega),
          List.getElem?_eq_getElem]
      have last : edges.getLast? = some (edges.getD (edges.length - 1) 0) := by
        rw [List.getLast?_eq_getElem?, List.getD_eq_getElem edges 0 (by omega),
          List.getElem?_eq_getElem]
      simp only [range?, edge, binCount, first, last]

theorem binBounds?_eq_edges (checked : axis.check = .ok ()) (bin : Nat) :
    axis.binBounds? bin =
      if bin < axis.binCount then some (axis.edge bin, axis.edge (bin + 1)) else none := by
  obtain ⟨name, clamps, bins⟩ := axis
  cases bins with
  | uniform low high count =>
      have upper (width : ℚ) : low + bin * width + width = low + (bin + 1 : Nat) * width := by
        push_cast
        ring
      have bounds := upper ((high - low) / count)
      simp only [binBounds?, edge, binCount, ← bounds]
      rfl
  | edged edges =>
      obtain ⟨long, _⟩ := check_edged_iff.mp checked
      have count : binCount ⟨name, clamps, .edged edges⟩ = edges.length - 1 := rfl
      by_cases inside : bin < edges.length - 1
      · have lower : edges[bin]? = some (edges.getD bin 0) := by
          rw [List.getD_eq_getElem edges 0 (by omega), List.getElem?_eq_getElem]
        have upper : edges[bin + 1]? = some (edges.getD (bin + 1) 0) := by
          rw [List.getD_eq_getElem edges 0 (by omega), List.getElem?_eq_getElem]
        rw [count, if_pos inside]
        simp only [binBounds?, edge, lower, upper]
      · have beyond : edges[bin + 1]? = none := List.getElem?_eq_none (by omega)
        rw [count, if_neg inside]
        simp only [binBounds?, beyond]
        cases edges[bin]? <;> rfl

/-- In a rising list the elements up to a value are those in front. -/
theorem lt_length_takeWhile_iff {edges : List ℚ} (rising : edges.Pairwise (· < ·)) {value : ℚ}
    {position : Nat} (inside : position < edges.length) :
    position < (edges.takeWhile (· ≤ value)).length ↔ edges[position] ≤ value := by
  induction edges generalizing position with
  | nil =>
      cases inside
  | cons first rest inductionHypothesis =>
      obtain ⟨least, restRising⟩ := List.pairwise_cons.mp rising
      by_cases below : first ≤ value
      · rw [List.takeWhile_cons_of_pos (by simpa using below), List.length_cons]
        cases position with
        | zero =>
            simp [below]
        | succ position =>
            have restInside : position < rest.length := Nat.lt_of_succ_lt_succ inside
            rw [Nat.succ_lt_succ_iff, inductionHypothesis restRising restInside]
            rfl
      · rw [List.takeWhile_cons_of_neg (by simpa using below)]
        have above : value < (first :: rest)[position] := by
          cases position with
          | zero =>
              exact not_le.mp below
          | succ position =>
              exact (not_le.mp below).trans (least _ (List.getElem_mem _))
        simp [above]

/-- A value within the range is placed by the last edge that is not above it. -/
theorem edge_le_iff_le_positionOf (checked : axis.check = .ok ()) {value : ℚ}
    (above : axis.edge 0 ≤ value) {position : Nat} (known : position ≤ axis.binCount) :
    axis.edge position ≤ value ↔
      position ≤ Bins.positionOf axis.bins (axis.edge 0) (axis.edge axis.binCount) value := by
  have ends := range?_eq_edges checked
  obtain ⟨name, clamps, bins⟩ := axis
  cases bins with
  | uniform low high count =>
      obtain ⟨ordered, positive⟩ := check_uniform_iff.mp checked
      obtain ⟨isLow, isHigh⟩ := Prod.mk.inj (Option.some.inj ends)
      rw [← isLow] at above ⊢
      rw [← isHigh]
      have length : 0 < high - low := sub_pos.mpr ordered
      have counted : 0 < (count : ℚ) := Nat.cast_pos.mpr positive
      have scaled : 0 ≤ (value - low) * count / (high - low) :=
        div_nonneg (mul_nonneg (sub_nonneg.mpr above) counted.le) length.le
      change low + position * ((high - low) / count) ≤ value ↔
        position ≤ ⌊(value - low) * count / (high - low)⌋₊
      rw [Nat.le_floor_iff scaled, le_div_iff₀ length, ← le_sub_iff_add_le', ← mul_div_assoc,
        div_le_iff₀ counted]
  | edged edges =>
      obtain ⟨long, rising⟩ := check_edged_iff.mp checked
      have inside : position < edges.length := by
        simp only [binCount] at known
        omega
      have first : 0 < (edges.takeWhile (· ≤ value)).length := by
        refine (lt_length_takeWhile_iff rising (by omega)).mpr ?_
        rwa [← List.getD_eq_getElem edges 0]
      have placed : position < (edges.takeWhile (· ≤ value)).length ↔ edges[position] ≤ value :=
        lt_length_takeWhile_iff rising inside
      change edges.getD position 0 ≤ value ↔
        position ≤ (edges.takeWhile (· ≤ value)).length - 1
      rw [List.getD_eq_getElem edges 0 inside, ← placed]
      omega

/-! ## Bins -/

/-- A value lies in a bin: between the edges, or on the upper edge of the last bin. -/
def InBin (axis : Axis ℚ) (bin : Nat) (value : ℚ) : Prop :=
  ∃ lower upper, axis.binBounds? bin = some (lower, upper) ∧ lower ≤ value ∧
    (value < upper ∨ bin + 1 = axis.binCount ∧ value = upper)

section Checked

variable (checked : axis.check = .ok ())

include checked

theorem inBin_iff_edges {bin : Nat} {value : ℚ} :
    axis.InBin bin value ↔
      bin < axis.binCount ∧ axis.edge bin ≤ value ∧
        (value < axis.edge (bin + 1) ∨ bin + 1 = axis.binCount ∧ value = axis.edge (bin + 1)) := by
  rw [InBin, binBounds?_eq_edges checked]
  by_cases known : bin < axis.binCount
  · simp [known]
  · simp [known]

theorem edge_le_edge {first second : Nat} (before : first ≤ second)
    (known : second ≤ axis.binCount) : axis.edge first ≤ axis.edge second := by
  rcases Nat.eq_or_lt_of_le before with rfl | strictly
  · exact le_refl _
  · exact (edge_lt_edge checked strictly known).le

theorem InBin.within {bin : Nat} {value : ℚ} (inBin : axis.InBin bin value) :
    axis.edge 0 ≤ value ∧ value ≤ axis.edge axis.binCount := by
  obtain ⟨known, above, below⟩ := (inBin_iff_edges checked).mp inBin
  have upper : value ≤ axis.edge (bin + 1) := below.elim le_of_lt fun last => last.2.le
  exact ⟨(edge_le_edge checked bin.zero_le known.le).trans above,
    upper.trans (edge_le_edge checked known le_rfl)⟩

/-- A value in a bin is below every value in a later one. -/
theorem InBin.not_lt {first second : Nat} {value : ℚ} (inFirst : axis.InBin first value)
    (inSecond : axis.InBin second value) : ¬ first < second := by
  intro before
  obtain ⟨_, _, below⟩ := (inBin_iff_edges checked).mp inFirst
  obtain ⟨known, above, _⟩ := (inBin_iff_edges checked).mp inSecond
  have next := edge_le_edge checked before known.le
  rcases below with inside | ⟨last, _⟩
  · exact absurd (next.trans above) (not_le.mpr inside)
  · omega

theorem InBin.unique {first second : Nat} {value : ℚ} (inFirst : axis.InBin first value)
    (inSecond : axis.InBin second value) : first = second :=
  Nat.le_antisymm (Nat.le_of_not_lt (inSecond.not_lt checked inFirst))
    (Nat.le_of_not_lt (inFirst.not_lt checked inSecond))

theorem locate?_eq_position (value : ℚ) :
    axis.locate? value =
      if axis.edge 0 ≤ value ∧ value ≤ axis.edge axis.binCount then
        some (min (Bins.positionOf axis.bins (axis.edge 0) (axis.edge axis.binCount) value)
          (axis.binCount - 1))
      else none := by
  rw [locate?, range?_eq_edges checked]
  rfl

theorem inBin_of_locate? {value : ℚ} {bin : Nat} (located : axis.locate? value = some bin) :
    axis.InBin bin value := by
  have positive := binCount_pos checked
  rw [locate?_eq_position checked] at located
  split at located
  · rename_i within
    obtain ⟨above, below⟩ := within
    have placed (position : Nat) (known : position ≤ axis.binCount) :=
      edge_le_iff_le_positionOf checked above known
    cases located
    generalize Bins.positionOf axis.bins (axis.edge 0) (axis.edge axis.binCount) value = last
      at placed
    have lower : axis.edge (min last (axis.binCount - 1)) ≤ value :=
      (placed _ (by omega)).mpr (min_le_left _ _)
    refine (inBin_iff_edges checked).mpr ⟨by omega, lower, ?_⟩
    -- Only a value that is not below the upper end can be placed at it.
    by_cases isLast : axis.binCount ≤ last
    · have reached := (placed axis.binCount le_rfl).mpr isLast
      have next : min last (axis.binCount - 1) + 1 = axis.binCount := by omega
      rw [next]
      exact .inr ⟨rfl, le_antisymm below reached⟩
    · have same : min last (axis.binCount - 1) = last := by omega
      rw [same]
      refine .inl (not_le.mp fun reached => ?_)
      have beyond := (placed (last + 1) (by omega)).mp reached
      omega
  · cases located

theorem locate?_eq_some_iff {value : ℚ} {bin : Nat} :
    axis.locate? value = some bin ↔ axis.InBin bin value := by
  constructor
  · exact inBin_of_locate? checked
  · intro inBin
    have within := inBin.within checked
    obtain ⟨found, located⟩ : ∃ found, axis.locate? value = some found := by
      rw [locate?_eq_position checked, if_pos within]
      exact ⟨_, rfl⟩
    rw [located, (inBin_of_locate? checked located).unique checked inBin]

theorem inBin_middle {bin : Nat} (known : bin < axis.binCount) :
    axis.InBin bin (middle (axis.edge bin, axis.edge (bin + 1))) := by
  have rising := edge_lt_edge checked bin.lt_succ_self known
  have isMiddle : middle (axis.edge bin, axis.edge (bin + 1)) =
      axis.edge bin + (axis.edge (bin + 1) - axis.edge bin) / 2 := rfl
  rw [isMiddle]
  exact (inBin_iff_edges checked).mpr ⟨known, by linarith, .inl (by linarith)⟩

theorem bin?_of_known {values : List ℚ} (counted : values.length = axis.binCount) {bin : Nat}
    (known : bin < axis.binCount) :
    ∃ value, Binning.bin? values axis bin =
      some ⟨some bin, value, axis.edge bin, axis.edge (bin + 1),
        middle (axis.edge bin, axis.edge (bin + 1))⟩ := by
  refine ⟨values[bin], ?_⟩
  rw [Binning.bin?, binBounds?_eq_edges checked, if_pos known, List.getElem?_eq_getElem]
  rfl

theorem binByIndex_of_known (node : String) {values : List ℚ}
    (counted : values.length = axis.binCount) {index : Int64} (natural : 0 ≤ index)
    (known : index.toInt < axis.binCount) :
    ∃ bin, Binning.binByIndex node values [axis] index = .ok bin ∧
      bin.index = some index.toInt.toNat ∧
      Binning.bin? values axis index.toInt.toNat = some bin ∧
      axis.InBin index.toInt.toNat bin.center := by
  have notNegative : ¬ index < 0 := Int64.not_lt.mpr natural
  have inRange : index.toInt.toNat < axis.binCount := by
    have positive : 0 ≤ index.toInt := Int64.le_iff_toInt_le.mp natural
    omega
  obtain ⟨value, found⟩ := bin?_of_known checked counted inRange
  refine ⟨_, ?_, rfl, found, inBin_middle checked inRange⟩
  simp only [Binning.binByIndex, Binning.onlyAxis, bind, Except.bind, if_neg notNegative, found]
  rfl

theorem binHolding_of_inBin {values : List ℚ} {index : Nat} {value : ℚ} {bin : Bin ℚ}
    (inBin : axis.InBin index value) (found : Binning.bin? values axis index = some bin) :
    Binning.binHolding values axis value = .ok bin := by
  rw [Binning.binHolding, (locate?_eq_some_iff checked).mpr inBin]
  simp only [found]

/-- The bins of a well formed axis cut its range without gaps and without overlaps, and a value is
located in the bin that holds it, the upper end of the range in the last one.  So the center of a
bin is located in this bin, and a lookup of the center by value finds the bin that was found by its
index. -/
theorem bins_partition_range :
    ∃ low high, axis.range? = some (low, high) ∧
      (∀ value, axis.locate? value = none ↔ value < low ∨ high < value) ∧
      (∀ value bin, axis.locate? value = some bin ↔ axis.InBin bin value) ∧
      (∀ bin, (∃ bounds, axis.binBounds? bin = some bounds) ↔ bin < axis.binCount) ∧
      (∀ bin bounds next, axis.binBounds? bin = some bounds →
        axis.binBounds? (bin + 1) = some next → bounds.2 = next.1) ∧
      (∃ upper, axis.binBounds? 0 = some (low, upper)) ∧
      (∃ lower, axis.binBounds? (axis.binCount - 1) = some (lower, high)) ∧
      (∀ bin < axis.binCount, ∃ center, axis.center? bin = some center ∧
        axis.locate? center = some bin) ∧
      ∀ node (values : List ℚ) (index : Int64), values.length = axis.binCount → 0 ≤ index →
        index.toInt < axis.binCount →
          ∃ bin, Binning.binByIndex node values [axis] index = .ok bin ∧
            bin.index = some index.toInt.toNat ∧
            Binning.binHolding values axis bin.center = .ok bin := by
  have positive := binCount_pos checked
  have bounds := binBounds?_eq_edges checked
  refine ⟨axis.edge 0, axis.edge axis.binCount, range?_eq_edges checked, ?_,
    fun value bin => locate?_eq_some_iff checked, ?_, ?_, ?_, ?_, ?_, ?_⟩
  · intro value
    rw [locate?_eq_position checked]
    by_cases within : axis.edge 0 ≤ value ∧ value ≤ axis.edge axis.binCount
    · simp [within]
    · simp [within]
      grind
  · intro bin
    rw [bounds]
    by_cases known : bin < axis.binCount
    · simp [known]
    · simp [known]
  · intro bin lower upper isLower isUpper
    rw [bounds] at isLower isUpper
    split at isUpper
    · rw [if_pos (by omega)] at isLower
      cases isLower
      cases isUpper
      rfl
    · cases isUpper
  · exact ⟨_, (bounds 0).trans (if_pos positive)⟩
  · refine ⟨axis.edge (axis.binCount - 1), ?_⟩
    rw [bounds, if_pos (by omega), Nat.sub_add_cancel positive]
  · intro bin known
    refine ⟨_, ?_, (locate?_eq_some_iff checked).mpr (inBin_middle checked known)⟩
    rw [center?, bounds, if_pos known]
    rfl
  · intro node values index counted natural known
    obtain ⟨bin, byIndex, isIndex, found, inBin⟩ :=
      binByIndex_of_known checked node counted natural known
    exact ⟨bin, byIndex, isIndex, binHolding_of_inBin checked inBin found⟩

end Checked

/-- Three bins of one width. -/
def thirds : Axis ℚ := ⟨"x", false, .uniform 0 1 3⟩

/-- Two bins of different widths. -/
def uneven : Axis ℚ := ⟨"y", true, .edged [-1 / 2, 0, 3 / 2]⟩

theorem thirds_and_uneven_are_partitioned :
    thirds.check = .ok () ∧ uneven.check = .ok () ∧
      thirds.locate? 1 = some 2 ∧ uneven.locate? 0 = some 1 ∧ uneven.locate? 2 = none ∧
      ∃ bin, Binning.binByIndex "bin" [5, 7] [uneven] 1 = .ok bin ∧
        bin.index = some 1 ∧ Binning.binHolding [5, 7] uneven bin.center = .ok bin := by
  have checkedThirds : thirds.check = .ok () := check_uniform_iff.mpr ⟨by norm_num, by norm_num⟩
  have checkedUneven : uneven.check = .ok () := check_edged_iff.mpr ⟨by simp, by norm_num⟩
  obtain ⟨_, _, _, _, locatedThirds, _⟩ := bins_partition_range checkedThirds
  obtain ⟨low, high, range, outside, locatedUneven, _, _, _, _, _, lookups⟩ :=
    bins_partition_range checkedUneven
  have isHigh : high = 3 / 2 := by
    simp [range?, uneven] at range
    exact range.2.symm
  have third : thirds.InBin 2 1 := (inBin_iff_edges checkedThirds).mpr
    ⟨by decide, by norm_num [edge, thirds], .inr ⟨rfl, by norm_num [edge, thirds]⟩⟩
  have zero : uneven.InBin 1 0 := ⟨0, 3 / 2, rfl, le_refl 0, .inl (by norm_num)⟩
  exact ⟨checkedThirds, checkedUneven, (locatedThirds 1 2).mpr third,
    (locatedUneven 0 1).mpr zero, (outside 2).mpr (.inr (by rw [isHigh]; norm_num)),
    lookups "bin" [5, 7] 1 rfl (by decide) (by decide)⟩

end Axis

end InSitu
