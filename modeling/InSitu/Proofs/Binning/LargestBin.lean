import Mathlib
import InSitu.Binning.Request
import InSitu.Proofs.Binning.Searching

/-!
# The largest bin as seen from a point

The search keeps the bin with the largest value, of several with that value the nearest to the
point, and the first of several as near.  Bins without a number rank below all others and among
themselves alike, so the first of them is kept until a number comes.
-/

namespace InSitu.Binning

open Number

section Rank

/-- What a search compares: the value first, and the nearer center of two with one value. -/
noncomputable def rank (value offset : Float) : WithBot (EReal ×ₗ ERealᵒᵈ) :=
  if value.isNaN then ⊥
  else WithBot.some (toLex (exact value, OrderDual.toDual (exact offset.abs)))

variable {value offset otherValue otherOffset : Float}

theorem rank_of_isNaN (isNaN : value.isNaN = true) : rank value offset = ⊥ :=
  if_pos isNaN

theorem rank_of_isNumber (isNumber : value.isNaN = false) :
    rank value offset =
      WithBot.some (toLex (exact value, OrderDual.toDual (exact offset.abs))) := by
  rw [rank, isNumber]
  rfl

theorem bot_lt_rank_iff : ⊥ < rank value offset ↔ value.isNaN = false := by
  cases isNumber : value.isNaN with
  | true =>
      rw [rank_of_isNaN isNumber]
      exact iff_of_false (lt_irrefl ⊥) nofun
  | false =>
      rw [rank_of_isNumber isNumber]
      exact iff_of_true (WithBot.bot_lt_coe _) rfl

theorem rank_lt_rank_iff (isNumber : value.isNaN = false) (otherIsNumber : otherValue.isNaN = false) :
    rank value offset < rank otherValue otherOffset ↔
      exact value < exact otherValue ∨
        exact value = exact otherValue ∧ exact otherOffset.abs < exact offset.abs := by
  rw [rank_of_isNumber isNumber, rank_of_isNumber otherIsNumber, WithBot.coe_lt_coe,
    Prod.Lex.toLex_lt_toLex]
  rfl

theorem rank_eq_rank_iff (isNumber : value.isNaN = false)
    (otherIsNumber : otherValue.isNaN = false) :
    rank value offset = rank otherValue otherOffset ↔
      exact value = exact otherValue ∧ exact offset.abs = exact otherOffset.abs := by
  rw [rank_of_isNumber isNumber, rank_of_isNumber otherIsNumber, WithBot.coe_inj, toLex_inj,
    Prod.mk.injEq, OrderDual.toDual_inj]

theorem isBetter_eq_true_iff :
    isBetter (value, offset) otherValue otherOffset = true ↔
      ¬ value.isNaN = false ∧ otherValue.isNaN = false ∨ value < otherValue ∨
        (otherValue == value) = true ∧ otherOffset.abs < offset.abs := by
  simp only [isBetter, Bool.or_eq_true, Bool.and_eq_true, Bool.not_eq_true', decide_eq_true_eq,
    or_assoc, Bool.not_eq_false]
  rfl

/-- The better of two bins is the one that ranks higher. -/
theorem isBetter_iff_rank_lt (isOffset : offset.isNaN = false)
    (isOtherOffset : otherOffset.isNaN = false) :
    isBetter (value, offset) otherValue otherOffset = true ↔
      rank value offset < rank otherValue otherOffset := by
  rw [isBetter_eq_true_iff]
  by_cases isNumber : value.isNaN = false
  · by_cases otherIsNumber : otherValue.isNaN = false
    · have hasValue : HasValue value (exact value) := ⟨isNumber, rfl⟩
      have otherHasValue : HasValue otherValue (exact otherValue) := ⟨otherIsNumber, rfl⟩
      rw [or_iff_right fun lacking => lacking.1 isNumber, rank_lt_rank_iff isNumber otherIsNumber,
        hasValue.lt_iff otherHasValue, otherHasValue.beq_iff hasValue,
        (HasValue.abs isOtherOffset).lt_iff (HasValue.abs isOffset), @eq_comm EReal (exact value)]
    -- Nothing takes the place of a number but a number.
    · have notLess := mt (fun less : value < otherValue => (isNaN_eq_false_of_lt less).2)
        otherIsNumber
      have notEqual := mt (fun equal : (otherValue == value) = true =>
        (isNaN_eq_false_of_beq equal).1) otherIsNumber
      rw [rank_of_isNaN (Bool.eq_true_of_not_eq_false otherIsNumber)]
      refine iff_of_false ?_ not_lt_bot
      rintro (numbered | less | ⟨equal, _⟩)
      · exact otherIsNumber numbered.2
      · exact notLess less
      · exact notEqual equal
  · have notLess := mt (fun less : value < otherValue => (isNaN_eq_false_of_lt less).1) isNumber
    have notEqual := mt (fun equal : (otherValue == value) = true =>
      (isNaN_eq_false_of_beq equal).2) isNumber
    rw [rank_of_isNaN (Bool.eq_true_of_not_eq_false isNumber), bot_lt_rank_iff,
      and_iff_right isNumber]
    exact or_iff_left fun other => other.elim notLess fun equal => notEqual equal.1

end Rank

section Search

variable (values : List Float) (axis : Axis Float) (point : Float)

/-- The bin ranks highest, and it is the first of those that rank as high. -/
structure RanksHighest (index : Nat) (value center : Float) : Prop where
  isValue : values[index]? = some value
  isCenter : axis.center? index = some center
  wins : ∀ other otherValue otherCenter, values[other]? = some otherValue →
    axis.center? other = some otherCenter →
      rank otherValue (otherCenter - point) < rank value (center - point) ∨
        rank otherValue (otherCenter - point) = rank value (center - point) ∧ index ≤ other

/-- The bin has the largest value, and no other bin with that value comes before it. -/
structure IsLargest (index : Nat) (value center : Float) : Prop where
  isNumber : value.isNaN = false
  largest : ∀ other ∈ values, other.isNaN = false → other ≤ value
  nearest : ∀ other otherValue otherCenter, other ≠ index → values[other]? = some otherValue →
    axis.center? other = some otherCenter → (otherValue == value) = true →
      IsNearerBin point (index, center) (other, otherCenter)

variable {values axis point}

/-- What the search keeps of a bin. -/
def withOffset (point : Float) (bin : Nat × Float × Float) : Float × Float :=
  (bin.2.1, bin.2.2 - point)

/-- Keeps the better of the best bin so far and the next one. -/
def better (point : Float) (best : Option (Float × Float)) (bin : Nat × Float × Float) :
    Option (Float × Float) :=
  match best with
  | none => some (withOffset point bin)
  | some found =>
    if isBetter found bin.2.1 (bin.2.2 - point) then some (withOffset point bin) else best

theorem largestFrom?_eq_foldl :
    largestFrom? values axis point = (candidates values axis).foldl (better point) none := by
  rw [largestFrom?]
  congr 1
  funext best bin
  cases best <;> rfl

theorem exists_largestFrom?_eq (distances : HasDistances axis point)
    (nonempty : candidates values axis ≠ []) :
    ∃ index value center, largestFrom? values axis point = some (value, center - point) ∧
      RanksHighest values axis point index value center := by
  have isNumber : ∀ bin ∈ candidates values axis, (bin.2.2 - point).isNaN = false :=
    fun bin member => distances bin.1 bin.2.2 (mem_candidates.mp member).2
  have better_iff : ∀ best ∈ candidates values axis, ∀ bin ∈ candidates values axis,
      isBetter (withOffset point best) bin.2.1 (bin.2.2 - point) = true ↔
        rank best.2.1 (best.2.2 - point) < rank bin.2.1 (bin.2.2 - point) :=
    fun best bestMember bin member =>
      isBetter_iff_rank_lt (isNumber best bestMember) (isNumber bin member)
  obtain ⟨⟨index, value, center⟩, isFound, isBest⟩ :=
    exists_foldl_isBest (fun bin : Nat × Float × Float => rank bin.2.1 (bin.2.2 - point)) Prod.fst
      (withOffset point) (better point) nonempty candidates_rising (fun _ _ => rfl)
      (fun best bestMember bin member higher =>
        if_pos ((better_iff best bestMember bin member).mpr higher))
      fun best bestMember bin member notHigher =>
        if_neg (mt (better_iff best bestMember bin member).mp notHigher)
  obtain ⟨isValue, isCenter⟩ := mem_candidates.mp isBest.mem
  exact ⟨index, value, center, largestFrom?_eq_foldl.trans isFound, isValue, isCenter,
    fun other otherValue otherCenter isOther isOtherCenter =>
      isBest.wins (other, otherValue, otherCenter) (mem_candidates.mpr ⟨isOther, isOtherCenter⟩)⟩

/-- A bin with a value has a center unless there are more values than bins. -/
theorem exists_center?_eq (covers : values.length ≤ axis.binCount) {index : Nat} {value : Float}
    (isValue : values[index]? = some value) : ∃ center, axis.center? index = some center := by
  have within : index < axis.binCount :=
    (List.getElem?_eq_some_iff.mp isValue).1.trans_le covers
  obtain ⟨bounds, isBounds⟩ := Option.isSome_iff_exists.mp ((axis.isSome_binBounds? index).mpr within)
  exact ⟨_, congrArg (Option.map Axis.middle) isBounds⟩

namespace RanksHighest

variable {index : Nat} {value center : Float}
  (highest : RanksHighest values axis point index value center)

include highest

theorem rank_le (covers : values.length ≤ axis.binCount) {other : Float} (member : other ∈ values) :
    ∃ offset, rank other offset ≤ rank value (center - point) := by
  obtain ⟨place, isOther⟩ := List.mem_iff_getElem?.mp member
  obtain ⟨otherCenter, isOtherCenter⟩ := exists_center?_eq covers isOther
  exact ⟨otherCenter - point, (highest.wins place other otherCenter isOther isOtherCenter).elim
    le_of_lt fun same => same.1.le⟩

theorem isNumber (covers : values.length ≤ axis.binCount)
    (someNumber : ∃ other ∈ values, other.isNaN = false) : value.isNaN = false := by
  obtain ⟨other, member, otherIsNumber⟩ := someNumber
  obtain ⟨offset, atMost⟩ := highest.rank_le covers member
  exact bot_lt_rank_iff.mp ((bot_lt_rank_iff.mpr otherIsNumber).trans_le atMost)

theorem le_value (covers : values.length ≤ axis.binCount) (isNumber : value.isNaN = false)
    {other : Float} (member : other ∈ values) (otherIsNumber : other.isNaN = false) :
    other ≤ value := by
  obtain ⟨offset, atMost⟩ := highest.rank_le covers member
  have notAbove : ¬ exact value < exact other := fun above =>
    atMost.not_gt ((rank_lt_rank_iff isNumber otherIsNumber).mpr (.inl above))
  exact (HasValue.le_iff ⟨otherIsNumber, rfl⟩ ⟨isNumber, rfl⟩).mpr (not_lt.mp notAbove)

theorem isNearerBin (distances : HasDistances axis point) (isNumber : value.isNaN = false)
    {other : Nat} {otherValue otherCenter : Float} (different : other ≠ index)
    (isOther : values[other]? = some otherValue)
    (isOtherCenter : axis.center? other = some otherCenter)
    (equal : (otherValue == value) = true) :
    IsNearerBin point (index, center) (other, otherCenter) := by
  have otherIsNumber := (isNaN_eq_false_of_beq equal).1
  have same : exact otherValue = exact value :=
    (HasValue.beq_iff ⟨otherIsNumber, rfl⟩ ⟨isNumber, rfl⟩).mp equal
  have ordered : IsNearerBin point (index, center) (other, otherCenter) ↔ _ :=
    isNearerBin_iff (distances index center highest.isCenter)
      (distances other otherCenter isOtherCenter)
  rw [ordered]
  rcases highest.wins other otherValue otherCenter isOther isOtherCenter with below | asHigh
  · rcases (rank_lt_rank_iff otherIsNumber isNumber).mp below with less | nearer
    · exact absurd same less.ne
    · exact .inl nearer.2
  · have asNear := ((rank_eq_rank_iff otherIsNumber isNumber).mp asHigh.1).2
    exact .inr ⟨asNear.symm, lt_of_le_of_ne asHigh.2 different.symm⟩

theorem isLargest (distances : HasDistances axis point) (covers : values.length ≤ axis.binCount)
    (someNumber : ∃ other ∈ values, other.isNaN = false) :
    IsLargest values axis point index value center := by
  have isNumber := highest.isNumber covers someNumber
  exact ⟨isNumber, fun _ => highest.le_value covers isNumber,
    fun _ _ _ => highest.isNearerBin distances isNumber⟩

/-- Without a number all bins rank alike, and the first one is kept. -/
theorem eq_zero (covers : values.length ≤ axis.binCount)
    (noNumber : ∀ other ∈ values, other.isNaN = true) : index = 0 := by
  have lowest {place : Nat} {other offset : Float} (isOther : values[place]? = some other) :
      rank other offset = ⊥ :=
    rank_of_isNaN (noNumber other (List.mem_of_getElem? isOther))
  obtain ⟨within, _⟩ := List.getElem?_eq_some_iff.mp highest.isValue
  have isFirst := List.getElem?_eq_getElem ((Nat.zero_le index).trans_lt within)
  obtain ⟨firstCenter, isFirstCenter⟩ := exists_center?_eq covers isFirst
  rcases highest.wins 0 _ firstCenter isFirst isFirstCenter with below | asHigh
  · rw [lowest highest.isValue] at below
    exact absurd below not_lt_bot
  · exact Nat.le_zero.mp asHigh.2

end RanksHighest

end Search

/-! ## The lookup -/

/-- The coordinate with a name, `x` for any other text. -/
def namedCoordinate (name : String) : Coordinate :=
  if name = "y" then .y else if name = "z" then .z else .x

theorem getD_ofName? (name : String) :
    (Coordinate.ofName? name).getD .x = namedCoordinate name := by
  rw [Coordinate.ofName?, namedCoordinate]
  by_cases isX : name = "x"
  · subst isX
    rfl
  · split_ifs <;> rfl

theorem get_single {α : Type} (coordinate other : Coordinate) (value rest : α) :
    (Point.single coordinate value rest).get other = if other = coordinate then value else rest := by
  cases coordinate <;> cases other <;> rfl

theorem maxFromPoint_of_largest {values : List Float} {axis : Axis Float} {point value offset : Float}
    (isFound : largestFrom? values axis point = some (value, offset)) (node axisName : String) :
    maxFromPoint node values [axis] axisName point =
      .ok ⟨value, Point.single (namedCoordinate axisName) offset 0.0, none⟩ := by
  simp only [maxFromPoint, onlyAxis, bind, Except.bind, isFound, getD_ofName?]
  rfl

/-- The lookup returns the largest number with the offset of its bin, the nearest and then the first
of several, or what it finds in the first bin if there is no number. -/
theorem maxFromPoint_largest {values : List Float} {axis : Axis Float} {point : Float}
    (someBin : 0 < axis.binCount) (asMany : values.length = axis.binCount)
    (distances : HasDistances axis point) (node axisName : String) :
    ∃ index value center, values[index]? = some value ∧ axis.center? index = some center ∧
      (∃ position, maxFromPoint node values [axis] axisName point = .ok ⟨value, position, none⟩ ∧
        ∀ coordinate, position.get coordinate =
          if coordinate = namedCoordinate axisName then center - point else 0.0) ∧
      ((∃ other ∈ values, other.isNaN = false) → IsLargest values axis point index value center) ∧
      ((∀ other ∈ values, other.isNaN = true) → index = 0 ∧ value.isNaN = true) := by
  have nonempty : candidates values axis ≠ [] := by
    have isFirst := List.getElem?_eq_getElem (someBin.trans_eq asMany.symm)
    obtain ⟨center, isCenter⟩ := exists_center?_eq asMany.le isFirst
    exact List.ne_nil_of_mem (mem_candidates.mpr ⟨isFirst, isCenter⟩)
  obtain ⟨index, value, center, isFound, highest⟩ := exists_largestFrom?_eq distances nonempty
  refine ⟨index, value, center, highest.isValue, highest.isCenter,
    ⟨_, maxFromPoint_of_largest isFound node axisName,
      fun coordinate => get_single (namedCoordinate axisName) coordinate _ _⟩,
    highest.isLargest distances asMany.le, fun noNumber => ?_⟩
  exact ⟨highest.eq_zero asMany.le noNumber, noNumber value (List.mem_of_getElem? highest.isValue)⟩

theorem aroundFour_largest_from_six :
    0 < aroundFour.binCount ∧ [notANumber, 5.0, 1.0, 5.0].length = aroundFour.binCount ∧
      HasDistances aroundFour 6.0 ∧
      maxFromPoint "peak" [notANumber, 5.0, 1.0, 5.0] [aroundFour] "y" 6.0 =
        .ok ⟨5.0, ⟨0.0, 1.0, 0.0⟩, none⟩ ∧
      ∃ index center, IsLargest [notANumber, 5.0, 1.0, 5.0] aroundFour 6.0 index 5.0 center := by
  have distances : HasDistances aroundFour 6.0 := by
    decide +kernel
  have isFound : largestFrom? [notANumber, 5.0, 1.0, 5.0] aroundFour 6.0 = some (5.0, 1.0) := by
    decide +kernel
  have found := maxFromPoint_of_largest isFound "peak" "y"
  obtain ⟨index, value, center, _, _, ⟨position, isPosition, _⟩, isLargest, _⟩ :=
    maxFromPoint_largest (by decide : 0 < aroundFour.binCount)
      (rfl : [notANumber, 5.0, 1.0, 5.0].length = aroundFour.binCount) distances "peak" "y"
  have same : value = 5.0 := congrArg ValuePosition.value (Except.ok.inj (isPosition.symm.trans found))
  have someNumber : ∃ other ∈ [notANumber, 5.0, 1.0, 5.0], other.isNaN = false :=
    ⟨5.0, by simp, by decide +kernel⟩
  rw [same] at isLargest
  exact ⟨by decide, rfl, distances, found, index, center, isLargest someNumber⟩

end InSitu.Binning
