import InSitu.Binning.Request
import InSitu.Proofs.Binning.Searching

/-!
# The nearest bin above a threshold

The bins that count are those with a value above the threshold whose center is not behind the point.
The search finds the nearest of them, the first one if several are as near, and it misses exactly if
there is none.  Values may be no numbers, and so may the threshold: then no value is above it.
-/

namespace InSitu.Binning

open Number

namespace Direction

/-- The sign that names a direction. -/
def sign : Direction → Int64
  | .forward => 1
  | .backward => -1

/-- Whether a center lies behind a point. -/
def LeavesBehind : Direction → Float → Float → Prop
  | .forward, point, center => center < point
  | .backward, point, center => point < center

theorem ofInt64?_sign (direction : Direction) : ofInt64? direction.sign = some direction := by
  cases direction <;> rfl

theorem ofInt64?_eq_none_iff {number : Int64} :
    ofInt64? number = none ↔ ∀ direction : Direction, number ≠ direction.sign := by
  constructor
  · rintro unnamed direction rfl
    rw [ofInt64?_sign] at unnamed
    cases unnamed
  · intro other
    exact (if_neg (other .forward)).trans (if_neg (other .backward))

/-- The sign of the distance tells the side that the center lies on. -/
theorem opposes_iff (direction : Direction) {point center : Float}
    (isNumber : (center - point).isNaN = false) :
    direction.opposes (center - point) = true ↔ direction.LeavesBehind point center := by
  cases direction with
  | forward =>
      exact decide_eq_true_iff.trans (sub_lt_zero_iff isNumber)
  | backward =>
      exact decide_eq_true_iff.trans (zero_lt_sub_iff isNumber)

end Direction

section Search

variable (values : List Float) (axis : Axis Float) (threshold point : Float) (direction : Direction)

/-- The bin has a value above the threshold, and its center is not behind the point. -/
structure IsEligible (index : Nat) (center : Float) : Prop where
  isCenter : axis.center? index = some center
  above : ∃ value, values[index]? = some value ∧ threshold < value
  notBehind : ¬ direction.LeavesBehind point center

/-- The bin is eligible and comes before all others that are. -/
def IsNearest (index : Nat) : Prop :=
  ∃ center, IsEligible values axis threshold point direction index center ∧
    ∀ other otherCenter, other ≠ index →
      IsEligible values axis threshold point direction other otherCenter →
        IsNearerBin point (index, center) (other, otherCenter)

/-- The bins that the search does not pass over. -/
def eligibleBins : List (Nat × Float × Float) :=
  (candidates values axis).filter fun bin =>
    threshold < bin.2.1 ∧ ¬ direction.opposes (bin.2.2 - point)

/-- The key of a bin: the nearer bin has the greater one. -/
noncomputable def closeness (bin : Nat × Float × Float) : ERealᵒᵈ :=
  OrderDual.toDual (exact (bin.2.2 - point).abs)

/-- What the search keeps of a bin. -/
def withDistance (bin : Nat × Float × Float) : Nat × Float :=
  (bin.1, (bin.2.2 - point).abs)

/-- Keeps the nearer of the best bin so far and the next one. -/
def nearerBin (best : Option (Nat × Float)) (bin : Nat × Float × Float) : Option (Nat × Float) :=
  nearer best bin.1 (bin.2.2 - point).abs

theorem nearestAbove?_eq_foldl :
    nearestAbove? values axis threshold point direction =
      ((eligibleBins values axis threshold point direction).foldl (nearerBin point) none).map
        Prod.fst := by
  rw [eligibleBins, List.foldl_filter, nearestAbove?]
  simp only [decide_eq_true_eq]
  rfl

variable {values axis threshold point direction} (distances : HasDistances axis point)

include distances

theorem mem_eligibleBins {index : Nat} {value center : Float} :
    (index, value, center) ∈ eligibleBins values axis threshold point direction ↔
      values[index]? = some value ∧ axis.center? index = some center ∧ threshold < value ∧
        ¬ direction.LeavesBehind point center := by
  rw [eligibleBins, List.mem_filter, mem_candidates, decide_eq_true_eq, and_assoc]
  refine and_congr_right fun _ => and_congr_right fun isCenter => and_congr_right fun _ => ?_
  exact not_congr (direction.opposes_iff (distances index center isCenter))

theorem exists_mem_eligibleBins_iff {index : Nat} {center : Float} :
    (∃ value, (index, value, center) ∈ eligibleBins values axis threshold point direction) ↔
      IsEligible values axis threshold point direction index center := by
  simp only [mem_eligibleBins distances]
  constructor
  · rintro ⟨value, isValue, isCenter, above, notBehind⟩
    exact ⟨isCenter, ⟨value, isValue, above⟩, notBehind⟩
  · rintro ⟨isCenter, ⟨value, isValue, above⟩, notBehind⟩
    exact ⟨value, isValue, isCenter, above, notBehind⟩

theorem IsEligible.hasDistance {index : Nat} {center : Float}
    (isEligible : IsEligible values axis threshold point direction index center) :
    (center - point).isNaN = false :=
  distances index center isEligible.isCenter

theorem exists_isNearest (nonempty : eligibleBins values axis threshold point direction ≠ []) :
    ∃ index, nearestAbove? values axis threshold point direction = some index ∧
      IsNearest values axis threshold point direction index := by
  have isNumber : ∀ bin ∈ eligibleBins values axis threshold point direction,
      (bin.2.2 - point).isNaN = false := fun bin member =>
    distances bin.1 bin.2.2 ((mem_eligibleBins distances).mp member).2.1
  have closer_iff : ∀ best ∈ eligibleBins values axis threshold point direction,
      ∀ bin ∈ eligibleBins values axis threshold point direction,
        (bin.2.2 - point).abs < (best.2.2 - point).abs ↔
          closeness point best < closeness point bin := fun best bestMember bin member =>
    (HasValue.abs (isNumber bin member)).lt_iff (HasValue.abs (isNumber best bestMember))
  obtain ⟨⟨index, value, center⟩, isKept, isBest⟩ := exists_foldl_isBest (closeness point) Prod.fst
    (withDistance point) (nearerBin point) nonempty (candidates_rising.filter _) (fun _ _ => rfl)
    (fun best bestMember bin member closer =>
      if_pos ((closer_iff best bestMember bin member).mpr closer))
    (fun best bestMember bin member notCloser =>
      if_neg (mt (closer_iff best bestMember bin member).mp notCloser))
  have isEligible := (exists_mem_eligibleBins_iff distances).mp ⟨value, isBest.mem⟩
  refine ⟨index, ?_, center, isEligible, ?_⟩
  · rw [nearestAbove?_eq_foldl, isKept]
    rfl
  · intro other otherCenter different otherEligible
    obtain ⟨otherValue, member⟩ := (exists_mem_eligibleBins_iff distances).mpr otherEligible
    have ordered : IsNearerBin point (index, center) (other, otherCenter) ↔ _ :=
      isNearerBin_iff (isEligible.hasDistance distances) (otherEligible.hasDistance distances)
    exact ordered.mpr <| (isBest.wins _ member).imp OrderDual.toDual_lt_toDual.mp fun same =>
      ⟨(OrderDual.toDual_inj.mp same.1).symm, lt_of_le_of_ne same.2 different.symm⟩

theorem IsNearest.unique {first second : Nat}
    (isFirst : IsNearest values axis threshold point direction first)
    (isSecond : IsNearest values axis threshold point direction second) : first = second := by
  by_contra different
  obtain ⟨firstCenter, firstEligible, beforeOthers⟩ := isFirst
  obtain ⟨secondCenter, secondEligible, alsoBeforeOthers⟩ := isSecond
  have before := beforeOthers second secondCenter (Ne.symm different) secondEligible
  have after := alsoBeforeOthers first firstCenter different firstEligible
  exact before.asymm (firstEligible.hasDistance distances) (secondEligible.hasDistance distances)
    after

theorem nearestAbove?_eq_some_iff {index : Nat} :
    nearestAbove? values axis threshold point direction = some index ↔
      IsNearest values axis threshold point direction index := by
  by_cases noBins : eligibleBins values axis threshold point direction = []
  · rw [nearestAbove?_eq_foldl, noBins]
    refine iff_of_false nofun fun ⟨center, isEligible, _⟩ => ?_
    obtain ⟨value, member⟩ := (exists_mem_eligibleBins_iff distances).mpr isEligible
    rw [noBins] at member
    cases member
  · obtain ⟨found, isFound, isNearest⟩ := exists_isNearest distances noBins
    rw [isFound, Option.some_inj]
    exact ⟨fun same => same ▸ isNearest, isNearest.unique distances⟩

theorem nearestAbove?_eq_none_iff :
    nearestAbove? values axis threshold point direction = none ↔
      ∀ index center, ¬ IsEligible values axis threshold point direction index center := by
  constructor
  · intro missed index center isEligible
    obtain ⟨value, member⟩ := (exists_mem_eligibleBins_iff distances).mpr isEligible
    obtain ⟨found, isFound, _⟩ := exists_isNearest distances (List.ne_nil_of_mem member)
    rw [missed] at isFound
    cases isFound
  · intro noneEligible
    by_contra found
    obtain ⟨index, isFound⟩ := Option.ne_none_iff_exists'.mp found
    obtain ⟨center, isEligible, _⟩ := (nearestAbove?_eq_some_iff distances).mp isFound
    exact noneEligible index center isEligible

end Search

/-! ## The lookup -/

theorem IsEligible.isSome_bin? {values : List Float} {axis : Axis Float} {threshold point : Float}
    {direction : Direction} {index : Nat} {center : Float}
    (isEligible : IsEligible values axis threshold point direction index center) :
    ∃ bin, bin? values axis index = some bin := by
  obtain ⟨bounds, isBounds, _⟩ := Option.map_eq_some_iff.mp isEligible.isCenter
  obtain ⟨value, isValue, _⟩ := isEligible.above
  exact ⟨_, by rw [bin?, isBounds, isValue]; rfl⟩

theorem index_of_bin? {values : List Float} {axis : Axis Float} {index : Nat} {bin : Bin Float}
    (isBin : bin? values axis index = some bin) : bin.index = some index := by
  obtain ⟨bounds, _, isBin⟩ := Option.bind_eq_some_iff.mp isBin
  obtain ⟨value, _, isBin⟩ := Option.bind_eq_some_iff.mp isBin
  cases isBin
  rfl

theorem onlyAxis_eq_error {node : String} {axes : List (Axis Float)} (notSingle : axes.length ≠ 1) :
    onlyAxis node axes = .error (.unsupported node (.severalAxes axes.length)) := by
  rcases axes with _ | ⟨_, _ | _⟩
  · rfl
  · exact absurd rfl notSingle
  · rfl

theorem pointAndAxis_eq_error_iff {node : String} {values : List Float} {axes : List (Axis Float)}
    {threshold point missValue : Float} {number : Int64} {fault : Fault} :
    pointAndAxis node values axes threshold point number missValue = .error fault ↔
      (axes.length ≠ 1 ∧ fault = .unsupported node (.severalAxes axes.length)) ∨
        axes.length = 1 ∧ (∀ direction : Direction, number ≠ direction.sign) ∧
          fault = .badArgument node (.direction number) := by
  rw [← Direction.ofInt64?_eq_none_iff, pointAndAxis]
  by_cases single : axes.length = 1
  · obtain ⟨axis, rfl⟩ := List.length_eq_one_iff.mp single
    cases Direction.ofInt64? number <;>
      simp [onlyAxis, bind, Except.bind, pure, Except.pure, eq_comm]
  · simp [onlyAxis_eq_error single, single, bind, Except.bind, eq_comm]

theorem pointAndAxis_sign (node : String) (values : List Float) (axis : Axis Float)
    (threshold point missValue : Float) (direction : Direction) :
    pointAndAxis node values [axis] threshold point direction.sign missValue =
      .ok (((nearestAbove? values axis threshold point direction).bind (bin? values axis)).getD
        (missedBin missValue)) := by
  cases direction <;> rfl

/-- The lookup returns the nearest of the bins above the threshold that are not behind the point,
and the miss value if there is none; it fails for any number but the sign of a direction, and for
any number of axes but one. -/
theorem pointAndAxis_nearest (node : String) (values : List Float) (threshold point : Float)
    (missValue : Float) :
    (∀ axis direction, HasDistances axis point →
      ∃ bin, pointAndAxis node values [axis] threshold point direction.sign missValue = .ok bin ∧
        (∀ index, bin? values axis index = some bin ↔
          IsNearest values axis threshold point direction index) ∧
        (bin = missedBin missValue ↔
          ∀ index center, ¬ IsEligible values axis threshold point direction index center)) ∧
      ∀ axes number fault,
        pointAndAxis node values axes threshold point number missValue = .error fault ↔
          (axes.length ≠ 1 ∧ fault = .unsupported node (.severalAxes axes.length)) ∨
            axes.length = 1 ∧ (∀ direction : Direction, number ≠ direction.sign) ∧
              fault = .badArgument node (.direction number) := by
  refine ⟨fun axis direction distances => ?_, fun _ _ _ => pointAndAxis_eq_error_iff⟩
  refine ⟨_, pointAndAxis_sign node values axis threshold point missValue direction, ?_⟩
  rw [← nearestAbove?_eq_none_iff distances]
  simp only [← nearestAbove?_eq_some_iff distances]
  cases found : nearestAbove? values axis threshold point direction with
  | none =>
      refine ⟨fun index => iff_of_false (fun isBin => ?_) nofun, iff_of_true rfl rfl⟩
      cases index_of_bin? isBin
  | some nearest =>
      obtain ⟨center, isEligible, _⟩ := (nearestAbove?_eq_some_iff distances).mp found
      obtain ⟨bin, isBin⟩ := isEligible.isSome_bin?
      rw [Option.bind_some, isBin, Option.getD_some]
      have place := index_of_bin? isBin
      refine ⟨fun index => ⟨fun isOther => ?_, ?_⟩, iff_of_false (fun missed => ?_) nofun⟩
      · exact place.symm.trans (index_of_bin? isOther)
      · rintro ⟨⟩
        exact isBin
      · rw [missed] at place
        cases place

theorem aroundFour_searched_forward :
    HasDistances aroundFour 4.0 ∧
      pointAndAxis "ahead" [5.0, notANumber, 1.0, 5.0] [aroundFour] 2.0 4.0 1 (-1.0) =
        .ok ⟨some 3, 5.0, 6.0, 8.0, 7.0⟩ ∧
      IsNearest [5.0, notANumber, 1.0, 5.0] aroundFour 2.0 4.0 .forward 3 := by
  have distances : HasDistances aroundFour 4.0 := by
    decide +kernel
  have middle : Axis.middle (6.0, 8.0) = (7.0 : Float) := by
    decide +kernel
  have isBin : bin? [5.0, notANumber, 1.0, 5.0] aroundFour 3 = some ⟨some 3, 5.0, 6.0, 8.0, 7.0⟩ := by
    rw [← middle]
    rfl
  have nearest : nearestAbove? [5.0, notANumber, 1.0, 5.0] aroundFour 2.0 4.0 .forward = some 3 := by
    decide +kernel
  have found := pointAndAxis_sign "ahead" [5.0, notANumber, 1.0, 5.0] aroundFour 2.0 4.0 (-1.0)
    .forward
  rw [nearest, Option.bind_some, isBin, Option.getD_some] at found
  obtain ⟨bin, isFound, isNearest_iff, _⟩ :=
    (pointAndAxis_nearest "ahead" [5.0, notANumber, 1.0, 5.0] 2.0 4.0 (-1.0)).1 aroundFour .forward
      distances
  have same := Except.ok.inj (isFound.symm.trans found)
  rw [← same] at isBin
  exact ⟨distances, found, (isNearest_iff 3).mp isBin⟩

end InSitu.Binning
