import InSitu.Proofs.Histogram.Cumulative
import InSitu.Proofs.Number.Arithmetic

/-!
# Quantiles and occupied bins

With rounding, a quantile still lies between the edges of the bin that it is taken from.  An empty
bin adds nothing to the running sums, so no bin that is the first to reach a probability is empty;
but where the running sums stay below a probability, the quantile is taken from the last bin.
-/

namespace InSitu

open Number

/-- The value lies between the edges, whichever of them is the lower one. -/
def LiesBetween (first second value : Float) : Prop :=
  first ≤ value ∧ value ≤ second ∨ second ≤ value ∧ value ≤ first

instance (first second value : Float) : Decidable (LiesBetween first second value) :=
  inferInstanceAs (Decidable (_ ∨ _))

section Edges

variable {lower width part fraction : Float} {edge : EReal} {span inside share : ℝ}

theorem liesBetween_iff {first second value : Float} {a b v : EReal} (firstValue : HasValue first a)
    (secondValue : HasValue second b) (hasValue : HasValue value v) :
    LiesBetween first second value ↔ v ∈ Set.uIcc a b := by
  rw [LiesBetween, firstValue.le_iff hasValue, hasValue.le_iff secondValue,
    secondValue.le_iff hasValue, hasValue.le_iff firstValue, Set.mem_uIcc]

/-- Rounding does not take a sum beyond the edges. -/
theorem liesBetween_add (lowerValue : HasValue lower edge) (widthValue : HasValue width span)
    (partValue : HasValue part inside) (within : inside ∈ Set.uIcc 0 span) :
    LiesBetween lower (lower + width) (lower + part) := by
  have sum {x : Float} {a : ℝ} (xValue : HasValue x a) :
      HasValue (lower + x) (rounded (edge + a)) :=
    lowerValue.add xValue (.inr (EReal.coe_ne_top a)) (.inr (EReal.coe_ne_bot a))
  have mono : Monotone fun x : ℝ => rounded (edge + x) := fun x y below =>
    rounded_mono (add_le_add_right (EReal.coe_le_coe below) edge)
  rw [liesBetween_iff lowerValue (sum widthValue) (sum partValue)]
  have between := mono.mapsTo_uIcc within
  rwa [EReal.coe_zero, add_zero, lowerValue.rounded_eq] at between

theorem mul_mem_uIcc (span : ℝ) (natural : 0 ≤ share) (atMost : share ≤ 1) :
    span * share ∈ Set.uIcc 0 span := by
  rcases le_total 0 span with above | below
  · exact Set.mem_uIcc.mpr (.inl ⟨mul_nonneg above natural, mul_le_of_le_one_right above atMost⟩)
  · refine Set.mem_uIcc.mpr (.inr ⟨?_, mul_nonpos_of_nonpos_of_nonneg below natural⟩)
    have kept := mul_le_mul_of_nonpos_left atMost below
    rwa [mul_one] at kept

theorem exists_hasValue_mul (widthValue : HasValue width span)
    (fractionValue : HasValue fraction share) (natural : 0 ≤ share) (atMost : share ≤ 1) :
    ∃ value ∈ Set.uIcc 0 span, HasValue (width * fraction) (value : ℝ) := by
  obtain ⟨value, between, isRounded⟩ :=
    exists_rounded_mem_uIcc (mul_mem_uIcc span natural atMost) widthValue.rounded_eq
  exact ⟨value, between, isRounded ▸ widthValue.mul fractionValue⟩

theorem exists_hasValue_div (widthValue : HasValue width span)
    (fractionValue : HasValue fraction share) (atLeast : 1 ≤ share) :
    ∃ value ∈ Set.uIcc 0 span, HasValue (width / fraction) (value : ℝ) := by
  have positive : 0 < share := zero_lt_one.trans_le atLeast
  have within := mul_mem_uIcc span (inv_nonneg.mpr positive.le) (inv_le_one_of_one_le₀ atLeast)
  rw [← div_eq_mul_inv] at within
  obtain ⟨value, between, isRounded⟩ := exists_rounded_mem_uIcc within widthValue.rounded_eq
  have quotient := widthValue.div fractionValue (EReal.coe_ne_zero.mpr positive.ne')
  rw [← EReal.coe_div, isRounded] at quotient
  exact ⟨value, between, quotient⟩

theorem Interpolation.liesBetween_pointIn (rule : Interpolation) (lowerValue : HasValue lower edge)
    (widthValue : HasValue width span) (fractionValue : HasValue fraction share)
    (natural : 0 ≤ share) (atMost : share ≤ 1) :
    LiesBetween lower (lower + width) (rule.pointIn lower width fraction) := by
  have sum : HasValue (lower + width) (rounded (edge + span)) :=
    lowerValue.add widthValue (.inr (EReal.coe_ne_top _)) (.inr (EReal.coe_ne_bot _))
  have atLower : LiesBetween lower (lower + width) lower :=
    (liesBetween_iff lowerValue sum lowerValue).mpr Set.left_mem_uIcc
  have atUpper : LiesBetween lower (lower + width) (lower + width) :=
    (liesBetween_iff lowerValue sum sum).mpr Set.right_mem_uIcc
  cases rule with
  | linear =>
      obtain ⟨_, within, partValue⟩ :=
        exists_hasValue_mul widthValue fractionValue natural atMost
      exact liesBetween_add lowerValue widthValue partValue within
  | lower =>
      exact atLower
  | higher =>
      exact atUpper
  | midpoint =>
      obtain ⟨two, twoValue, atLeast⟩ := exists_hasValue_ofNat (by decide : 2 < 2 ^ 64)
      obtain ⟨_, within, partValue⟩ :=
        exists_hasValue_div widthValue twoValue (atLeast two_pos)
      exact liesBetween_add lowerValue widthValue partValue within
  | nearest =>
      rw [Interpolation.pointIn]
      split
      · exact atLower
      · exact atUpper

end Edges

/-- Doubles that are not negative do not lose by a sum. -/
theorem le_add_of_natural {x y : Float} (xNatural : 0 ≤ x) (yNatural : 0 ≤ y) :
    x ≤ x + y ∧ y ≤ x + y := by
  obtain ⟨_, xIsNumber, xLeast⟩ := (le_iff_exact 0 x).mp xNatural
  obtain ⟨_, yIsNumber, yLeast⟩ := (le_iff_exact 0 y).mp yNatural
  have zero : exact 0 = 0 := exact_zero
  rw [zero] at xLeast yLeast
  have xValue : HasValue x (exact x) := ⟨xIsNumber, rfl⟩
  have yValue : HasValue y (exact y) := ⟨yIsNumber, rfl⟩
  have sum := xValue.add yValue (.inl (EReal.bot_lt_zero.trans_le xLeast).ne')
    (.inr (EReal.bot_lt_zero.trans_le yLeast).ne')
  rw [xValue.le_iff sum, yValue.le_iff sum]
  constructor
  · have above := rounded_mono (le_add_of_nonneg_right yLeast : exact x ≤ exact x + exact y)
    rwa [xValue.rounded_eq] at above
  · have above := rounded_mono (le_add_of_nonneg_left xLeast : exact y ≤ exact x + exact y)
    rwa [yValue.rounded_eq] at above

theorem natural_of_mem_pairUp {elements : List Float} (natural : ∀ element ∈ elements, 0 ≤ element)
    {sum : Float} (isSum : sum ∈ pairUp (fun first second => first + second) elements) :
    0 ≤ sum := by
  rcases mem_pairUp isSum with before | ⟨first, isFirst, second, isSecond, rfl⟩
  · exact natural sum before
  · have aboveFirst := (le_add_of_natural (natural first isFirst) (natural second isSecond)).1
    exact Number.le_trans (natural first isFirst) aboveFirst

/-- No sample is above what is left of it and its neighbour after a round. -/
theorem exists_ge_mem_pairUp :
    ∀ {elements : List Float}, (∀ element ∈ elements, 0 ≤ element) → ∀ {element : Float},
      element ∈ elements →
        ∃ sum ∈ pairUp (fun first second => first + second) elements, element ≤ sum
  | [last], natural, element, member => ⟨element, member, Number.le_self_of_le (natural _ member)⟩
  | first :: second :: rest, natural, element, member => by
      rw [List.forall_mem_cons, List.forall_mem_cons] at natural
      obtain ⟨firstNatural, secondNatural, restNatural⟩ := natural
      obtain ⟨aboveFirst, aboveSecond⟩ := le_add_of_natural firstNatural secondNatural
      rcases List.mem_cons.mp member with rfl | member
      · exact ⟨_, List.mem_cons_self, aboveFirst⟩
      rcases List.mem_cons.mp member with rfl | member
      · exact ⟨_, List.mem_cons_self, aboveSecond⟩
      · obtain ⟨sum, isSum, above⟩ := exists_ge_mem_pairUp restNatural member
        exact ⟨sum, List.mem_cons_of_mem _ isSum, above⟩

theorem le_sum_of_mem {samples : List Float} (natural : ∀ sample ∈ samples, 0 ≤ sample)
    {sample : Float} (member : sample ∈ samples) : sample ≤ Sample.sum samples := by
  have kept : ∀ (_ : Nat) (elements : List Float), 1 < elements.length →
      (∀ element ∈ elements, 0 ≤ element) ∧ (∃ element ∈ elements, sample ≤ element) →
        (∀ sum ∈ pairUp (fun first second => first + second) elements, 0 ≤ sum) ∧
          ∃ sum ∈ pairUp (fun first second => first + second) elements, sample ≤ sum := by
    rintro _ elements _ ⟨elementsNatural, element, isElement, below⟩
    obtain ⟨sum, isSum, above⟩ := exists_ge_mem_pairUp elementsNatural isElement
    exact ⟨fun _ => natural_of_mem_pairUp elementsNatural, sum, isSum,
      Number.le_trans below above⟩
  obtain ⟨last, _, isLast, _, above⟩ := exists_reduceInRounds? _ 0 (List.ne_nil_of_mem member)
    ⟨natural, sample, member, Number.le_self_of_le (natural sample member)⟩ kept
  have isSum : Sample.sum samples = last := by
    rw [Sample.sum, isLast, Option.getD_some]
  rw [isSum]
  simpa using above

namespace Histogram

variable {histogram : Histogram Float} {q : Float}

/-- The count of the bin is positive. -/
def Occupied (histogram : Histogram Float) (bin : Nat) : Prop :=
  0 < histogram.values.getD bin Scalar.zero

instance (histogram : Histogram Float) (bin : Nat) : Decidable (histogram.Occupied bin) :=
  inferInstanceAs (Decidable (_ < _))

/-- Whole numbers of samples in the bins, not all of them zero. -/
structure IsCounted (histogram : Histogram Float) : Prop where
  whole : ∀ count ∈ histogram.values, ∃ natural : Nat, HasValue count natural
  some_positive : ∃ count ∈ histogram.values, 0 < count

theorem IsCounted.ne_nil (counted : histogram.IsCounted) : histogram.values ≠ [] :=
  List.ne_nil_of_mem counted.some_positive.choose_spec.1

theorem IsCounted.sum_pos (counted : histogram.IsCounted) : 0 < Sample.sum histogram.values := by
  obtain ⟨count, member, positive⟩ := counted.some_positive
  have natural : ∀ count ∈ histogram.values, 0 ≤ count := by
    intro count member
    obtain ⟨natural, hasValue⟩ := counted.whole count member
    exact (hasValue_zero.le_iff hasValue).mpr (by positivity)
  exact Number.lt_of_lt_of_le positive (le_sum_of_mem natural member)

theorem exists_hasValue_binWidth (binned : histogram.values ≠ [])
    (inWord : histogram.values.length < 2 ^ 64)
    (bounded : (histogram.high - histogram.low).isFinite = true) :
    ∃ width : ℝ, HasValue histogram.binWidth width := by
  obtain ⟨distance, distanceValue⟩ := exists_hasValue_of_isFinite bounded
  obtain ⟨count, countValue, atLeast⟩ := exists_hasValue_ofNat inWord
  obtain ⟨width, _, widthValue⟩ :=
    exists_hasValue_div distanceValue countValue (atLeast (List.length_pos_iff.mpr binned))
  exact ⟨width, widthValue⟩

theorem exists_hasValue_lowerEdge {width : ℝ} (widthValue : HasValue histogram.binWidth width)
    (bounded : (histogram.high - histogram.low).isFinite = true) {bin : Nat}
    (inWord : bin < 2 ^ 64) : ∃ edge, HasValue (histogram.lowerEdge bin) edge := by
  obtain ⟨low, lowValue⟩ := exists_hasValue_of_isFinite (isFinite_of_sub bounded).2
  obtain ⟨place, placeValue, _⟩ := exists_hasValue_ofNat inWord
  exact ⟨_, lowValue.add (placeValue.mul widthValue) (.inl (EReal.coe_ne_bot low))
    (.inl (EReal.coe_ne_top low))⟩

theorem binWidth_cdf (histogram : Histogram Float) :
    histogram.cdf.binWidth = histogram.binWidth := by
  rw [binWidth, length_cdf]
  rfl

theorem lowerEdge_cdf (histogram : Histogram Float) (bin : Nat) :
    histogram.cdf.lowerEdge bin = histogram.lowerEdge bin := by
  rw [lowerEdge, binWidth_cdf]
  rfl

theorem rounded_nonneg {x : EReal} (natural : 0 ≤ x) : 0 ≤ rounded x := by
  rw [← rounded_zero]
  exact rounded_mono natural

/-- An empty bin has no share. -/
theorem exists_hasValue_share (counted : histogram.IsCounted) {bin : Nat}
    (inside : bin < histogram.values.length) :
    ∃ share, HasValue (histogram.pdf.values.getD bin Scalar.zero) share ∧ 0 ≤ share ∧
      (¬ histogram.Occupied bin → share = 0) := by
  obtain ⟨natural, countValue⟩ := counted.whole _ (List.getElem_mem inside)
  obtain ⟨totalIsNumber, above⟩ : (Sample.sum histogram.values).isNaN = false ∧
      0 < exact (Sample.sum histogram.values) := by
    obtain ⟨_, totalIsNumber, above⟩ := (lt_iff_exact _ _).mp counted.sum_pos
    exact ⟨totalIsNumber, exact_zero ▸ above⟩
  have isShare : histogram.pdf.values.getD bin Scalar.zero =
      histogram.values[bin] / Sample.sum histogram.values := by
    have shares : bin < histogram.pdf.values.length := by
      rwa [pdf, List.length_map]
    rw [List.getD_eq_getElem _ _ shares]
    simp only [pdf, List.getElem_map]
    exact if_pos counted.sum_pos
  have shareValue := HasValue.div (a := natural) countValue ⟨totalIsNumber, rfl⟩ above.ne'
  refine ⟨_, isShare ▸ shareValue, rounded_nonneg ?_, fun empty => ?_⟩
  · exact EReal.div_nonneg (by positivity) above.le
  · -- An empty bin holds zero, and zero divided by the total, infinite or not, is zero.
    have none : ¬ (0 : EReal) < natural := by
      rw [Occupied, List.getD_eq_getElem _ _ inside] at empty
      exact (hasValue_zero.lt_iff countValue).not.mp empty
    have isZero : natural = 0 := by
      simpa using none
    rw [isZero, Nat.cast_zero, EReal.coe_zero, EReal.zero_div, rounded_zero]

/-- Cumulative values are not negative. -/
theorem exists_hasValue_atLower (counted : histogram.IsCounted) {bin : Nat}
    (inside : bin ≤ histogram.values.length) :
    ∃ before, HasValue (histogram.cdf.atLower bin) before ∧ 0 ≤ before := by
  induction bin with
  | zero =>
      exact ⟨0, hasValue_zero, le_rfl⟩
  | succ bin inductionHypothesis =>
      obtain ⟨before, beforeValue, natural⟩ := inductionHypothesis (Nat.le_of_succ_le inside)
      obtain ⟨share, shareValue, shareNatural, _⟩ := exists_hasValue_share counted inside
      have next := beforeValue.add shareValue (.inl (EReal.bot_lt_zero.trans_le natural).ne')
        (.inr (EReal.bot_lt_zero.trans_le shareNatural).ne')
      rw [← atUpper_cdf histogram inside] at next
      exact ⟨_, next, rounded_nonneg (add_nonneg natural shareNatural)⟩

/-- An empty bin adds nothing to the cumulative values. -/
theorem exists_hasValue_of_empty (counted : histogram.IsCounted) {bin : Nat}
    (inside : bin < histogram.values.length)
    (empty : ¬ histogram.Occupied bin) :
    ∃ before, HasValue (histogram.cdf.atLower bin) before ∧
      HasValue (histogram.cdf.atUpper bin) before := by
  obtain ⟨before, beforeValue, natural⟩ := exists_hasValue_atLower counted inside.le
  obtain ⟨share, shareValue, _, none⟩ := exists_hasValue_share counted inside
  rw [none empty] at shareValue
  have next := beforeValue.add shareValue (.inr EReal.zero_ne_top) (.inr EReal.zero_ne_bot)
  rw [← atUpper_cdf histogram inside, add_zero, beforeValue.rounded_eq] at next
  exact ⟨before, beforeValue, next⟩

/-! ## Bins of probabilities -/

theorem not_le_atLower_binReaching (positive : 0 < q) :
    ¬ q ≤ histogram.atLower (histogram.binReaching q) := by
  cases isBin : histogram.binReaching q with
  | zero =>
      exact Number.not_le_of_lt positive
  | succ bin =>
      have before : bin < histogram.binReaching q := by
        rw [isBin]
        exact Nat.lt_succ_self bin
      exact not_le_atUpper_of_lt_binReaching before

/-- The bin that a quantile is taken from is occupied if some cumulative value reaches the
probability, or else if the last bin is. -/
theorem occupied_binReaching_iff (counted : histogram.IsCounted) (positive : 0 < q) :
    histogram.Occupied (histogram.cdf.binReaching q) ↔
      (∃ cumulative ∈ histogram.cdf.values, q ≤ cumulative) ∨
        histogram.Occupied (histogram.values.length - 1) := by
  have isNumber : HasValue q (exact q) := ⟨(isNaN_eq_false_of_lt positive).2, rfl⟩
  rcases histogram.cdf.binReaching_cases q with ⟨inside, reached, _⟩ | ⟨isLast, never⟩
  · have member : histogram.cdf.atUpper (histogram.cdf.binReaching q) ∈ histogram.cdf.values := by
      rw [atUpper, List.getD_eq_getElem _ _ inside]
      exact List.getElem_mem inside
    refine iff_of_true ?_ (.inl ⟨_, member, reached⟩)
    by_contra empty
    rw [length_cdf] at inside
    obtain ⟨before, lowerValue, upperValue⟩ := exists_hasValue_of_empty counted inside empty
    have notReached : ¬ q ≤ histogram.cdf.atLower (histogram.cdf.binReaching q) :=
      not_le_atLower_binReaching positive
    rw [isNumber.le_iff lowerValue, ← isNumber.le_iff upperValue] at notReached
    exact notReached reached
  · rw [isLast, length_cdf, or_iff_right]
    rintro ⟨cumulative, member, reached⟩
    obtain ⟨bin, inside, rfl⟩ := List.getElem_of_mem member
    refine never bin inside ?_
    rwa [atUpper, List.getD_eq_getElem _ _ inside]

theorem exists_hasValue_clamped {x : Float} {value : EReal} (hasValue : HasValue x value) :
    ∃ share : ℝ, HasValue (if x < Scalar.zero then Scalar.zero
        else if Scalar.one < x then Scalar.one else x) share ∧ 0 ≤ share ∧ share ≤ 1 := by
  split_ifs with below above
  · exact ⟨0, hasValue_zero, le_rfl, zero_le_one⟩
  · exact ⟨1, hasValue_one, zero_le_one, le_rfl⟩
  · rw [hasValue.lt_iff hasValue_zero, not_lt] at below
    rw [hasValue_one.lt_iff hasValue, not_lt] at above
    lift value to ℝ using ⟨(above.trans_lt (EReal.coe_lt_top 1)).ne,
      (EReal.bot_lt_zero.trans_le below).ne'⟩
    exact ⟨value, hasValue, EReal.coe_nonneg.mp below, by exact_mod_cast above⟩

/-- The distance from the cumulative value below is between zero and one. -/
theorem exists_hasValue_sub_atLower (counted : histogram.IsCounted) (positive : 0 < q)
    (atMost : q ≤ 1) :
    ∃ distance : ℝ,
      HasValue (q - histogram.cdf.atLower (histogram.cdf.binReaching q)) distance := by
  obtain ⟨before, beforeValue, natural⟩ :=
    exists_hasValue_atLower counted (binReaching_cdf_lt counted.ne_nil q).le
  have isNumber : HasValue q (exact q) := ⟨(isNaN_eq_false_of_lt positive).2, rfl⟩
  have above : 0 < exact q := (hasValue_zero.lt_iff isNumber).mp positive
  have below : exact q ≤ 1 := (isNumber.le_iff hasValue_one).mp atMost
  have notReached : ¬ q ≤ histogram.cdf.atLower (histogram.cdf.binReaching q) :=
    not_le_atLower_binReaching positive
  rw [isNumber.le_iff beforeValue, not_le] at notReached
  generalize exact q = probability at *
  lift probability to ℝ using ⟨(below.trans_lt (EReal.coe_lt_top 1)).ne,
    (EReal.bot_lt_zero.trans above).ne'⟩
  lift before to ℝ using ⟨(notReached.trans (EReal.coe_lt_top _)).ne,
    (EReal.bot_lt_zero.trans_le natural).ne'⟩
  have ordered : before < probability := EReal.coe_lt_coe_iff.mp notReached
  have within : probability - before ∈ Set.uIcc 0 1 := by
    have least : 0 ≤ before := EReal.coe_nonneg.mp natural
    have most : probability ≤ 1 := by
      exact_mod_cast below
    exact Set.mem_uIcc.mpr (.inl ⟨by linarith, by linarith⟩)
  obtain ⟨distance, _, isRounded⟩ := exists_rounded_mem_uIcc within hasValue_one.rounded_eq
  exact ⟨distance, isRounded ▸ isNumber.sub beforeValue⟩

/-- The fraction of its bin that a probability lies at is a number from zero to one. -/
theorem exists_hasValue_fractionOf (counted : histogram.IsCounted) (positive : 0 < q)
    (atMost : q ≤ 1) :
    ∃ share : ℝ, HasValue (histogram.cdf.fractionOf (histogram.cdf.binReaching q) q) share ∧
      0 ≤ share ∧ share ≤ 1 := by
  rw [fractionOf_eq]
  split
  · rename_i spanning
    obtain ⟨distance, distanceValue⟩ := exists_hasValue_sub_atLower counted positive atMost
    obtain ⟨_, isNumber, above⟩ := (lt_iff_exact _ _).mp spanning
    rw [exact_zero] at above
    exact exists_hasValue_clamped (distanceValue.div ⟨isNumber, rfl⟩ above.ne')
  · exact ⟨0, hasValue_zero, le_rfl, zero_le_one⟩

/-- Quantiles of whole numbers of samples lie between the edges of the bin that they are taken
from.  The bin is empty only where the running sums stay below the probability and the last bin is
empty. -/
theorem quantile_liesBetween_occupied_iff (counted : histogram.IsCounted)
    (inWord : histogram.values.length < 2 ^ 64)
    (bounded : (histogram.high - histogram.low).isFinite = true) (positive : 0 < q)
    (atMost : q ≤ 1) (rule : Interpolation) (name : String) :
    ∃ lower upper value,
      (histogram.axis name).binBounds? (histogram.cdf.binReaching q) = some (lower, upper) ∧
      histogram.cdf.quantile q rule = .ok value ∧ LiesBetween lower upper value ∧
      (histogram.Occupied (histogram.cdf.binReaching q) ↔
        (∃ cumulative ∈ histogram.cdf.values, q ≤ cumulative) ∨
          histogram.Occupied (histogram.values.length - 1)) := by
  have inside := binReaching_cdf_lt counted.ne_nil q
  have quantile :=
    quantile_eq_ok (Number.le_of_lt positive) atMost (cdf_ne_nil counted.ne_nil) rule
  rw [lowerEdge_cdf, binWidth_cdf] at quantile
  obtain ⟨width, widthValue⟩ := exists_hasValue_binWidth counted.ne_nil inWord bounded
  obtain ⟨edge, edgeValue⟩ := exists_hasValue_lowerEdge widthValue bounded (inside.trans inWord)
  obtain ⟨share, shareValue, natural, most⟩ := exists_hasValue_fractionOf counted positive atMost
  exact ⟨_, _, _, binBounds?_axis histogram name inside, quantile,
    rule.liesBetween_pointIn edgeValue widthValue shareValue natural most,
    occupied_binReaching_iff counted positive⟩

/-- The shares 1 / 6, 2 / 3 and 1 / 6 add up to less than one, and the last bin is empty. -/
def trailingGap : Histogram Float := ⟨[1, 4, 1, 0].map Float.ofNat, 0, 4, true⟩

theorem isCounted_trailingGap : trailingGap.IsCounted where
  whole count member := by
    obtain ⟨natural, listed, rfl⟩ := List.mem_map.mp member
    have small : ∀ natural ∈ [1, 4, 1, 0], natural ≤ 2 ^ 53 := by
      decide
    exact ⟨natural, hasValue_ofNat (small natural listed)⟩
  some_positive := ⟨Float.ofNat 1, List.mem_map_of_mem (List.mem_cons_self ..), by decide +kernel⟩

theorem trailingGap_median_in_occupied_bin :
    trailingGap.IsCounted ∧ trailingGap.values.length < 2 ^ 64 ∧
      (trailingGap.high - trailingGap.low).isFinite = true ∧ (0 : Float) < 0.5 ∧
      (0.5 : Float) ≤ 1 ∧
      ∃ lower upper value,
        (trailingGap.axis "").binBounds? (trailingGap.cdf.binReaching 0.5) = some (lower, upper) ∧
        trailingGap.cdf.quantile 0.5 .midpoint = .ok value ∧ LiesBetween lower upper value ∧
        trailingGap.Occupied (trailingGap.cdf.binReaching 0.5) := by
  have inWord : trailingGap.values.length < 2 ^ 64 := by
    decide
  have bounded : (trailingGap.high - trailingGap.low).isFinite = true := by
    decide +kernel
  have positive : (0 : Float) < 0.5 := by
    decide +kernel
  have atMost : (0.5 : Float) ≤ 1 := by
    decide +kernel
  have reached : ∃ cumulative ∈ trailingGap.cdf.values, 0.5 ≤ cumulative := by
    decide +kernel
  obtain ⟨lower, upper, value, bounds, found, between, occupied⟩ :=
    quantile_liesBetween_occupied_iff isCounted_trailingGap inWord bounded positive atMost
      .midpoint ""
  exact ⟨isCounted_trailingGap, inWord, bounded, positive, atMost, lower, upper, value, bounds,
    found, between, occupied.mpr (.inl reached)⟩

theorem trailingGap_last_quantile_in_no_occupied_bin :
    trailingGap.IsCounted ∧ (0 : Float) < 1 ∧ (1 : Float) ≤ 1 ∧
      trailingGap.cdf.quantile 1 .midpoint = .ok 3.5 ∧
      ∀ bin lower upper, (trailingGap.axis "").binBounds? bin = some (lower, upper) →
        LiesBetween lower upper 3.5 → ¬ trailingGap.Occupied bin := by
  have binned : trailingGap.cdf.values ≠ [] := cdf_ne_nil isCounted_trailingGap.ne_nil
  have found : trailingGap.cdf.quantile 1 .midpoint = .ok 3.5 := by
    rw [quantile_eq_ok (by decide +kernel) (by decide +kernel) binned]
    exact congrArg Except.ok (by decide +kernel)
  have beyond : ∀ bin < 4, LiesBetween (trailingGap.lowerEdge bin)
      (trailingGap.lowerEdge bin + trailingGap.binWidth) 3.5 → ¬ trailingGap.Occupied bin := by
    decide +kernel
  refine ⟨isCounted_trailingGap, by decide +kernel, by decide +kernel, found, ?_⟩
  intro bin lower upper isBin between
  have inside : bin < 4 := by
    by_contra outside
    have none : (trailingGap.axis "").binBounds? bin = none := if_neg outside
    rw [none] at isBin
    cases isBin
  rw [binBounds?_axis trailingGap "" inside, Option.some.injEq, Prod.mk.injEq] at isBin
  obtain ⟨rfl, rfl⟩ := isBin
  exact beyond bin inside between

end Histogram

end InSitu
