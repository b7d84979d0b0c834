import Mathlib
import InSitu.Proofs.Number.Order
import InSitu.Value.Histogram

/-!
# Quantiles

A quantile lies in the first bin whose value reaches the probability, as far from the lower edge as
its rule of interpolation says.  Without rounding, both rise with the probability, whatever the
values of the histogram are: a later bin begins where the earlier one ends, and within one bin the
fraction rises.
-/

namespace InSitu

namespace Histogram

variable {α : Type} [Scalar α] {histogram : Histogram α} {q : α}

/-- The value at the upper edge of a bin. -/
def atUpper (histogram : Histogram α) (bin : Nat) : α :=
  histogram.values.getD bin Scalar.zero

/-- The value at the lower edge of a bin, where the bin before ends. -/
def atLower (histogram : Histogram α) : Nat → α
  | 0 => Scalar.zero
  | bin + 1 => histogram.atUpper bin

/-- The fraction within the bin before it is kept between zero and one. -/
def rawFraction (histogram : Histogram α) (bin : Nat) (q : α) : α :=
  (q - histogram.atLower bin) / (histogram.atUpper bin - histogram.atLower bin)

theorem fractionOf_eq (histogram : Histogram α) (bin : Nat) (q : α) :
    histogram.fractionOf bin q =
      if Scalar.zero < histogram.atUpper bin - histogram.atLower bin then
        if histogram.rawFraction bin q < Scalar.zero then Scalar.zero
        else if Scalar.one < histogram.rawFraction bin q then Scalar.one
        else histogram.rawFraction bin q
      else Scalar.zero := by
  cases bin <;> rfl

/-- The bin of a probability is the first that reaches it, or the last if none does. -/
theorem binReaching_cases (histogram : Histogram α) (q : α) :
    (histogram.binReaching q < histogram.values.length ∧
        q ≤ histogram.atUpper (histogram.binReaching q) ∧
        ∀ bin < histogram.binReaching q, ¬ q ≤ histogram.atUpper bin) ∨
      histogram.binReaching q = histogram.values.length - 1 ∧
        ∀ bin < histogram.values.length, ¬ q ≤ histogram.atUpper bin := by
  have entry {bin : Nat} (inside : bin < histogram.values.length) :
      histogram.atUpper bin = histogram.values[bin] :=
    List.getD_eq_getElem _ _ inside
  cases found : histogram.values.findIdx? fun cumulative => q ≤ cumulative with
  | some bin =>
      have isBin : histogram.binReaching q = bin := by
        rw [binReaching, found, Option.getD_some]
      obtain ⟨inside, reached, first⟩ := List.findIdx?_eq_some_iff_getElem.mp found
      rw [isBin, entry inside]
      refine .inl ⟨inside, of_decide_eq_true reached, fun earlier before => ?_⟩
      rw [entry (before.trans inside)]
      simpa using first earlier before
  | none =>
      refine .inr ⟨by rw [binReaching, found, Option.getD_none], fun bin inside => ?_⟩
      rw [entry inside]
      simpa using List.findIdx?_eq_none_iff.mp found _ (List.getElem_mem inside)

theorem binReaching_lt (binned : histogram.values ≠ []) (q : α) :
    histogram.binReaching q < histogram.values.length := by
  have positive := List.length_pos_iff.mpr binned
  rcases histogram.binReaching_cases q with ⟨inside, _⟩ | ⟨isLast, _⟩
  · exact inside
  · omega

theorem not_le_atUpper_of_lt_binReaching {bin : Nat} (before : bin < histogram.binReaching q) :
    ¬ q ≤ histogram.atUpper bin := by
  rcases histogram.binReaching_cases q with ⟨_, _, first⟩ | ⟨isLast, never⟩
  · exact first bin before
  · exact never bin (by omega)

end Histogram

/-- The point of a bin that a rule picks, from the fraction of the bin below the probability. -/
def Interpolation.pointIn {α : Type} [Scalar α] (rule : Interpolation)
    (lower width fraction : α) : α :=
  match rule with
  | .linear => lower + width * fraction
  | .lower => lower
  | .higher => lower + width
  | .midpoint => lower + Scalar.half width
  | .nearest => if fraction < Scalar.half Scalar.one then lower else lower + width

namespace Histogram

section Points

variable {α : Type} [Scalar α] {histogram : Histogram α} {q : α}

def binWidth (histogram : Histogram α) : α :=
  (histogram.high - histogram.low) / Scalar.ofNat histogram.values.length

def lowerEdge (histogram : Histogram α) (bin : Nat) : α :=
  histogram.low + Scalar.ofNat bin * histogram.binWidth

theorem binBounds?_axis (histogram : Histogram α) (name : String) {bin : Nat}
    (inside : bin < histogram.values.length) :
    (histogram.axis name).binBounds? bin =
      some (histogram.lowerEdge bin, histogram.lowerEdge bin + histogram.binWidth) :=
  if_pos inside

theorem quantile_eq_ok (natural : Scalar.zero ≤ q) (atMost : q ≤ Scalar.one)
    (binned : histogram.values ≠ []) (rule : Interpolation) :
    histogram.quantile q rule =
      .ok (rule.pointIn (histogram.lowerEdge (histogram.binReaching q)) histogram.binWidth
        (histogram.fractionOf (histogram.binReaching q) q)) := by
  rw [quantile, if_neg (not_not_intro ⟨natural, atMost⟩), if_neg (by simpa using binned)]
  cases rule <;> rfl

/-- There is a quantile unless the probability is none, or there is no bin. -/
theorem exists_quantile_eq_error_iff (histogram : Histogram α) (q : α) (rule : Interpolation) :
    (∃ fault, histogram.quantile q rule = .error fault) ↔
      ¬ (Scalar.zero ≤ q ∧ q ≤ Scalar.one) ∨ histogram.values = [] := by
  by_cases probability : Scalar.zero ≤ q ∧ q ≤ Scalar.one
  · by_cases binned : histogram.values = []
    · simp [quantile, probability, binned]
    · simp [quantile_eq_ok probability.1 probability.2 binned, probability, binned]
  · simp [quantile, probability]

end Points

end Histogram

/-! ## Exact quantiles -/

namespace Interpolation

/-- How far into its bin the point of a rule lies. -/
def offset (rule : Interpolation) (fraction : ℚ) : ℚ :=
  match rule with
  | .linear => fraction
  | .lower => 0
  | .higher => 1
  | .midpoint => 1 / 2
  | .nearest => if fraction < 1 / 2 then 0 else 1

theorem pointIn_eq (rule : Interpolation) (lower width fraction : ℚ) :
    rule.pointIn lower width fraction = lower + rule.offset fraction * width := by
  cases rule with
  | linear =>
      rw [pointIn, offset, mul_comm]
  | lower =>
      rw [pointIn, offset, zero_mul, add_zero]
  | higher =>
      rw [pointIn, offset, one_mul]
  | midpoint =>
      rw [pointIn, offset, half_rat]
      ring
  | nearest =>
      rw [pointIn, offset, half_rat, one_rat]
      split
      · rw [zero_mul, add_zero]
      · rw [one_mul]

theorem offset_mono (rule : Interpolation) {first second : ℚ} (rising : first ≤ second) :
    rule.offset first ≤ rule.offset second := by
  cases rule with
  | linear =>
      exact rising
  | nearest =>
      simp only [offset]
      split_ifs <;> linarith
  | _ =>
      exact le_rfl

variable {fraction : ℚ}

theorem offset_nonneg (rule : Interpolation) (natural : 0 ≤ fraction) :
    0 ≤ rule.offset fraction := by
  cases rule with
  | linear =>
      exact natural
  | nearest =>
      simp only [offset]
      split_ifs <;> norm_num
  | _ =>
      norm_num [offset]

theorem offset_le_one (rule : Interpolation) (atMost : fraction ≤ 1) :
    rule.offset fraction ≤ 1 := by
  cases rule with
  | linear =>
      exact atMost
  | nearest =>
      simp only [offset]
      split_ifs <;> norm_num
  | _ =>
      norm_num [offset]

end Interpolation

namespace Histogram

variable {histogram : Histogram ℚ}

theorem fractionOf_rat (histogram : Histogram ℚ) (bin : Nat) (q : ℚ) :
    histogram.fractionOf bin q =
      if 0 < histogram.atUpper bin - histogram.atLower bin then
        max 0 (min 1 (histogram.rawFraction bin q))
      else 0 := by
  rw [fractionOf_eq, zero_rat, one_rat]
  split
  · split_ifs with below above
    · rw [max_eq_left ((min_le_right _ _).trans below.le)]
    · rw [min_eq_left above.le, max_eq_right zero_le_one]
    · rw [min_eq_right (not_lt.mp above), max_eq_right (not_lt.mp below)]
  · rfl

theorem fractionOf_nonneg (histogram : Histogram ℚ) (bin : Nat) (q : ℚ) :
    0 ≤ histogram.fractionOf bin q := by
  rw [fractionOf_rat]
  split
  · exact le_max_left _ _
  · exact le_rfl

theorem fractionOf_le_one (histogram : Histogram ℚ) (bin : Nat) (q : ℚ) :
    histogram.fractionOf bin q ≤ 1 := by
  rw [fractionOf_rat]
  split
  · exact max_le zero_le_one (min_le_left _ _)
  · exact zero_le_one

theorem fractionOf_mono (histogram : Histogram ℚ) (bin : Nat) {first second : ℚ}
    (rising : first ≤ second) :
    histogram.fractionOf bin first ≤ histogram.fractionOf bin second := by
  rw [fractionOf_rat, fractionOf_rat]
  split
  · rename_i spanning
    have raw : histogram.rawFraction bin first ≤ histogram.rawFraction bin second :=
      div_le_div_of_nonneg_right (sub_le_sub_right rising _) spanning.le
    exact max_le_max le_rfl (min_le_min le_rfl raw)
  · exact le_rfl

theorem binReaching_mono (histogram : Histogram ℚ) {first second : ℚ} (rising : first ≤ second) :
    histogram.binReaching first ≤ histogram.binReaching second := by
  by_contra before
  rw [not_le] at before
  have notReached := not_le_atUpper_of_lt_binReaching before
  rcases histogram.binReaching_cases second with ⟨_, reached, _⟩ | ⟨isLast, _⟩
  · exact notReached (rising.trans reached)
  · by_cases binned : histogram.values = []
    · simp [binReaching, binned] at before
    · have inside := binReaching_lt binned first
      omega

/-- The quantile in steps of a bin from the lower bound. -/
def steps (histogram : Histogram ℚ) (rule : Interpolation) (q : ℚ) : ℚ :=
  histogram.binReaching q + rule.offset (histogram.fractionOf (histogram.binReaching q) q)

theorem quantile_eq_steps {q : ℚ} (natural : 0 ≤ q) (atMost : q ≤ 1)
    (binned : histogram.values ≠ []) (rule : Interpolation) :
    histogram.quantile q rule =
      .ok (histogram.low + histogram.steps rule q * histogram.binWidth) := by
  rw [quantile_eq_ok (by rwa [zero_rat]) (by rwa [one_rat]) binned, rule.pointIn_eq, lowerEdge,
    steps, add_mul, add_assoc]
  rfl

theorem steps_mono (histogram : Histogram ℚ) (rule : Interpolation) {first second : ℚ}
    (rising : first ≤ second) : histogram.steps rule first ≤ histogram.steps rule second := by
  rw [steps, steps]
  rcases (histogram.binReaching_mono rising).lt_or_eq with before | same
  · have next : (histogram.binReaching first : ℚ) + 1 ≤ histogram.binReaching second := by
      exact_mod_cast before
    have ends := rule.offset_le_one
      (histogram.fractionOf_le_one (histogram.binReaching first) first)
    have starts := rule.offset_nonneg
      (histogram.fractionOf_nonneg (histogram.binReaching second) second)
    linarith
  · rw [same]
    gcongr
    exact rule.offset_mono (histogram.fractionOf_mono _ rising)

theorem steps_nonneg (histogram : Histogram ℚ) (rule : Interpolation) (q : ℚ) :
    0 ≤ histogram.steps rule q :=
  add_nonneg (Nat.cast_nonneg _) (rule.offset_nonneg (histogram.fractionOf_nonneg _ q))

theorem steps_le_length (binned : histogram.values ≠ []) (rule : Interpolation) (q : ℚ) :
    histogram.steps rule q ≤ histogram.values.length := by
  have inside : (histogram.binReaching q : ℚ) + 1 ≤ histogram.values.length := by
    exact_mod_cast binReaching_lt binned q
  have ends := rule.offset_le_one (histogram.fractionOf_le_one (histogram.binReaching q) q)
  rw [steps]
  linarith

theorem steps_lower_le (histogram : Histogram ℚ) (rule : Interpolation) (q : ℚ) :
    histogram.steps .lower q ≤ histogram.steps rule q := by
  rw [steps, steps]
  gcongr
  exact rule.offset_nonneg (histogram.fractionOf_nonneg _ q)

theorem steps_le_higher (histogram : Histogram ℚ) (rule : Interpolation) (q : ℚ) :
    histogram.steps rule q ≤ histogram.steps .higher q := by
  rw [steps, steps]
  gcongr
  exact rule.offset_le_one (histogram.fractionOf_le_one _ q)

theorem length_mul_binWidth (binned : histogram.values ≠ []) :
    histogram.values.length * histogram.binWidth = histogram.high - histogram.low := by
  have nonzero : (histogram.values.length : ℚ) ≠ 0 := by
    simpa using binned
  exact mul_div_cancel₀ _ nonzero

theorem binWidth_nonneg (ordered : histogram.low ≤ histogram.high) : 0 ≤ histogram.binWidth :=
  div_nonneg (sub_nonneg.mpr ordered) (Nat.cast_nonneg _)

/-- Quantiles that rise with the probability from one bound to the other, between those of the
outer rules. -/
structure RisingQuantiles (histogram : Histogram ℚ) (rule : Interpolation) : Prop where
  rise : ∀ first second : ℚ, 0 ≤ first → first ≤ second → second ≤ 1 →
    ∃ lesser greater, histogram.quantile first rule = .ok lesser ∧
      histogram.quantile second rule = .ok greater ∧
      histogram.low ≤ lesser ∧ lesser ≤ greater ∧ greater ≤ histogram.high
  between : ∀ q : ℚ, 0 ≤ q → q ≤ 1 →
    ∃ lowest point highest, histogram.quantile q .lower = .ok lowest ∧
      histogram.quantile q rule = .ok point ∧ histogram.quantile q .higher = .ok highest ∧
      lowest ≤ point ∧ point ≤ highest

theorem risingQuantiles (binned : histogram.values ≠ [])
    (ordered : histogram.low ≤ histogram.high) (rule : Interpolation) :
    RisingQuantiles histogram rule := by
  have width := binWidth_nonneg ordered
  have ends := length_mul_binWidth binned
  constructor
  · intro first second natural rising atMost
    have start := mul_nonneg (histogram.steps_nonneg rule first) width
    have stop := mul_le_mul_of_nonneg_right (steps_le_length binned rule second) width
    refine ⟨_, _, quantile_eq_steps natural (rising.trans atMost) binned rule,
      quantile_eq_steps (natural.trans rising) atMost binned rule, ?_, ?_, ?_⟩
    · exact le_add_of_nonneg_right start
    · gcongr
      exact histogram.steps_mono rule rising
    · linarith
  · intro q natural atMost
    refine ⟨_, _, _, quantile_eq_steps natural atMost binned .lower,
      quantile_eq_steps natural atMost binned rule,
      quantile_eq_steps natural atMost binned .higher, ?_, ?_⟩
    · gcongr
      exact histogram.steps_lower_le rule q
    · gcongr
      exact histogram.steps_le_higher rule q

theorem not_probability_iff (q : Float) :
    ¬ ((Scalar.zero : Float) ≤ q ∧ q ≤ Scalar.one) ↔ q.isNaN = true ∨ q < 0 ∨ 1 < q := by
  cases isNumber : q.isNaN with
  | false =>
      have least : ¬ q < 0 ↔ 0 ≤ q := Number.not_lt_iff_le isNumber (by decide +kernel)
      have most : ¬ 1 < q ↔ q ≤ 1 := Number.not_lt_iff_le (by decide +kernel) isNumber
      change ¬ ((0 : Float) ≤ q ∧ q ≤ 1) ↔ _
      rw [← least, ← most, not_and_or, not_not, not_not]
      simp
  | true =>
      have none : ¬ (Scalar.zero : Float) ≤ q := fun natural =>
        Bool.eq_false_iff.mp (Number.isNaN_eq_false_of_le natural).2 isNumber
      exact iff_of_true (fun probability => none probability.1) (.inl rfl)

/-- Quantiles over exact numbers rise with the probability.  With or without rounding there is
one unless the probability lies outside the range from zero to one, is no number, or there is no
bin. -/
theorem quantiles_rise_within_bounds (histogram : Histogram ℚ) (rounded : Histogram Float)
    (rule : Interpolation) :
    (histogram.values ≠ [] → histogram.low ≤ histogram.high → RisingQuantiles histogram rule) ∧
      (∀ q : ℚ, (∃ fault, histogram.quantile q rule = .error fault) ↔
        q < 0 ∨ 1 < q ∨ histogram.values = []) ∧
      ∀ q : Float, (∃ fault, rounded.quantile q rule = .error fault) ↔
        q.isNaN = true ∨ q < 0 ∨ 1 < q ∨ rounded.values = [] := by
  refine ⟨fun binned ordered => risingQuantiles binned ordered rule, fun q => ?_, fun q => ?_⟩
  · rw [exists_quantile_eq_error_iff, zero_rat, one_rat, not_and_or, not_le, not_le, or_assoc]
  · rw [exists_quantile_eq_error_iff, not_probability_iff, or_assoc, or_assoc]

/-- Values that fall, rise beyond one and repeat. -/
def unevenHeights : Histogram ℚ := ⟨[1 / 2, -1, 3, 3, 1 / 4], -2, 3, true⟩

theorem unevenHeights_rise :
    unevenHeights.values ≠ [] ∧ unevenHeights.low ≤ unevenHeights.high ∧
      (unevenHeights.quantile (1 / 4) .linear).toOption = some (-3 / 2) ∧
      (unevenHeights.quantile (3 / 4) .linear).toOption = some (7 / 16) ∧
      RisingQuantiles unevenHeights .linear := by
  have binned : unevenHeights.values ≠ [] := by
    decide
  have ordered : unevenHeights.low ≤ unevenHeights.high := by
    decide +kernel
  refine ⟨binned, ordered, by decide +kernel, by decide +kernel, ?_⟩
  exact (quantiles_rise_within_bounds unevenHeights ⟨[], 0, 1, true⟩ .linear).1 binned ordered

end Histogram

end InSitu
