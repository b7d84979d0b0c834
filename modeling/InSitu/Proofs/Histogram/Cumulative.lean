import Mathlib
import InSitu.Proofs.Histogram.Quantile
import InSitu.Proofs.Sample.Rounds

/-!
# Cumulative histograms and their lines

The shares of the bins add up to one, and their running sums rise to one.  Drawn at the upper edges
of the bins and joined by straight lines, the running sums are a function of the value; the linear
quantile is its inverse, also where empty bins leave it flat.
-/

namespace InSitu.Histogram

section Sums

variable {α : Type} [Scalar α]

theorem length_runningSums (total : α) (values : List α) :
    (runningSums total values).length = values.length := by
  induction values generalizing total with
  | nil =>
      rfl
  | cons value rest inductionHypothesis =>
      exact congrArg (· + 1) (inductionHypothesis (total + value))

theorem length_cdf (histogram : Histogram α) :
    histogram.cdf.values.length = histogram.values.length := by
  rw [cdf, length_runningSums, pdf, List.length_map]

theorem cdf_ne_nil {histogram : Histogram α} (binned : histogram.values ≠ []) :
    histogram.cdf.values ≠ [] := by
  rwa [← List.length_pos_iff, length_cdf, List.length_pos_iff]

theorem binReaching_cdf_lt {histogram : Histogram α} (binned : histogram.values ≠ []) (q : α) :
    histogram.cdf.binReaching q < histogram.values.length := by
  rw [← length_cdf]
  exact binReaching_lt (cdf_ne_nil binned) q

theorem getD_runningSums (total : α) {values : List α} {place : Nat}
    (inside : place < values.length) (other : α) :
    (runningSums total values).getD place other =
      (total :: runningSums total values).getD place other + values.getD place other := by
  induction values generalizing total place with
  | nil =>
      cases inside
  | cons value rest inductionHypothesis =>
      cases place with
      | zero =>
          rfl
      | succ place =>
          exact inductionHypothesis (total + value) (Nat.lt_of_succ_lt_succ inside)

/-- Every cumulative value is the one before it and the share of its bin. -/
theorem atUpper_cdf (histogram : Histogram α) {bin : Nat}
    (inside : bin < histogram.values.length) :
    histogram.cdf.atUpper bin =
      histogram.cdf.atLower bin + histogram.pdf.values.getD bin Scalar.zero := by
  have shares : histogram.pdf.values.length = histogram.values.length := by
    rw [pdf, List.length_map]
  have next := getD_runningSums Scalar.zero (shares ▸ inside) Scalar.zero
  cases bin <;> exact next

end Sums

theorem getLast?_runningSums (total : ℚ) {values : List ℚ} (nonempty : values ≠ []) :
    (runningSums total values).getLast? = some (total + values.sum) := by
  induction values generalizing total with
  | nil =>
      exact absurd rfl nonempty
  | cons value rest inductionHypothesis =>
      cases rest with
      | nil =>
          simp [runningSums]
      | cons next others =>
          have later := inductionHypothesis (total + value) (List.cons_ne_nil _ _)
          rw [List.sum_cons, ← add_assoc, ← later]
          rfl

section Rising

variable {total : ℚ} {values : List ℚ}

theorem le_of_mem_runningSums (natural : ∀ value ∈ values, 0 ≤ value) {sum : ℚ}
    (member : sum ∈ runningSums total values) : total ≤ sum := by
  induction values generalizing total with
  | nil =>
      cases member
  | cons value rest inductionHypothesis =>
      rw [List.forall_mem_cons] at natural
      have first : total ≤ total + value := le_add_of_nonneg_right natural.1
      rcases List.mem_cons.mp member with rfl | later
      · exact first
      · exact first.trans (inductionHypothesis natural.2 later)

theorem pairwise_runningSums (natural : ∀ value ∈ values, 0 ≤ value) :
    (runningSums total values).Pairwise (· ≤ ·) := by
  induction values generalizing total with
  | nil =>
      exact List.Pairwise.nil
  | cons value rest inductionHypothesis =>
      rw [List.forall_mem_cons] at natural
      exact List.pairwise_cons.mpr
        ⟨fun sum member => le_of_mem_runningSums natural.2 member, inductionHypothesis natural.2⟩

end Rising

section Shares

variable {histogram : Histogram ℚ}

theorem values_pdf (counted : 0 < histogram.values.sum) :
    histogram.pdf.values = histogram.values.map (· / histogram.values.sum) := by
  simp only [pdf, Sample.sum_rat, zero_rat, if_pos counted]

theorem sum_pdf (counted : 0 < histogram.values.sum) : histogram.pdf.values.sum = 1 := by
  rw [values_pdf counted]
  simp only [div_eq_mul_inv]
  rw [List.sum_map_mul_right, List.map_id', mul_inv_cancel₀ counted.ne']

theorem nonneg_of_mem_pdf (natural : ∀ count ∈ histogram.values, 0 ≤ count)
    (counted : 0 < histogram.values.sum) : ∀ share ∈ histogram.pdf.values, 0 ≤ share := by
  intro share member
  rw [values_pdf counted] at member
  obtain ⟨count, isCount, rfl⟩ := List.mem_map.mp member
  exact div_nonneg (natural count isCount) counted.le

theorem values_cdf (histogram : Histogram ℚ) :
    histogram.cdf.values = runningSums 0 histogram.pdf.values := by
  rw [cdf, zero_rat]

theorem pairwise_cdf (natural : ∀ count ∈ histogram.values, 0 ≤ count)
    (counted : 0 < histogram.values.sum) : histogram.cdf.values.Pairwise (· ≤ ·) := by
  rw [values_cdf]
  exact pairwise_runningSums (nonneg_of_mem_pdf natural counted)

theorem values_ne_nil (counted : 0 < histogram.values.sum) : histogram.values ≠ [] := by
  intro none
  rw [none, List.sum_nil] at counted
  exact lt_irrefl _ counted

theorem getLast?_cdf (counted : 0 < histogram.values.sum) :
    histogram.cdf.values.getLast? = some 1 := by
  have shares : histogram.pdf.values ≠ [] := fun none => by
    have total := sum_pdf counted
    rw [none, List.sum_nil] at total
    exact zero_ne_one total
  rw [values_cdf, getLast?_runningSums 0 shares, sum_pdf counted, zero_add]

end Shares

/-- The line through points one step apart, from the height before the first of them. -/
def polyline (before : ℚ) : List ℚ → ℚ → ℚ
  | [], _ => before
  | height :: rest, steps =>
    if steps ≤ 1 then before + steps * (height - before) else polyline height rest (steps - 1)

theorem polyline_add (before : ℚ) {heights : List ℚ} {bin : Nat} (inside : bin < heights.length)
    {part : ℚ} (natural : 0 ≤ part) (atMost : part ≤ 1) :
    polyline before heights (bin + part) =
      (before :: heights).getD bin 0 +
        part * (heights.getD bin 0 - (before :: heights).getD bin 0) := by
  induction heights generalizing before bin with
  | nil =>
      cases inside
  | cons height rest inductionHypothesis =>
      cases bin with
      | zero =>
          rw [polyline, Nat.cast_zero, zero_add, if_pos atMost]
          rfl
      | succ bin =>
          have later := inductionHypothesis height (Nat.lt_of_succ_lt_succ inside)
          have lowered : ((bin + 1 : Nat) : ℚ) + part - 1 = bin + part := by
            push_cast
            ring
          rw [polyline, lowered]
          split
          · -- Only the upper end of the first step is left: there both lines meet.
            rename_i atEnd
            push_cast at atEnd
            have first : bin = 0 := by
              have none : (bin : ℚ) ≤ 0 := by
                linarith
              exact Nat.le_zero.mp (by exact_mod_cast none)
            subst first
            have noPart : part = 0 := by
              push_cast at atEnd
              linarith
            subst noPart
            simp
          · exact later

/-- The function that is zero at the lower bound, has the value of each bin at the upper edge of
the bin, and is straight between the edges. -/
structure IsCumulativeLine (histogram : Histogram ℚ) (line : ℚ → ℚ) : Prop where
  at_low : line histogram.low = 0
  at_upper : ∀ bin < histogram.values.length,
    line (histogram.lowerEdge bin + histogram.binWidth) = histogram.atUpper bin
  straight : ∀ bin < histogram.values.length, ∀ part, 0 ≤ part → part ≤ 1 →
    line (histogram.lowerEdge bin + part * histogram.binWidth) =
      line (histogram.lowerEdge bin) +
        part * (line (histogram.lowerEdge bin + histogram.binWidth) -
          line (histogram.lowerEdge bin))

section Lines

variable {histogram : Histogram ℚ} {line : ℚ → ℚ}

def cumulativeLine (histogram : Histogram ℚ) (value : ℚ) : ℚ :=
  polyline 0 histogram.values ((value - histogram.low) / histogram.binWidth)

theorem binWidth_pos (ordered : histogram.low < histogram.high) (binned : histogram.values ≠ []) :
    0 < histogram.binWidth := by
  have positive : (0 : ℚ) < histogram.values.length := by
    exact_mod_cast List.length_pos_iff.mpr binned
  exact div_pos (sub_pos.mpr ordered) positive

theorem lowerEdge_zero (histogram : Histogram ℚ) : histogram.lowerEdge 0 = histogram.low := by
  have none : (Scalar.ofNat 0 : ℚ) = 0 := zero_rat
  rw [lowerEdge, none, zero_mul, add_zero]

theorem lowerEdge_succ (histogram : Histogram ℚ) (bin : Nat) :
    histogram.lowerEdge (bin + 1) = histogram.lowerEdge bin + histogram.binWidth := by
  have next : (Scalar.ofNat (bin + 1) : ℚ) = Scalar.ofNat bin + 1 := Nat.cast_succ bin
  rw [lowerEdge, lowerEdge, next, add_mul, one_mul, add_assoc]

theorem cumulativeLine_eq (ordered : histogram.low < histogram.high) {bin : Nat}
    (inside : bin < histogram.values.length) {part : ℚ} (natural : 0 ≤ part) (atMost : part ≤ 1) :
    histogram.cumulativeLine (histogram.lowerEdge bin + part * histogram.binWidth) =
      histogram.atLower bin + part * (histogram.atUpper bin - histogram.atLower bin) := by
  have binned : histogram.values ≠ [] := List.ne_nil_of_length_pos (Nat.zero_lt_of_lt inside)
  have width := binWidth_pos ordered binned
  have steps : (histogram.lowerEdge bin + part * histogram.binWidth - histogram.low) /
      histogram.binWidth = bin + part := by
    have edge : histogram.lowerEdge bin = histogram.low + bin * histogram.binWidth := rfl
    rw [edge, div_eq_iff width.ne']
    ring
  rw [cumulativeLine, steps, polyline_add 0 inside natural atMost]
  cases bin <;> rfl

theorem isCumulativeLine_cumulativeLine (ordered : histogram.low < histogram.high)
    (binned : histogram.values ≠ []) : IsCumulativeLine histogram histogram.cumulativeLine := by
  have atEdge {bin : Nat} (inside : bin < histogram.values.length) :
      histogram.cumulativeLine (histogram.lowerEdge bin) = histogram.atLower bin := by
    simpa using cumulativeLine_eq ordered inside le_rfl zero_le_one
  have atEnd {bin : Nat} (inside : bin < histogram.values.length) :
      histogram.cumulativeLine (histogram.lowerEdge bin + histogram.binWidth) =
        histogram.atUpper bin := by
    simpa using cumulativeLine_eq ordered inside zero_le_one le_rfl
  constructor
  · rw [← lowerEdge_zero]
    exact atEdge (List.length_pos_iff.mpr binned)
  · exact fun bin inside => atEnd inside
  · intro bin inside part natural atMost
    rw [atEdge inside, atEnd inside]
    exact cumulativeLine_eq ordered inside natural atMost

theorem IsCumulativeLine.at_lower (isLine : IsCumulativeLine histogram line) {bin : Nat}
    (inside : bin < histogram.values.length) :
    line (histogram.lowerEdge bin) = histogram.atLower bin := by
  cases bin with
  | zero =>
      rw [lowerEdge_zero]
      exact isLine.at_low
  | succ bin =>
      rw [lowerEdge_succ]
      exact isLine.at_upper bin (Nat.lt_of_succ_lt inside)

/-! ## The inverse -/

/-- The fraction of a bin leads back to the probability between the values at its edges. -/
theorem atLower_add_fractionOf {bin : Nat} {q : ℚ} (above : histogram.atLower bin ≤ q)
    (below : q ≤ histogram.atUpper bin) :
    histogram.atLower bin +
      histogram.fractionOf bin q * (histogram.atUpper bin - histogram.atLower bin) = q := by
  rw [fractionOf_rat]
  split
  · rename_i spanning
    have natural : 0 ≤ histogram.rawFraction bin q :=
      div_nonneg (sub_nonneg.mpr above) spanning.le
    have atMost : histogram.rawFraction bin q ≤ 1 :=
      (div_le_one spanning).mpr (sub_le_sub_right below _)
    rw [min_eq_right atMost, max_eq_right natural, rawFraction, div_mul_cancel₀ _ spanning.ne',
      add_sub_cancel]
  · rename_i flat
    rw [zero_mul, add_zero]
    exact le_antisymm above (below.trans (sub_nonpos.mp (not_lt.mp flat)))

theorem atLower_binReaching_le {q : ℚ} (natural : 0 ≤ q) :
    histogram.atLower (histogram.binReaching q) ≤ q := by
  cases isBin : histogram.binReaching q with
  | zero =>
      rw [atLower, zero_rat]
      exact natural
  | succ bin =>
      have before : bin < histogram.binReaching q := by
        rw [isBin]
        exact Nat.lt_succ_self bin
      exact (not_le.mp (not_le_atUpper_of_lt_binReaching before)).le

theorem le_atUpper_binReaching {q last : ℚ} (ends : histogram.values.getLast? = some last)
    (atMost : q ≤ last) : q ≤ histogram.atUpper (histogram.binReaching q) := by
  rcases histogram.binReaching_cases q with ⟨_, reached, _⟩ | ⟨_, never⟩
  · exact reached
  · rw [List.getLast?_eq_getElem?] at ends
    obtain ⟨inside, isLast⟩ := List.getElem?_eq_some_iff.mp ends
    have unreached := never _ inside
    rw [atUpper, List.getD_eq_getElem _ _ inside, isLast] at unreached
    exact absurd atMost unreached

theorem line_quantile (isLine : IsCumulativeLine histogram line)
    (ends : histogram.values.getLast? = some 1) {q : ℚ} (natural : 0 ≤ q) (atMost : q ≤ 1) :
    ∃ value, histogram.quantile q .linear = .ok value ∧ line value = q := by
  have binned : histogram.values ≠ [] := by
    rintro none
    rw [none] at ends
    cases ends
  have inside := binReaching_lt binned q
  refine ⟨_, quantile_eq_ok (by rwa [zero_rat]) (by rwa [one_rat]) binned .linear, ?_⟩
  rw [Interpolation.pointIn_eq, Interpolation.offset]
  have straight := isLine.straight (histogram.binReaching q) inside
    (histogram.fractionOf (histogram.binReaching q) q)
    (histogram.fractionOf_nonneg (histogram.binReaching q) q)
    (histogram.fractionOf_le_one (histogram.binReaching q) q)
  rw [isLine.at_lower inside, isLine.at_upper _ inside] at straight
  exact straight.trans (atLower_add_fractionOf (atLower_binReaching_le natural)
    (le_atUpper_binReaching ends atMost))

/-- The shares of the bins add up to one, their running sums rise to one, and the linear quantile
of the running sums is the inverse of the line through them. -/
theorem linear_quantile_inverts_cdf (natural : ∀ count ∈ histogram.values, 0 ≤ count)
    (counted : 0 < histogram.values.sum) (ordered : histogram.low < histogram.high) :
    histogram.pdf.values.sum = 1 ∧
      histogram.cdf.values.Pairwise (· ≤ ·) ∧ histogram.cdf.values.getLast? = some 1 ∧
      (∃ line, IsCumulativeLine histogram.cdf line) ∧
      ∀ line, IsCumulativeLine histogram.cdf line → ∀ q, 0 ≤ q → q ≤ 1 →
        ∃ value, histogram.cdf.quantile q .linear = .ok value ∧ line value = q := by
  have ends := getLast?_cdf counted
  refine ⟨sum_pdf counted, pairwise_cdf natural counted, ends, ?_, ?_⟩
  · exact ⟨_, isCumulativeLine_cumulativeLine ordered (cdf_ne_nil (values_ne_nil counted))⟩
  · exact fun line isLine q atLeast atMost => line_quantile isLine ends atLeast atMost

end Lines

/-- Empty bins at both ends and in the middle. -/
def gappedCounts : Histogram ℚ := ⟨[0, 3, 0, 0, 1, 0], -3, 3, true⟩

theorem gappedCounts_inverted :
    (∀ count ∈ gappedCounts.values, 0 ≤ count) ∧ 0 < gappedCounts.values.sum ∧
      gappedCounts.low < gappedCounts.high ∧
      (gappedCounts.cdf.quantile (3 / 4) .linear).toOption = some (-1) ∧
      gappedCounts.cdf.cumulativeLine (-1) = 3 / 4 ∧ gappedCounts.pdf.values.sum = 1 := by
  have natural : ∀ count ∈ gappedCounts.values, 0 ≤ count := by
    decide +kernel
  have counted : 0 < gappedCounts.values.sum := by
    decide +kernel
  have ordered : gappedCounts.low < gappedCounts.high := by
    decide +kernel
  obtain ⟨shares, _, _, _, inverts⟩ := linear_quantile_inverts_cdf natural counted ordered
  have isLine : IsCumulativeLine gappedCounts.cdf gappedCounts.cdf.cumulativeLine :=
    isCumulativeLine_cumulativeLine ordered (cdf_ne_nil (values_ne_nil counted))
  obtain ⟨value, isValue, inverted⟩ := inverts _ isLine (3 / 4) (by norm_num) (by norm_num)
  have found : (gappedCounts.cdf.quantile (3 / 4) .linear).toOption = some (-1) := by
    decide +kernel
  have same : value = -1 := by
    rw [isValue] at found
    simpa [Except.toOption] using found
  rw [same] at inverted
  exact ⟨natural, counted, ordered, found, inverted, shares⟩

end InSitu.Histogram
