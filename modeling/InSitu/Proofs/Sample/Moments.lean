import Mathlib
import InSitu.Proofs.Sample.FirstBest
import InSitu.Proofs.Sample.Rounds

/-!
# Moments of exact samples

The variance is computed in two passes, from the distances to a mean that is known by then, and all
sums are taken in rounds.  Where nothing is rounded this is the mean of the squares less the square
of the mean, and no statistic depends on the order of the samples.
-/

namespace InSitu.Sample

variable {samples reordered : List ℚ}

/-- The mean of no samples is zero, as is the quotient by zero. -/
theorem mean_rat (samples : List ℚ) : mean samples = samples.sum / samples.length := by
  cases samples with
  | nil =>
      rw [List.sum_nil, zero_div]
      exact zero_rat
  | cons first rest =>
      rw [mean, List.isEmpty_cons, sum_rat]
      rfl

theorem meanSquare_rat (samples : List ℚ) :
    meanSquare samples = (samples.map (· ^ 2)).sum / samples.length := by
  simp only [meanSquare, mean_rat, List.length_map, ← sq]

theorem variance_rat (samples : List ℚ) :
    variance samples = (samples.map fun sample => (sample - mean samples) ^ 2).sum /
      samples.length := by
  simp only [variance, mean_rat, List.length_map, ← sq]

theorem sum_sq_sub (samples : List ℚ) (center : ℚ) :
    (samples.map fun sample => (sample - center) ^ 2).sum =
      (samples.map (· ^ 2)).sum - 2 * center * samples.sum + samples.length * center ^ 2 := by
  induction samples with
  | nil =>
      simp
  | cons first rest inductionHypothesis =>
      simp only [List.map_cons, List.sum_cons, List.length_cons, inductionHypothesis]
      push_cast
      ring

theorem variance_eq_meanSquare_sub (samples : List ℚ) :
    variance samples = meanSquare samples - mean samples ^ 2 := by
  cases samples with
  | nil =>
      simp [variance_rat, meanSquare_rat, mean_rat]
  | cons first rest =>
      have counted : ((first :: rest).length : ℚ) ≠ 0 :=
        Nat.cast_ne_zero.mpr (Nat.succ_ne_zero rest.length)
      rw [variance_rat, sum_sq_sub, meanSquare_rat, mean_rat]
      field_simp
      ring

theorem variance_nonneg (samples : List ℚ) : 0 ≤ variance samples := by
  have squares : 0 ≤ (samples.map fun sample => (sample - mean samples) ^ 2).sum := by
    refine List.sum_nonneg fun square member => ?_
    obtain ⟨sample, _, rfl⟩ := List.mem_map.mp member
    exact sq_nonneg _
  rw [variance_rat]
  exact div_nonneg squares (Nat.cast_nonneg _)

theorem length_pos_rat (nonempty : samples ≠ []) : (0 : ℚ) < samples.length :=
  Nat.cast_pos.mpr (List.length_pos_iff.mpr nonempty)

theorem le_mean_of_le {low : ℚ} (nonempty : samples ≠ [])
    (below : ∀ sample ∈ samples, low ≤ sample) : low ≤ mean samples := by
  rw [mean_rat, le_div_iff₀ (length_pos_rat nonempty), mul_comm, ← nsmul_eq_mul]
  exact List.card_nsmul_le_sum samples low below

theorem mean_le_of_le {high : ℚ} (nonempty : samples ≠ [])
    (above : ∀ sample ∈ samples, sample ≤ high) : mean samples ≤ high := by
  rw [mean_rat, div_le_iff₀ (length_pos_rat nonempty), mul_comm, ← nsmul_eq_mul]
  exact List.sum_le_card_nsmul samples high above

theorem mean_of_perm (same : reordered.Perm samples) : mean reordered = mean samples := by
  rw [mean_rat, mean_rat, same.sum_eq, same.length_eq]

theorem meanSquare_of_perm (same : reordered.Perm samples) :
    meanSquare reordered = meanSquare samples :=
  mean_of_perm (same.map _)

theorem variance_of_perm (same : reordered.Perm samples) :
    variance reordered = variance samples := by
  rw [variance_eq_meanSquare_sub, variance_eq_meanSquare_sub, meanSquare_of_perm same,
    mean_of_perm same]

theorem ne_nil_of_perm (nonempty : samples ≠ []) (same : reordered.Perm samples) :
    reordered ≠ [] := by
  rintro rfl
  exact nonempty same.symm.eq_nil

theorem setOf_mem_of_perm (same : reordered.Perm samples) :
    {x | x ∈ reordered} = {x | x ∈ samples} :=
  Set.ext fun _ => same.mem_iff

theorem least?_of_perm (nonempty : samples ≠ []) (same : reordered.Perm samples) :
    (least? reordered).map (·.value) = (least? samples).map (·.value) := by
  obtain ⟨low, isFound, isLeast⟩ := exists_least_rat nonempty
  obtain ⟨otherLow, isOtherFound, isOtherLeast⟩ := exists_least_rat (ne_nil_of_perm nonempty same)
  rw [setOf_mem_of_perm same] at isOtherLeast
  rw [isFound, isOtherFound, isOtherLeast.unique isLeast]

theorem greatest?_of_perm (nonempty : samples ≠ []) (same : reordered.Perm samples) :
    (greatest? reordered).map (·.value) = (greatest? samples).map (·.value) := by
  obtain ⟨high, isFound, isGreatest⟩ := exists_greatest_rat nonempty
  obtain ⟨otherHigh, isOtherFound, isOtherGreatest⟩ :=
    exists_greatest_rat (ne_nil_of_perm nonempty same)
  rw [setOf_mem_of_perm same] at isOtherGreatest
  rw [isFound, isOtherFound, isOtherGreatest.unique isGreatest]

/-- The sum of exact samples taken in rounds is the ordinary one, and the mean is its quotient by
their number.  The variance is the mean of the squares less the square of the mean, and is never
negative, so the mean of the squares is the variance with the square of the mean added.  The mean
lies between the least and the greatest sample.  The order of the samples changes none of these. -/
theorem statistics_of_exact_samples (nonempty : samples ≠ []) :
    sum samples = samples.sum ∧
      mean samples = samples.sum / samples.length ∧
      variance samples =
        (samples.map (· ^ 2)).sum / samples.length - (samples.sum / samples.length) ^ 2 ∧
      meanSquare samples = variance samples + mean samples ^ 2 ∧
      0 ≤ variance samples ∧
      (∃ low high, (least? samples).map (·.value) = some low ∧
        (greatest? samples).map (·.value) = some high ∧
        IsLeast {x | x ∈ samples} low ∧ IsGreatest {x | x ∈ samples} high ∧
        low ≤ mean samples ∧ mean samples ≤ high) ∧
      ∀ reordered : List ℚ, reordered.Perm samples →
        sum reordered = sum samples ∧ mean reordered = mean samples ∧
          (least? reordered).map (·.value) = (least? samples).map (·.value) ∧
          (greatest? reordered).map (·.value) = (greatest? samples).map (·.value) ∧
          variance reordered = variance samples ∧ meanSquare reordered = meanSquare samples := by
  refine ⟨sum_rat samples, mean_rat samples, ?_, ?_, variance_nonneg samples, ?_, ?_⟩
  · rw [variance_eq_meanSquare_sub, meanSquare_rat, mean_rat]
  · rw [variance_eq_meanSquare_sub, sub_add_cancel]
  · obtain ⟨low, isLow, isLeast⟩ := exists_least_rat nonempty
    obtain ⟨high, isHigh, isGreatest⟩ := exists_greatest_rat nonempty
    refine ⟨low, high, isLow, isHigh, isLeast, isGreatest, ?_, ?_⟩
    · exact le_mean_of_le nonempty fun sample member => isLeast.2 member
    · exact mean_le_of_le nonempty fun sample member => isGreatest.2 member
  · intro reordered same
    refine ⟨?_, mean_of_perm same, least?_of_perm nonempty same, greatest?_of_perm nonempty same,
      variance_of_perm same, meanSquare_of_perm same⟩
    rw [sum_rat, sum_rat, same.sum_eq]

/-- Five samples, so that in the first two rounds one of them has no partner. -/
def unevenSamples : List ℚ := [4, -1, 1 / 2, 1 / 2, 3]

def sortedSamples : List ℚ := [-1, 1 / 2, 1 / 2, 3, 4]

theorem statistics_of_unevenSamples :
    unevenSamples ≠ [] ∧ sum unevenSamples = 7 ∧ mean unevenSamples = 7 / 5 ∧
      variance unevenSamples = 167 / 50 ∧ meanSquare unevenSamples = 53 / 10 ∧
      sortedSamples.Perm unevenSamples ∧ variance sortedSamples = 167 / 50 ∧
      (least? sortedSamples).map (·.value) = (least? unevenSamples).map (·.value) ∧
      ∃ low high, (least? unevenSamples).map (·.value) = some low ∧
        (greatest? unevenSamples).map (·.value) = some high ∧ low ≤ 7 / 5 ∧ 7 / 5 ≤ high := by
  have nonempty : unevenSamples ≠ [] := List.cons_ne_nil _ _
  have reordered : sortedSamples.Perm unevenSamples := by
    decide +kernel
  obtain ⟨sum, mean, variance, meanSquare, _, ⟨low, high, isLow, isHigh, _, _, below, above⟩,
    same⟩ := statistics_of_exact_samples nonempty
  obtain ⟨_, _, sameLeast, _, sameVariance, _⟩ := same sortedSamples reordered
  have total : unevenSamples.sum = 7 := by
    norm_num [unevenSamples]
  have squares : (unevenSamples.map (· ^ 2)).sum = 53 / 2 := by
    norm_num [unevenSamples]
  have count : (unevenSamples.length : ℚ) = 5 := by
    norm_num [unevenSamples]
  rw [total] at sum
  rw [total, count] at mean
  rw [squares, total, count] at variance
  norm_num at variance
  rw [variance, mean] at meanSquare
  norm_num at meanSquare
  rw [mean] at below above
  exact ⟨nonempty, sum, mean, variance, meanSquare, reordered, sameVariance.trans variance,
    sameLeast, low, high, isLow, isHigh, below, above⟩

end InSitu.Sample
