import Mathlib
import InSitu.Proofs.Binning.Accumulation
import InSitu.Proofs.Number.Order
import InSitu.Value.Histogram

/-!
# Buckets of a histogram and bins of an axis

A histogram scales the distance to its lower bound by the buckets in a unit of
length, an axis multiplies by the number of bins before it divides by the length
of its range.  On doubles each rounds in its own way, and a sample on the edge of
a bin can be counted on one side of it and looked up on the other.
-/

namespace InSitu

section Sample

variable {α : Type} [Scalar α]

/-- The bucket of a sample within the range. -/
def bucketWithin (low high : α) (count : Nat) (sample : α) : Nat :=
  Nat.min (Scalar.wholePart ((sample - low) * (Scalar.ofNat count / (high - low)))) (count - 1)

/-- The bin of a sample within the range. -/
def binWithin (low high : α) (count : Nat) (sample : α) : Nat :=
  Nat.min (Scalar.wholePart ((sample - low) * Scalar.ofNat count / (high - low))) (count - 1)

/-- The two ways to scale a sample within the range come to the same bin. -/
def ScalesAlike (low high : α) (count : Nat) (sample : α) : Prop :=
  low ≤ sample → sample ≤ high →
    bucketWithin low high count sample = binWithin low high count sample

instance (low high : α) (count : Nat) (sample : α) :
    Decidable (ScalesAlike low high count sample) :=
  inferInstanceAs (Decidable (low ≤ sample → sample ≤ high → _ = _))

variable [OrderedScalar α] {low high sample : α}

/-- Apart from the scaling, a histogram and an axis treat every sample alike. -/
theorem bucketOf?_eq_locateSample?_iff (ordered : low < high)
    (isNumber : Scalar.isNaN sample = false) (name : String) (count : Nat) (clamps : Bool) :
    bucketOf? low high count clamps sample =
        (Axis.mk name clamps (.uniform low high count)).locateSample? sample ↔
      ScalesAlike low high count sample := by
  obtain ⟨lowIsNumber, highIsNumber⟩ := OrderedScalar.isNumber_of_lt ordered
  have above : ¬ sample < low ↔ low ≤ sample :=
    OrderedScalar.not_lt_iff_le isNumber lowIsNumber
  have below : ¬ high < sample ↔ sample ≤ high :=
    OrderedScalar.not_lt_iff_le highIsNumber isNumber
  by_cases isBelow : sample < low
  · cases clamps <;>
      simp [bucketOf?, Axis.locateSample?, Axis.locate?, Axis.range?, ScalesAlike, isNumber,
        isBelow, ← above]
  · by_cases isAbove : high < sample
    · cases clamps <;>
        simp [bucketOf?, Axis.locateSample?, Axis.locate?, Axis.range?, Axis.binCount, ScalesAlike,
          isNumber, isBelow, isAbove, ← below]
    · simp [bucketOf?, Axis.locateSample?, Axis.locate?, Axis.range?, Axis.binCount,
        Axis.Bins.positionOf, ScalesAlike, bucketWithin, binWithin, isNumber, isBelow, isAbove,
        above.mp isBelow, below.mp isAbove]

theorem bucketOf?_eq_locateSample? (ordered : low < high) (name : String) (count : Nat)
    (clamps : Bool) (alike : Scalar.isNaN sample = false → ScalesAlike low high count sample) :
    bucketOf? low high count clamps sample =
      (Axis.mk name clamps (.uniform low high count)).locateSample? sample := by
  by_cases noNumber : Scalar.isNaN sample
  · simp [bucketOf?, Axis.locateSample?, noNumber]
  · have isNumber : Scalar.isNaN sample = false := Bool.eq_false_of_not_eq_true noNumber
    exact (bucketOf?_eq_locateSample?_iff ordered isNumber name count clamps).mpr (alike isNumber)

theorem Axis.locateSample?_of_within {low high sample : α} (above : low ≤ sample)
    (below : sample ≤ high) (name : String) (count : Nat) (clamps : Bool) :
    (Axis.mk name clamps (.uniform low high count)).locateSample? sample =
      (Axis.mk name clamps (.uniform low high count)).locate? sample := by
  have isNumber := (OrderedScalar.isNumber_of_le below).1
  simp [Axis.locateSample?, Axis.locate?, Axis.range?, isNumber, above, below]

end Sample

namespace Binning

theorem binOf?_singleton (axis : Axis Float) (coordinate : Float) :
    binOf? [axis] [coordinate] = axis.locateSample? coordinate := by
  rw [binOf?_cons]
  exact Option.bind_fun_some _

theorem binnedSamples_singleton (axis : Axis Float) (samples : List Float) :
    binnedSamples [axis] [samples] none =
      (samples.filterMap axis.locateSample?).map fun bin => (bin, 1.0) := by
  have coordinates : (List.range samples.length).map (fun sample => samples.getD sample 0.0) =
      samples := by
    refine List.ext_getElem (by simp) fun position inRange inSamples => ?_
    simp [inSamples]
  calc
    binnedSamples [axis] [samples] none =
        ((List.range samples.length).map fun sample => samples.getD sample 0.0).filterMap
          fun coordinate => (axis.locateSample? coordinate).map fun bin => (bin, 1.0) := by
      rw [List.filterMap_map]
      refine List.filterMap_congr fun sample _ => ?_
      rw [coordinatesOf, List.map_singleton, binOf?_singleton]
      rfl
    _ = (samples.filterMap axis.locateSample?).map fun bin => (bin, 1.0) := by
      rw [coordinates, List.map_filterMap]

theorem reduce?_count_getD (samples : List Float) :
    (Sample.reduce? .count samples).getD 0.0 = Float.ofNat samples.length := by
  cases samples with
  | nil =>
      decide +kernel
  | cons sample samples =>
      rfl

/-- Counting along one axis. -/
theorem accumulate_count_singleton (axis : Axis Float) (samples : List Float) :
    accumulate [axis] [samples] none .count 0.0 =
      (List.range axis.binCount).map fun bin =>
        Float.ofNat ((samples.filterMap axis.locateSample?).count bin) := by
  rcases Nat.eq_zero_or_pos axis.binCount with noBins | positive
  · rw [accumulate, noBins]
    cases computed : accumulate? [axis] [samples] none .count 0.0 with
    | none =>
        rfl
    | some result =>
        exact List.length_eq_zero_iff.mp ((length_of_accumulate? computed).trans noBins)
  · have inRange : ∀ sample ∈ binnedSamples [axis] [samples] none,
        sample.1 < totalBins [axis] := by
      intro sample member
      rw [binnedSamples_singleton] at member
      obtain ⟨bin, isBin, rfl⟩ := List.mem_map.mp member
      obtain ⟨_, _, located⟩ := List.mem_filterMap.mp isBin
      exact Axis.lt_binCount_of_locateSample? positive located
    rw [accumulate, accumulate?_eq_some _ _ inRange, Option.getD_some, binnedSamples_singleton]
    refine List.map_congr_left fun bin _ => ?_
    generalize samples.filterMap axis.locateSample? = bins
    have listed : (valuesIn (bins.map fun found => (found, 1.0)) bin).length = bins.count bin := by
      rw [length_valuesIn, List.map_map]
      exact congrArg (List.count bin) (List.map_id bins)
    rw [← listed, ← reduce?_count_getD, binValue]
    cases Sample.reduce? .count _ with
    | none =>
        rfl
    | some counted =>
        rfl

/-- The counts of a histogram are those along the axis with its bounds if no sample is rounded to
different bins; then every sample within the range is also looked up where it is counted. -/
theorem bucketCounts_eq_accumulate_of_scalesAlike (samples : List Float) {low high : Float}
    (ordered : low < high) (count : Nat) (name : String) (clamps : Bool)
    (alike : ∀ sample ∈ samples, ScalesAlike low high count sample) :
    bucketCounts samples low high count clamps =
        accumulate [⟨name, clamps, .uniform low high count⟩] [samples] none .count 0.0 ∧
      ∀ sample ∈ samples, low ≤ sample → sample ≤ high →
        (Axis.mk name clamps (.uniform low high count)).locate? sample =
          bucketOf? low high count clamps sample := by
  have sameBin : ∀ sample ∈ samples, bucketOf? low high count clamps sample =
      (Axis.mk name clamps (.uniform low high count)).locateSample? sample :=
    fun sample member =>
      bucketOf?_eq_locateSample? ordered name count clamps fun _ => alike sample member
  constructor
  · rw [bucketCounts, if_pos ordered, accumulate_count_singleton, List.filterMap_congr sameBin]
    rfl
  · intro sample member above below
    rw [sameBin sample member, Axis.locateSample?_of_within above below]

/-- A sample below the range, two in it, one above it and one that is no number. -/
def scatteredSamples : List Float := [-3.0, 10.0, 50.0, 120.0, 0.0 / 0.0]

theorem bucketCounts_scatteredSamples :
    bucketCounts scatteredSamples 0.0 98.0 2 true = [2.0, 2.0] ∧
      bucketCounts scatteredSamples 0.0 98.0 2 true =
        accumulate [⟨"x", true, .uniform 0.0 98.0 2⟩] [scatteredSamples] none .count 0.0 :=
  ⟨by decide +kernel,
    (bucketCounts_eq_accumulate_of_scalesAlike scatteredSamples (by decide +kernel) 2 "x" true
      (by decide +kernel)).1⟩

/-- The middle of the range is the lower edge of the second bin.  The two buckets in 98 units of
length are rounded down, and so the middle falls short of that edge: it is counted below and
looked up above. -/
theorem bucketCounts_ne_accumulate_at_middle :
    (0.0 : Float) < 98.0 ∧
      bucketCounts [49.0] (0.0 : Float) 98.0 2 true = [1.0, 0.0] ∧
      accumulate [⟨"x", true, .uniform 0.0 98.0 2⟩] [[49.0]] none .count 0.0 = [0.0, 1.0] ∧
      bucketCounts [49.0] (0.0 : Float) 98.0 2 true ≠
        accumulate [⟨"x", true, .uniform 0.0 98.0 2⟩] [[49.0]] none .count 0.0 := by
  decide +kernel

end Binning

end InSitu
