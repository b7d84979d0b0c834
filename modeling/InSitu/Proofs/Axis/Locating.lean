import InSitu.Axis.Basic

/-!
# Where an axis puts a value

A well formed axis has a bin, and the bin of a value is one of its bins.
-/

namespace InSitu.Axis

variable {α : Type} [Scalar α]

/-- A well formed axis has a bin. -/
theorem binCount_pos {axis : Axis α} (checked : axis.check = .ok ()) :
    0 < axis.binCount := by
  rw [check] at checked
  rw [binCount]
  split at checked
  · split at checked
    · cases checked
    · split at checked
      · cases checked
      · rename_i nonzero
        exact Nat.pos_of_ne_zero nonzero
  · rw [checkEdges] at checked
    split at checked
    · cases checked
    · omega

theorem lt_binCount_of_locate? {axis : Axis α} (positive : 0 < axis.binCount)
    {value : α} {bin : Nat} (located : axis.locate? value = some bin) :
    bin < axis.binCount := by
  rw [locate?] at located
  obtain ⟨⟨low, high⟩, _, placed⟩ := Option.bind_eq_some_iff.mp located
  dsimp only at placed
  split at placed
  · cases placed
    exact Nat.lt_of_le_of_lt (Nat.min_le_right _ _) (Nat.sub_one_lt_of_lt positive)
  · cases placed

/-- The bin of a sample is one of the bins of the axis. -/
theorem lt_binCount_of_locateSample? {axis : Axis α} (positive : 0 < axis.binCount)
    {sample : α} {bin : Nat} (located : axis.locateSample? sample = some bin) :
    bin < axis.binCount := by
  rw [locateSample?] at located
  split at located
  · cases located
  · split at located
    · rename_i inside
      cases located
      exact lt_binCount_of_locate? positive inside
    · split at located
      · obtain ⟨⟨low, high⟩, _, placed⟩ := Option.map_eq_some_iff.mp located
        dsimp only at placed
        split at placed
        · omega
        · omega
      · cases located

end InSitu.Axis
