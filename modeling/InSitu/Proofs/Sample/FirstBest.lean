import Mathlib
import InSitu.Proofs.Sample.Extremes

/-!
# Tournaments without blanks

Where every sample can be ordered, the champion of the rounds is the best of all samples, and the
first of several that are equally good.  Read over the rational numbers there is nothing that
cannot be ordered; of doubles it has to be known that they are numbers.
-/

namespace InSitu

section Champions

variable {α : Type} {compare : α → α → Ordering} {blank : α → Prop} {samples : List α}
  {found : Indexed α}

/-- A sample that none beats, the first of those that are as good. -/
structure IsFirstBest (compare : α → α → Ordering) (samples : List α) (found : Indexed α) :
    Prop where
  sample : samples[found.index]? = some found.value
  best : ∀ place sample, samples[place]? = some sample →
    compare found.value sample ≠ .gt ∧
      (place < found.index → compare found.value sample = .lt)

theorem counts_of_no_blank (known : ∀ sample ∈ samples, ¬ blank sample) (place : Nat) :
    Counts blank samples place := by
  rintro round ⟨sample, isSample, isBlank⟩
  exact known sample (List.mem_of_getElem? isSample) isBlank

theorem exists_firstBest (orders : OrdersAllBut compare blank) (nonempty : samples ≠ [])
    (known : ∀ sample ∈ samples, ¬ blank sample) :
    ∃ found, champion? compare samples = some found ∧ IsFirstBest compare samples found := by
  obtain ⟨champion, isFound, isChampion⟩ := exists_champion orders nonempty
  refine ⟨champion, isFound, isChampion.sample, fun place sample isSample => ?_⟩
  exact isChampion.best place sample isSample (counts_of_no_blank known place)

/-- A total preorder orders all samples. -/
theorem ordersAllBut_of_transCmp [Std.TransCmp compare] :
    OrdersAllBut compare fun _ => False where
  swap _ _ := Std.OrientedCmp.eq_swap
  of_blank isBlank := (or_self_iff.mp isBlank).elim
  trans _ _ _ atLeast alsoAtLeast := by
    rw [Ne, ← Ordering.isLE_iff_ne_gt] at atLeast alsoAtLeast ⊢
    exact Std.TransCmp.isLE_trans atLeast alsoAtLeast

theorem IsFirstBest.mem (isBest : IsFirstBest compare samples found) : found.value ∈ samples :=
  List.mem_of_getElem? isBest.sample

theorem IsFirstBest.unbeaten (isBest : IsFirstBest compare samples found) {sample : α}
    (member : sample ∈ samples) : compare found.value sample ≠ .gt := by
  obtain ⟨place, isSample⟩ := List.mem_iff_getElem?.mp member
  exact (isBest.best place sample isSample).1

end Champions

namespace Sample

theorem order_rat (first second : ℚ) : order first second = compare first second := by
  rcases lt_trichotomy first second with below | rfl | above
  · rw [order, if_pos below, compare_lt_iff_lt.mpr below]
  · rw [order, if_neg (lt_irrefl first), if_neg (lt_irrefl first), compare_eq_iff_eq.mpr rfl]
  · rw [order, if_neg above.not_gt, if_pos above, compare_gt_iff_gt.mpr above]

theorem order_rat_ne_gt_iff (first second : ℚ) : order first second ≠ .gt ↔ first ≤ second := by
  rw [order_rat, Ne, compare_gt_iff_gt]
  exact not_lt

theorem ordersAllBut_rat : OrdersAllBut (order : ℚ → ℚ → Ordering) fun _ => False := by
  have same : (order : ℚ → ℚ → Ordering) = compare := funext₂ order_rat
  rw [same]
  exact ordersAllBut_of_transCmp

variable {samples : List ℚ}

theorem exists_least_rat (nonempty : samples ≠ []) :
    ∃ low, (least? samples).map (·.value) = some low ∧ IsLeast {x | x ∈ samples} low := by
  obtain ⟨found, isFound, isBest⟩ :=
    exists_firstBest ordersAllBut_rat nonempty fun _ _ => not_false
  refine ⟨found.value, congrArg (Option.map _) isFound, isBest.mem, fun sample member => ?_⟩
  exact (order_rat_ne_gt_iff _ _).mp (isBest.unbeaten member)

theorem exists_greatest_rat (nonempty : samples ≠ []) :
    ∃ high, (greatest? samples).map (·.value) = some high ∧ IsGreatest {x | x ∈ samples} high := by
  obtain ⟨found, isFound, isBest⟩ :=
    exists_firstBest ordersAllBut_rat.flip nonempty fun _ _ => not_false
  refine ⟨found.value, congrArg (Option.map _) isFound, isBest.mem, fun sample member => ?_⟩
  exact (order_rat_ne_gt_iff _ _).mp (isBest.unbeaten member)

/-- Among doubles that are numbers, the least one with the lowest place is found. -/
theorem exists_first_least {samples : List Float} (nonempty : samples ≠ [])
    (numbers : ∀ sample ∈ samples, sample.isNaN = false) :
    ∃ found, least? samples = some found ∧ samples[found.index]? = some found.value ∧
      ∀ place sample, samples[place]? = some sample →
        found.value ≤ sample ∧ (place < found.index → found.value < sample) := by
  have known : ∀ sample ∈ samples, ¬ IsNaN sample := fun sample member =>
    (not_isNaN_iff sample).mpr (numbers sample member)
  obtain ⟨found, isFound, isBest⟩ := exists_firstBest ordersAllBut_isNaN nonempty known
  refine ⟨found, isFound, isBest.sample, fun place sample isSample => ?_⟩
  obtain ⟨atMost, before⟩ := isBest.best place sample isSample
  have sampleKnown := known sample (List.mem_of_getElem? isSample)
  rw [order_ne_gt_iff (known found.value isBest.mem) sampleKnown] at atMost
  exact ⟨atMost, fun earlier => (order_eq_lt_iff _ _).mp (before earlier)⟩

end Sample

end InSitu
