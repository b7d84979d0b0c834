import Mathlib
import InSitu.Proofs.Number.Order
import InSitu.Proofs.Sample.Tournament

/-!
# Least and greatest samples

What is no number is equal to every sample, and the earlier of two equal samples goes on.  So a
sample that is no number hides all samples that it beats by its place: those of the largest block
that begins with it.  The least and the greatest sample are found among the others, and they bound
all samples exactly if the hidden ones lie within the range of the others, or if the first sample
is no number and there is nothing to bound.
-/

namespace InSitu

section Champions

variable {α : Type} {compare : α → α → Ordering} {blank : α → Prop} {samples : List α}
  {champion : Indexed α}

/-- A value in the list at a place that counts. -/
def Counted (blank : α → Prop) (samples : List α) (value : α) : Prop :=
  ∃ place, samples[place]? = some value ∧ Counts blank samples place

theorem Counts.not_blank {place : Nat} {value : α} (counts : Counts blank samples place)
    (isSample : samples[place]? = some value) : ¬ blank value := by
  have upTo : CountsUpTo blank samples 0 place := fun earlier _ => counts earlier
  exact upTo.not_blank isSample

theorem Counted.not_blank {value : α} (counted : Counted blank samples value) : ¬ blank value := by
  obtain ⟨_, isSample, counts⟩ := counted
  exact counts.not_blank isSample

theorem OrdersAllBut.flip (orders : OrdersAllBut compare blank) :
    OrdersAllBut (fun first second => compare second first) blank where
  swap first second := orders.swap second first
  of_blank isBlank := orders.of_blank isBlank.symm
  trans firstKnown secondKnown thirdKnown atLeast alsoAtLeast :=
    orders.trans thirdKnown secondKnown firstKnown alsoAtLeast atLeast

/-- The champion is beaten by none exactly if it is blank, or if every other sample has one that
counts and is no worse. -/
theorem IsChampion.unbeaten_iff (orders : OrdersAllBut compare blank)
    (isChampion : IsChampion compare blank samples champion) :
    (∀ sample ∈ samples, compare sample champion.value ≠ .lt) ↔
      BlankAt blank samples 0 ∨ ∀ sample ∈ samples, ¬ blank sample →
        ∃ counted, Counted blank samples counted ∧ compare counted sample ≠ .gt := by
  have back (first second : α) : compare second first ≠ .lt ↔ compare first second ≠ .gt := by
    rw [orders.swap first second]
    cases compare first second <;> simp
  by_cases begins : BlankAt blank samples 0
  · refine iff_of_true (fun sample _ => ?_) (.inl begins)
    obtain ⟨first, isFirst, isBlank⟩ := begins
    have isSame := isChampion.sample
    rw [isChampion.of_blank ⟨first, isFirst, isBlank⟩, isFirst] at isSame
    cases isSame
    rw [orders.of_blank (.inr isBlank)]
    nofun
  · have counts := isChampion.counts begins
    have championKnown := counts.not_blank isChampion.sample
    simp only [begins, false_or, back]
    constructor
    · intro unbeaten sample member _
      exact ⟨champion.value, ⟨champion.index, isChampion.sample, counts⟩, unbeaten sample member⟩
    · intro covered sample member
      by_cases isBlank : blank sample
      · rw [orders.of_blank (.inr isBlank)]
        nofun
      · obtain ⟨counted, ⟨place, isCounted, countedCounts⟩, atLeast⟩ :=
          covered sample member isBlank
        exact orders.trans championKnown (countedCounts.not_blank isCounted) isBlank
          (isChampion.best place counted isCounted countedCounts).1 atLeast

end Champions

namespace Sample

/-- What is no number. -/
def IsNaN (x : Float) : Prop := x.isNaN = true

theorem order_eq_lt_iff (first second : Float) : order first second = .lt ↔ first < second := by
  rw [order]
  split_ifs <;> simp [*]

theorem order_eq_gt_iff (first second : Float) : order first second = .gt ↔ second < first := by
  rw [order]
  split_ifs with below above
  · refine iff_of_false nofun fun above => ?_
    exact Number.not_le_of_lt below (Number.le_of_lt above)
  · exact iff_of_true rfl above
  · exact iff_of_false nofun above

theorem not_isNaN_iff (x : Float) : ¬ IsNaN x ↔ x.isNaN = false := by
  rw [IsNaN, Bool.not_eq_true]

theorem order_ne_gt_iff {first second : Float} (firstKnown : ¬ IsNaN first)
    (secondKnown : ¬ IsNaN second) : order first second ≠ .gt ↔ first ≤ second := by
  rw [Ne, order_eq_gt_iff]
  exact Number.not_lt_iff_le ((not_isNaN_iff _).mp secondKnown) ((not_isNaN_iff _).mp firstKnown)

theorem ordersAllBut_isNaN : OrdersAllBut (order : Float → Float → Ordering) IsNaN where
  swap first second := by
    cases compared : order first second with
    | lt =>
        exact (order_eq_gt_iff _ _).mpr ((order_eq_lt_iff _ _).mp compared)
    | gt =>
        exact (order_eq_lt_iff _ _).mpr ((order_eq_gt_iff _ _).mp compared)
    | eq =>
        rw [order, if_neg, if_neg]
        · rfl
        · rw [← order_eq_lt_iff, compared]
          nofun
        · rw [← order_eq_gt_iff, compared]
          nofun
  of_blank {first second} isBlank := by
    have incomparable {x y : Float} (none : IsNaN x ∨ IsNaN y) : ¬ x < y := fun below => by
      obtain ⟨xIsNumber, yIsNumber⟩ := Number.isNaN_eq_false_of_lt below
      exact none.elim ((not_isNaN_iff x).mpr xIsNumber) ((not_isNaN_iff y).mpr yIsNumber)
    rw [order, if_neg (incomparable isBlank), if_neg (incomparable isBlank.symm)]
  trans firstKnown secondKnown thirdKnown atLeast alsoAtLeast := by
    rw [order_ne_gt_iff firstKnown secondKnown] at atLeast
    rw [order_ne_gt_iff secondKnown thirdKnown] at alsoAtLeast
    rw [order_ne_gt_iff firstKnown thirdKnown]
    exact Number.le_trans atLeast alsoAtLeast

/-- The least and the greatest sample bound all samples exactly if the first sample is no number,
or if every number among the samples has one on that side of it that counts. -/
theorem extremes_bound_samples_iff {samples : List Float} (nonempty : samples ≠ []) :
    ∃ least greatest, least? samples = some least ∧ greatest? samples = some greatest ∧
      ((∀ sample ∈ samples, ¬ sample < least.value) ↔
        BlankAt IsNaN samples 0 ∨ ∀ sample ∈ samples, ¬ IsNaN sample →
          ∃ counted, Counted IsNaN samples counted ∧ counted ≤ sample) ∧
      ((∀ sample ∈ samples, ¬ greatest.value < sample) ↔
        BlankAt IsNaN samples 0 ∨ ∀ sample ∈ samples, ¬ IsNaN sample →
          ∃ counted, Counted IsNaN samples counted ∧ sample ≤ counted) := by
  obtain ⟨least, isLeast, leastWins⟩ := exists_champion ordersAllBut_isNaN nonempty
  obtain ⟨greatest, isGreatest, greatestWins⟩ :=
    exists_champion ordersAllBut_isNaN.flip nonempty
  refine ⟨least, greatest, isLeast, isGreatest, ?_, ?_⟩
  · have bounds (sample : Float) : ¬ sample < least.value ↔ order sample least.value ≠ .lt :=
      not_congr (order_eq_lt_iff _ _).symm
    simp only [bounds, leastWins.unbeaten_iff ordersAllBut_isNaN]
    refine or_congr_right (forall₂_congr fun sample _ => forall_congr' fun known =>
      exists_congr fun counted => and_congr_right fun isCounted => ?_)
    exact order_ne_gt_iff isCounted.not_blank known
  · have bounds (sample : Float) : ¬ greatest.value < sample ↔ order greatest.value sample ≠ .lt :=
      not_congr (order_eq_lt_iff _ _).symm
    simp only [bounds, greatestWins.unbeaten_iff ordersAllBut_isNaN.flip]
    refine or_congr_right (forall₂_congr fun sample _ => forall_congr' fun known =>
      exists_congr fun counted => and_congr_right fun isCounted => ?_)
    exact order_ne_gt_iff known isCounted.not_blank

instance (samples : List Float) (place : Nat) : Decidable (BlankAt IsNaN samples place) :=
  decidable_of_iff (samples[place]?.any Float.isNaN = true) (Option.any_eq_true _ _)

/-- The second sample is no number and begins no block but its own. -/
def spottedSamples : List Float := [3.0, Number.notANumber, 2.0, 1.0]

theorem spottedSamples_bounded :
    spottedSamples ≠ [] ∧
      ∃ least greatest, least? spottedSamples = some least ∧
        greatest? spottedSamples = some greatest ∧
        (∀ sample ∈ spottedSamples, ¬ sample < least.value) ∧
        ∀ sample ∈ spottedSamples, ¬ greatest.value < sample := by
  have nonempty : spottedSamples ≠ [] := List.cons_ne_nil _ _
  have counts : ∀ place : Fin 4, place ≠ 1 → Counts IsNaN spottedSamples place := by
    have begins : ∀ place : Fin 4, place ≠ 1 → ∀ earlier : Fin 3,
        ¬ BlankAt IsNaN spottedSamples (blockStart earlier place) := by
      decide +kernel
    exact fun place other => counts_of_countsUpTo place.isLt fun earlier before =>
      begins place other ⟨earlier, Nat.lt_succ_of_le before⟩
  have within : ∀ sample ∈ spottedSamples, ¬ IsNaN sample → 1.0 ≤ sample ∧ sample ≤ 3.0 := by
    have listed : ∀ sample ∈ spottedSamples, sample.isNaN = true ∨ 1.0 ≤ sample ∧ sample ≤ 3.0 := by
      decide +kernel
    exact fun sample member known => (listed sample member).resolve_left known
  obtain ⟨least, greatest, isLeast, isGreatest, leastBounds, greatestBounds⟩ :=
    extremes_bound_samples_iff nonempty
  refine ⟨nonempty, least, greatest, isLeast, isGreatest, leastBounds.mpr (.inr ?_),
    greatestBounds.mpr (.inr ?_)⟩
  · exact fun sample member known =>
      ⟨1.0, ⟨3, rfl, counts 3 (by decide)⟩, (within sample member known).1⟩
  · exact fun sample member known =>
      ⟨3.0, ⟨0, rfl, counts 0 (by decide)⟩, (within sample member known).2⟩

/-- The third sample is no number, and the last one stands in its block. -/
def hiddenLow : List Float := [5.0, 6.0, Number.notANumber, 1.0]

def hiddenHigh : List Float := [6.0, 5.0, Number.notANumber, 8.0]

theorem hidden_samples_lie_beyond :
    (∃ least, least? hiddenLow = some least ∧ ∃ sample ∈ hiddenLow, sample < least.value) ∧
      ∃ greatest, greatest? hiddenHigh = some greatest ∧
        ∃ sample ∈ hiddenHigh, greatest.value < sample := by
  have foundLeast : (least? hiddenLow).map (·.value) = some 5.0 := by
    decide +kernel
  have foundGreatest : (greatest? hiddenHigh).map (·.value) = some 6.0 := by
    decide +kernel
  obtain ⟨least, isLeast, leastValue⟩ := Option.map_eq_some_iff.mp foundLeast
  obtain ⟨greatest, isGreatest, greatestValue⟩ := Option.map_eq_some_iff.mp foundGreatest
  refine ⟨⟨least, isLeast, 1.0, by simp [hiddenLow], ?_⟩,
    ⟨greatest, isGreatest, 8.0, by simp [hiddenHigh], ?_⟩⟩
  · rw [leastValue]
    decide +kernel
  · rw [greatestValue]
    decide +kernel

end Sample

end InSitu
