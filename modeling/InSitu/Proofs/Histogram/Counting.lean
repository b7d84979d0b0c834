import InSitu.Proofs.Binning.Accumulation
import InSitu.Proofs.Number.Arithmetic
import InSitu.Proofs.Sample.Rounds
import InSitu.Value.Histogram

/-!
# Counting samples

Every sample is counted in one bucket or in none, and a bucket holds the number of its samples.  So
the counts add up to the samples within reach, the counts of two lists add up to those of both in
one, and the order of the samples does not matter.  All this holds of doubles as well as long as
whole numbers of samples are doubles.
-/

namespace InSitu

open Number

section Sample

variable {α : Type} [Scalar α] {low high sample : α} {count bucket : Nat} {clamps : Bool}

theorem lt_of_bucketOf? (positive : 0 < count)
    (found : bucketOf? low high count clamps sample = some bucket) : bucket < count := by
  have last : count - 1 < count := Nat.sub_one_lt_of_lt positive
  revert found
  rw [bucketOf?]
  split_ifs
  · nofun
  · rintro ⟨⟩
    exact positive
  · nofun
  · rintro ⟨⟩
    exact last
  · nofun
  · rintro ⟨⟩
    exact (Nat.min_le_right _ _).trans_lt last

/-- Whether a sample is counted: with end buckets that clamp every number is, else those between
the bounds. -/
def withinReach (low high : α) (clamps : Bool) (sample : α) : Bool :=
  if clamps then !Scalar.isNaN sample else decide (low ≤ sample ∧ sample ≤ high)

theorem isSome_bucketOf? [OrderedScalar α] (ordered : low < high) :
    (bucketOf? low high count clamps sample).isSome = withinReach low high clamps sample := by
  obtain ⟨lowIsNumber, highIsNumber⟩ := OrderedScalar.isNumber_of_lt ordered
  rw [bucketOf?, withinReach]
  cases isNumber : Scalar.isNaN sample with
  | true =>
      have outside : ¬ (low ≤ sample ∧ sample ≤ high) := fun within => by
        rw [(OrderedScalar.isNumber_of_le within.2).1] at isNumber
        cases isNumber
      simp [outside]
  | false =>
      simp only [← OrderedScalar.not_lt_iff_le isNumber lowIsNumber,
        ← OrderedScalar.not_lt_iff_le highIsNumber isNumber]
      split_ifs <;> simp_all

end Sample

section Samples

variable {low high : Float} {count : Nat} {clamps : Bool}

/-- The number of samples in a bucket. -/
def tally (low high : Float) (count : Nat) (clamps : Bool) (samples : List Float)
    (bucket : Nat) : Nat :=
  (samples.filterMap (bucketOf? low high count clamps)).count bucket

theorem bucketCounts_eq_map_tally (ordered : low < high) (samples : List Float) :
    bucketCounts samples low high count clamps =
      (List.range count).map fun bucket =>
        Float.ofNat (tally low high count clamps samples bucket) :=
  if_pos ordered

theorem tally_append (first second : List Float) (bucket : Nat) :
    tally low high count clamps (first ++ second) bucket =
      tally low high count clamps first bucket + tally low high count clamps second bucket := by
  rw [tally, List.filterMap_append, List.count_append]
  rfl

theorem tally_singleton (sample : Float) (bucket : Nat) :
    tally low high count clamps [sample] bucket =
      if bucketOf? low high count clamps sample = some bucket then 1 else 0 := by
  rw [tally, List.filterMap_cons, List.filterMap_nil]
  cases bucketOf? low high count clamps sample with
  | none =>
      rfl
  | some found =>
      simp [List.count_singleton]

theorem tally_le_length (samples : List Float) (bucket : Nat) :
    tally low high count clamps samples bucket ≤ samples.length :=
  List.count_le_length.trans (List.length_filterMap_le _ _)

theorem sum_tally (ordered : low < high) (positive : 0 < count) (samples : List Float) :
    ((List.range count).map (tally low high count clamps samples)).sum =
      samples.countP (withinReach low high clamps) := by
  have inRange : ∀ bucket ∈ samples.filterMap (bucketOf? low high count clamps),
      bucket < count := by
    intro bucket member
    obtain ⟨sample, _, found⟩ := List.mem_filterMap.mp member
    exact lt_of_bucketOf? positive found
  have total := Binning.sum_count_range inRange
  rw [List.length_filterMap_eq_countP] at total
  exact total.trans (List.countP_congr fun sample _ => by rw [isSome_bucketOf? ordered])

/-! ## In doubles -/

/-- Whole numbers are added without rounding as long as the sum is a double. -/
theorem ofNat_add_ofNat {first second : Nat} (small : first + second ≤ 2 ^ 53) :
    Float.ofNat first + Float.ofNat second = Float.ofNat (first + second) := by
  rcases Nat.eq_zero_or_pos (first + second) with none | positive
  · obtain ⟨rfl, rfl⟩ := Nat.add_eq_zero_iff.mp none
    decide +kernel
  · have firstValue := hasValue_ofNat (by omega : first ≤ 2 ^ 53)
    have secondValue := hasValue_ofNat (by omega : second ≤ 2 ^ 53)
    have sum := firstValue.add secondValue (.inl (EReal.natCast_ne_bot _))
      (.inl (EReal.natCast_ne_top _))
    rw [← Nat.cast_add, (hasValue_ofNat small).rounded_eq] at sum
    exact ((exact_eq_natCast_iff positive _).mp sum.exact_eq).eq_ofNat positive

theorem pairUp_map_ofNat :
    ∀ {wholes : List Nat}, wholes.sum ≤ 2 ^ 53 →
      pairUp (fun first second => first + second) (wholes.map Float.ofNat) =
        (pairUp (fun first second => first + second) wholes).map Float.ofNat
  | [], _ => rfl
  | [_], _ => rfl
  | first :: second :: rest, small => by
      rw [List.sum_cons, List.sum_cons] at small
      rw [List.map_cons, List.map_cons, pairUp, ofNat_add_ofNat (by omega),
        pairUp_map_ofNat (by omega), pairUp, List.map_cons]

/-- No round of a sum of whole numbers is rounded if the whole sum is a double. -/
theorem sum_map_ofNat {wholes : List Nat} (small : wholes.sum ≤ 2 ^ 53) :
    Sample.sum (wholes.map Float.ofNat) = Float.ofNat wholes.sum := by
  by_cases none : wholes = []
  · subst none
    decide +kernel
  have kept : ∀ (_ : Nat) (elements : List Float), 1 < elements.length →
      (∃ others : List Nat, elements = others.map Float.ofNat ∧ others.sum = wholes.sum) →
        ∃ others : List Nat, pairUp (fun first second => first + second) elements =
          others.map Float.ofNat ∧ others.sum = wholes.sum := by
    rintro _ _ _ ⟨others, rfl, same⟩
    exact ⟨_, pairUp_map_ofNat (same.trans_le small), (sum_pairUp others).trans same⟩
  obtain ⟨last, _, isLast, others, isSingle, same⟩ := exists_reduceInRounds? _ 0
    (List.map_eq_nil_iff.not.mpr none) ⟨wholes, rfl, rfl⟩ kept
  obtain ⟨whole, rfl, rfl⟩ := List.map_eq_singleton_iff.mp isSingle.symm
  rw [List.sum_singleton] at same
  rw [Sample.sum, isLast, same, Option.getD_some]

/-- Counts one more sample: its bucket gains one. -/
def countSample (low high : Float) (count : Nat) (clamps : Bool) (counts : List Float)
    (sample : Float) : List Float :=
  match bucketOf? low high count clamps sample with
  | some bucket => counts.modify bucket (· + 1.0)
  | none => counts

variable {samples : List Float}

theorem countSample_bucketCounts (ordered : low < high) (small : samples.length < 2 ^ 53)
    (sample : Float) :
    countSample low high count clamps (bucketCounts samples low high count clamps) sample =
      bucketCounts (samples ++ [sample]) low high count clamps := by
  have one : (1.0 : Float) = Float.ofNat 1 := by
    decide +kernel
  have gains (bucket : Nat) : Float.ofNat (tally low high count clamps samples bucket) + 1.0 =
      Float.ofNat (tally low high count clamps samples bucket + 1) := by
    rw [one, ofNat_add_ofNat ((Nat.add_le_add_right (tally_le_length samples bucket) 1).trans small)]
  simp only [bucketCounts_eq_map_tally ordered, tally_append, tally_singleton, countSample]
  cases bucketOf? low high count clamps sample with
  | none =>
      simp
  | some found =>
      refine List.ext_getElem (by simp) fun bucket inCounts inRange => ?_
      rw [List.getElem_modify]
      by_cases same : found = bucket <;> simp [same, gains]

/-- The counts are what is left after the samples are counted one by one. -/
theorem foldl_countSample (ordered : low < high) (small : samples.length < 2 ^ 53) :
    samples.foldl (countSample low high count clamps) (List.replicate count 0.0) =
      bucketCounts samples low high count clamps := by
  induction samples using List.reverseRecOn with
  | nil =>
      have zero : (0.0 : Float) = Float.ofNat 0 := by
        decide +kernel
      simp [bucketCounts_eq_map_tally ordered, tally, zero]
  | append_singleton samples sample inductionHypothesis =>
      rw [List.length_append, List.length_singleton] at small
      have fewer : samples.length < 2 ^ 53 := by
        omega
      rw [List.foldl_append, List.foldl_cons, List.foldl_nil, inductionHypothesis fewer,
        countSample_bucketCounts ordered fewer]

theorem bucketCounts_append (ordered : low < high) {first second : List Float}
    (small : first.length + second.length < 2 ^ 53) :
    bucketCounts (first ++ second) low high count clamps =
      List.zipWith (· + ·) (bucketCounts first low high count clamps)
        (bucketCounts second low high count clamps) := by
  have exactly (bucket : Nat) : tally low high count clamps first bucket +
      tally low high count clamps second bucket ≤ 2 ^ 53 :=
    (Nat.add_le_add (tally_le_length first bucket) (tally_le_length second bucket)).trans small.le
  simp only [bucketCounts_eq_map_tally ordered, List.zipWith_map, List.zipWith_self, tally_append,
    ofNat_add_ofNat (exactly _)]

theorem bucketCounts_of_perm (ordered : low < high) {first second : List Float}
    (permuted : first.Perm second) :
    bucketCounts first low high count clamps = bucketCounts second low high count clamps := by
  simp only [bucketCounts_eq_map_tally ordered, tally, (permuted.filterMap _).count_eq]

/-- The counts are whole numbers with a total, which the sum taken in rounds is as well. -/
structure AreWhole (counts : List Float) (total : Nat) : Prop where
  exists_wholes : ∃ wholes : List Nat,
    List.Forall₂ (fun count whole => HasValue count (whole : Nat)) counts wholes ∧
      wholes.sum = total
  sum_eq : Sample.sum counts = Float.ofNat total

theorem areWhole_bucketCounts (ordered : low < high) (positive : 0 < count)
    (small : samples.length < 2 ^ 53) :
    AreWhole (bucketCounts samples low high count clamps)
      (samples.countP (withinReach low high clamps)) := by
  have total : _ = samples.countP (withinReach low high clamps) :=
    sum_tally ordered positive samples
  have atMost : samples.countP (withinReach low high clamps) ≤ 2 ^ 53 :=
    List.countP_le_length.trans small.le
  have counts : bucketCounts samples low high count clamps =
      ((List.range count).map (tally low high count clamps samples)).map Float.ofNat := by
    rw [bucketCounts_eq_map_tally ordered, List.map_map]
    rfl
  constructor
  · refine ⟨_, ?_, total⟩
    rw [counts, List.forall₂_map_left_iff, List.forall₂_same]
    intro whole member
    obtain ⟨bucket, _, rfl⟩ := List.mem_map.mp member
    exact hasValue_ofNat ((tally_le_length samples bucket).trans small.le)
  · rw [counts, sum_map_ofNat (total.trans_le atMost), total]

/-- Samples of any kind are counted between any two bounds in order: each in one of the buckets or
not at all, and none is lost that is within reach. -/
theorem bucketCounts_counts_within_reach (ordered : low < high) (positive : 0 < count)
    (clamps : Bool) :
    (∀ sample bucket, bucketOf? low high count clamps sample = some bucket → bucket < count) ∧
      (∀ samples : List Float, samples.length < 2 ^ 53 →
        bucketCounts samples low high count clamps =
            samples.foldl (countSample low high count clamps) (List.replicate count 0.0) ∧
          AreWhole (bucketCounts samples low high count clamps)
            (samples.countP (withinReach low high clamps))) ∧
      (∀ first second : List Float, first.length + second.length < 2 ^ 53 →
        bucketCounts (first ++ second) low high count clamps =
          List.zipWith (· + ·) (bucketCounts first low high count clamps)
            (bucketCounts second low high count clamps)) ∧
      ∀ first second : List Float, first.Perm second →
        bucketCounts first low high count clamps = bucketCounts second low high count clamps :=
  ⟨fun _ _ => lt_of_bucketOf? positive,
    fun _ small => ⟨(foldl_countSample ordered small).symm,
      areWhole_bucketCounts ordered positive small⟩,
    fun _ _ => bucketCounts_append ordered, fun _ _ => bucketCounts_of_perm ordered⟩

/-- Finite, infinite and missing samples. -/
def mixedSamples : List Float := [-infinity, 0.0, notANumber, 2.5, infinity]

theorem mixedSamples_between_infinities :
    -infinity < infinity ∧ 0 < 3 ∧ mixedSamples.length < 2 ^ 53 ∧
      bucketCounts mixedSamples (-infinity) infinity 3 false = [4.0, 0.0, 0.0] ∧
      AreWhole [4.0, 0.0, 0.0] 4 := by
  have ordered : -infinity < infinity := by
    decide +kernel
  have few : mixedSamples.length < 2 ^ 53 := by
    decide
  have counts : bucketCounts mixedSamples (-infinity) infinity 3 false = [4.0, 0.0, 0.0] := by
    decide +kernel
  have total : mixedSamples.countP (withinReach (-infinity) infinity false) = 4 := by
    decide +kernel
  have areWhole := ((bucketCounts_counts_within_reach ordered (by decide : 0 < 3) false).2.1
    mixedSamples few).2
  rw [counts, total] at areWhole
  exact ⟨ordered, by decide, few, counts, areWhole⟩

end Samples

end InSitu
