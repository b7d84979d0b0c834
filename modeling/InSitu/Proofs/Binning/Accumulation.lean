import InSitu.Proofs.Binning.Numbering

/-!
# Values of bins

The samples of a bin are those that every axis locates in its digit of the bin
number.  Samples are put into the bins one after the other; after the last one a
bin holds the values of its samples in their order, and the bins together hold
those of all located samples.
-/

namespace InSitu.Binning

/-- Numbers below a limit, each counted at its own place. -/
theorem sum_count_range {limit : Nat} {numbers : List Nat}
    (inRange : ∀ number ∈ numbers, number < limit) :
    ((List.range limit).map fun number => numbers.count number).sum = numbers.length := by
  have member : ∀ number ∈ (numbers : Multiset Nat), number ∈ Finset.range limit :=
    fun number member => Finset.mem_range.mpr (inRange number member)
  have total := Multiset.sum_count_eq_card member
  rw [← List.toFinset_range, List.sum_toFinset _ List.nodup_range] at total
  simpa only [Multiset.coe_count, Multiset.coe_card] using total

/-- The values with a number, in order. -/
def valuesIn (samples : List (Nat × Float)) (bin : Nat) : List Float :=
  (samples.filter fun sample => sample.1 == bin).map Prod.snd

theorem length_valuesIn (samples : List (Nat × Float)) (bin : Nat) :
    (valuesIn samples bin).length = (samples.map Prod.fst).count bin := by
  rw [valuesIn, List.length_map, ← List.countP_eq_length_filter, List.count, List.countP_map]
  rfl

/-- Samples in range, each counted in its own bin. -/
theorem sum_length_valuesIn {total : Nat} {samples : List (Nat × Float)}
    (inRange : ∀ sample ∈ samples, sample.1 < total) :
    ((List.range total).map fun bin => (valuesIn samples bin).length).sum = samples.length := by
  have numbersInRange : ∀ number ∈ samples.map Prod.fst, number < total := by
    intro number member
    obtain ⟨sample, isSample, rfl⟩ := List.mem_map.mp member
    exact inRange sample isSample
  simp only [length_valuesIn]
  rw [sum_count_range numbersInRange, List.length_map]

theorem push?_eq_some {total : Nat} (samples : List (Nat × Float)) {sample : Nat × Float}
    (inRange : sample.1 < total) :
    push? ((List.range total).map (valuesIn samples)) sample =
      some ((List.range total).map (valuesIn (samples ++ [sample]))) := by
  rw [push?, if_pos (by simpa using inRange), Option.some_inj]
  refine List.ext_getElem (by simp) fun bin _ _ => ?_
  by_cases same : sample.1 = bin
  · simp [valuesIn, same]
  · simp [valuesIn, same]

/-- Every bin is filled with the values of its samples if none has a number beyond the bins. -/
theorem fill?_eq_some {total : Nat} {samples : List (Nat × Float)}
    (inRange : ∀ sample ∈ samples, sample.1 < total) :
    fill? total samples = some ((List.range total).map (valuesIn samples)) := by
  induction samples using List.reverseRecOn with
  | nil =>
      exact congrArg some (List.eq_replicate_iff.mpr ⟨by simp, by simp [valuesIn]⟩).symm
  | append_singleton samples sample inductionHypothesis =>
      have before : ∀ other ∈ samples, other.1 < total := fun other member =>
        inRange other (List.mem_append_left _ member)
      rw [fill?, List.foldlM_append, ← fill?, inductionHypothesis before]
      simpa using push?_eq_some samples (inRange sample (by simp))

theorem length_of_push? {bins filled : List (List Float)} {sample : Nat × Float}
    (pushed : push? bins sample = some filled) : filled.length = bins.length := by
  rw [push?] at pushed
  split at pushed
  · rw [← Option.some.inj pushed, List.length_modify]
  · cases pushed

theorem length_of_fill? {total : Nat} {samples : List (Nat × Float)} {filled : List (List Float)}
    (isFilled : fill? total samples = some filled) : filled.length = total := by
  induction samples using List.reverseRecOn generalizing filled with
  | nil =>
      rw [← Option.some.inj isFilled, List.length_replicate]
  | append_singleton samples sample inductionHypothesis =>
      rw [fill?, List.foldlM_append, ← fill?] at isFilled
      obtain ⟨bins, isBefore, pushed⟩ := Option.bind_eq_some_iff.mp isFilled
      rw [length_of_push? (by simpa using pushed), inductionHypothesis isBefore]

theorem accumulate?_eq_some {axes : List (Axis Float)} {columns : List (List Float)}
    {values : Option (List Float)} (reduction : Reduction) (emptyValue : Float)
    (inRange : ∀ sample ∈ binnedSamples axes columns values, sample.1 < totalBins axes) :
    accumulate? axes columns values reduction emptyValue =
      some ((List.range (totalBins axes)).map fun bin =>
        binValue reduction emptyValue (binnedSamples axes columns values).length
          (valuesIn (binnedSamples axes columns values) bin)) := by
  rw [accumulate?, fill?_eq_some inRange, Option.map_some, List.length_flatten, List.map_map,
    List.map_map, ← sum_length_valuesIn inRange]
  rfl

theorem length_of_accumulate? {axes : List (Axis Float)} {columns : List (List Float)}
    {values : Option (List Float)} {reduction : Reduction} {emptyValue : Float}
    {result : List Float}
    (computed : accumulate? axes columns values reduction emptyValue = some result) :
    result.length = totalBins axes := by
  obtain ⟨bins, isFilled, rfl⟩ := Option.map_eq_some_iff.mp computed
  rw [List.length_map, length_of_fill? isFilled]

theorem lt_sampleCount_iff (columns : List (List Float)) (sample : Nat) :
    sample < sampleCount columns ↔
      columns ≠ [] ∧ ∀ column ∈ columns, sample < column.length := by
  rw [sampleCount]
  cases shortest : (columns.map List.length).min? with
  | none =>
      have noColumns : columns = [] := by
        simpa using shortest
      simp [noColumns]
  | some length =>
      have nonempty : columns ≠ [] := by
        rintro rfl
        cases shortest
      obtain ⟨attained, least⟩ := List.min?_eq_some_iff.mp shortest
      simp only [Option.getD_some, nonempty, ne_eq, not_false_eq_true, true_and]
      constructor
      · intro below column member
        exact Nat.lt_of_lt_of_le below (least _ (List.mem_map_of_mem member))
      · intro below
        obtain ⟨column, member, rfl⟩ := List.mem_map.mp attained
        exact below column member

/-- Where the axis at a position puts a sample. -/
def locatedSample? (axes : List (Axis Float)) (columns : List (List Float))
    (sample position : Nat) : Option Nat := do
  let axis ← axes[position]?
  let column ← columns[position]?
  let coordinate ← column[sample]?
  axis.locateSample? coordinate

/-- The samples in every column that every axis locates, in order. -/
def locatedSamples (axes : List (Axis Float)) (columns : List (List Float)) : List Nat :=
  (List.range (sampleCount columns)).filter fun sample =>
    ∀ position < axes.length, (locatedSample? axes columns sample position).isSome

/-- The samples in every column that every axis locates in its digit of a bin, in order. -/
def samplesIn (axes : List (Axis Float)) (columns : List (List Float)) (bin : Nat) : List Nat :=
  (List.range (sampleCount columns)).filter fun sample =>
    ∀ position < axes.length,
      locatedSample? axes columns sample position = some (digit axes bin position)

section Columns

variable {axes : List (Axis Float)} {columns : List (List Float)}

/-- Below the shortest length no coordinate is made up. -/
theorem located?_coordinatesOf {sample : Nat} (inColumns : sample < sampleCount columns) :
    located? axes (coordinatesOf columns sample) = locatedSample? axes columns sample := by
  funext position
  have coordinate :
      (coordinatesOf columns sample)[position]? =
        (columns[position]?).bind fun column => column[sample]? := by
    rw [coordinatesOf, List.getElem?_map]
    cases isColumn : columns[position]? with
    | none =>
        rfl
    | some column =>
        have inColumn : sample < column.length :=
          ((lt_sampleCount_iff columns sample).mp inColumns).2 column
            (List.mem_of_getElem? isColumn)
        simp [inColumn]
  rw [located?, locatedSample?, coordinate]
  cases axes[position]? with
  | none =>
      rfl
  | some axis =>
      cases columns[position]? with
      | none =>
          rfl
      | some column =>
          rfl

variable (positive : ∀ axis ∈ axes, 0 < axis.binCount)
  (inWord : (axes.map Axis.binCount).prod < UInt64.size) (matching : columns.length = axes.length)

include positive inWord matching

theorem binOf?_coordinatesOf_eq_some_iff {sample : Nat} (inColumns : sample < sampleCount columns)
    (bin : Nat) :
    binOf? axes (coordinatesOf columns sample) = some bin ↔
      bin < totalBins axes ∧ sample ∈ samplesIn axes columns bin := by
  have sameLength : (coordinatesOf columns sample).length = axes.length := by
    rw [coordinatesOf, List.length_map, matching]
  rw [binOf?_eq_some_iff positive inWord sameLength, located?_coordinatesOf inColumns]
  simp [samplesIn, inColumns]

theorem samplesIn_eq_filter {bin : Nat} (inRange : bin < totalBins axes) :
    samplesIn axes columns bin =
      (List.range (sampleCount columns)).filter fun sample =>
        binOf? axes (coordinatesOf columns sample) == some bin := by
  refine List.filter_congr fun sample member => ?_
  have inColumns : sample < sampleCount columns := List.mem_range.mp member
  rw [Bool.eq_iff_iff, decide_eq_true_iff, beq_iff_eq,
    binOf?_coordinatesOf_eq_some_iff positive inWord matching inColumns]
  simp [samplesIn, inColumns, inRange]

theorem locatedSamples_eq_filter :
    locatedSamples axes columns =
      (List.range (sampleCount columns)).filter fun sample =>
        (binOf? axes (coordinatesOf columns sample)).isSome := by
  refine List.filter_congr fun sample member => ?_
  have sameLength : (coordinatesOf columns sample).length = axes.length := by
    rw [coordinatesOf, List.length_map, matching]
  rw [Bool.eq_iff_iff, decide_eq_true_iff, binOf?_isSome_iff positive inWord sameLength,
    located?_coordinatesOf (List.mem_range.mp member)]

/-- No sample has a number beyond the bins. -/
theorem lt_totalBins_of_mem_binnedSamples {values : Option (List Float)} {sample : Nat × Float}
    (member : sample ∈ binnedSamples axes columns values) : sample.1 < totalBins axes := by
  obtain ⟨place, inColumns, isSample⟩ := List.mem_filterMap.mp member
  obtain ⟨bin, isBin, rfl⟩ := Option.map_eq_some_iff.mp isSample
  exact ((binOf?_coordinatesOf_eq_some_iff positive inWord matching
    (List.mem_range.mp inColumns) bin).mp isBin).1

theorem length_binnedSamples (values : Option (List Float)) :
    (binnedSamples axes columns values).length = (locatedSamples axes columns).length := by
  rw [locatedSamples_eq_filter positive inWord matching, binnedSamples,
    List.length_filterMap_eq_countP, List.countP_eq_length_filter]
  simp only [Option.isSome_map]

theorem valuesIn_binnedSamples (values : Option (List Float)) {bin : Nat}
    (inRange : bin < totalBins axes) :
    valuesIn (binnedSamples axes columns values) bin =
      (samplesIn axes columns bin).map (valueOf values) := by
  rw [samplesIn_eq_filter positive inWord matching inRange, valuesIn, binnedSamples]
  generalize List.range (sampleCount columns) = samples
  induction samples with
  | nil =>
      rfl
  | cons sample samples inductionHypothesis =>
      cases located : binOf? axes (coordinatesOf columns sample) with
      | none =>
          simpa [located] using inductionHypothesis
      | some first =>
          by_cases same : first = bin
          · simpa [located, same] using inductionHypothesis
          · simpa [located, same] using inductionHypothesis

/-- Every located sample is in one bin. -/
theorem sum_length_samplesIn :
    ((List.range (totalBins axes)).map fun bin => (samplesIn axes columns bin).length).sum =
      (locatedSamples axes columns).length := by
  have inBin : ∀ bin ∈ List.range (totalBins axes), (samplesIn axes columns bin).length =
      (valuesIn (binnedSamples axes columns none) bin).length := by
    intro bin member
    rw [valuesIn_binnedSamples positive inWord matching none (List.mem_range.mp member),
      List.length_map]
  rw [List.map_congr_left inBin, sum_length_valuesIn fun sample member =>
      lt_totalBins_of_mem_binnedSamples positive inWord matching member,
    length_binnedSamples positive inWord matching]

/-- The bins are reduced one by one, and the share of a bin is one of all located samples. -/
theorem accumulate?_eq_some_samplesIn (values : Option (List Float)) (reduction : Reduction)
    (emptyValue : Float) :
    accumulate? axes columns values reduction emptyValue =
      some ((List.range (totalBins axes)).map fun bin =>
        binValue reduction emptyValue (locatedSamples axes columns).length
          ((samplesIn axes columns bin).map (valueOf values))) := by
  rw [accumulate?_eq_some reduction emptyValue fun sample member =>
      lt_totalBins_of_mem_binnedSamples positive inWord matching member,
    length_binnedSamples positive inWord matching, Option.some_inj]
  refine List.map_congr_left fun bin member => ?_
  rw [valuesIn_binnedSamples positive inWord matching values (List.mem_range.mp member)]

theorem accumulate?_eq_some_accumulate (values : Option (List Float)) (reduction : Reduction)
    (emptyValue : Float) :
    accumulate? axes columns values reduction emptyValue =
      some (accumulate axes columns values reduction emptyValue) := by
  rw [accumulate, accumulate?_eq_some_samplesIn positive inWord matching, Option.getD_some]

end Columns

/-- What the values of a binning say about its samples. -/
structure IsAccumulation (axes : List (Axis Float)) (columns : List (List Float))
    (values : Option (List Float)) (reduction : Reduction) (emptyValue : Float)
    (result : List Float) : Prop where
  length : result.length = (axes.map Axis.binCount).prod
  /-- The samples considered are those below the length of every column. -/
  considered : ∀ sample, sample < sampleCount columns ↔
    columns ≠ [] ∧ ∀ column ∈ columns, sample < column.length
  reduced : reduction ≠ .pdf → ∀ bin < result.length,
    result[bin]? =
      some ((Sample.reduce? reduction
        ((samplesIn axes columns bin).map (valueOf values))).getD emptyValue)
  share : reduction = .pdf → ∀ bin < result.length,
    samplesIn axes columns bin ≠ [] →
      result[bin]? =
        some (Float.ofNat (samplesIn axes columns bin).length /
          Float.ofNat (locatedSamples axes columns).length)
  empty : ∀ bin < result.length, samplesIn axes columns bin = [] →
    result[bin]? = some emptyValue
  /-- The number computed for a sample is in range, and is that of the one bin holding it. -/
  number : ∀ sample < sampleCount columns, ∀ bin,
    binOf? axes (coordinatesOf columns sample) = some bin ↔
      bin < result.length ∧ sample ∈ samplesIn axes columns bin
  atMostOne : ∀ first < result.length,
    ∀ second < result.length,
      ∀ sample ∈ samplesIn axes columns first, sample ∈ samplesIn axes columns second →
        first = second
  total : ((List.range result.length).map fun bin =>
    (samplesIn axes columns bin).length).sum = (locatedSamples axes columns).length

theorem mem_range_of_mem_samplesIn {axes : List (Axis Float)} {columns : List (List Float)}
    {bin sample : Nat} (member : sample ∈ samplesIn axes columns bin) :
    sample < sampleCount columns :=
  List.mem_range.mp (List.mem_filter.mp member).1

/-- If a word holds the number of all bins, then valid axes with as many columns give a result, and
it has one value for every bin. -/
theorem accumulate?_isAccumulation (axes : List (Axis Float)) (columns : List (List Float))
    (values : Option (List Float)) (reduction : Reduction) (emptyValue : Float)
    (wellFormed : ∀ axis ∈ axes, axis.check = .ok ())
    (matching : columns.length = axes.length)
    (inWord : (axes.map Axis.binCount).prod < UInt64.size) :
    ∃ result, accumulate? axes columns values reduction emptyValue = some result ∧
      IsAccumulation axes columns values reduction emptyValue result := by
  have positive : ∀ axis ∈ axes, 0 < axis.binCount := fun axis member =>
    Axis.binCount_pos (wellFormed axis member)
  have number := fun sample (inColumns : sample < sampleCount columns) bin =>
    binOf?_coordinatesOf_eq_some_iff positive inWord matching inColumns bin
  refine ⟨_, accumulate?_eq_some_samplesIn positive inWord matching values reduction emptyValue, ?_⟩
  constructor
  case length =>
    rw [List.length_map, List.length_range, totalBins_eq_prod positive inWord]
  case considered =>
    exact lt_sampleCount_iff columns
  all_goals
    rw [List.length_map, List.length_range]
  case reduced =>
    intro noShare bin inRange
    rw [List.getElem?_map, List.getElem?_range inRange, Option.map_some, binValue]
    cases Sample.reduce? reduction ((samplesIn axes columns bin).map (valueOf values)) with
    | none =>
        rfl
    | some reduced =>
        exact congrArg some (if_neg noShare)
  case share =>
    intro isShare bin inRange nonempty
    have counted :
        Sample.reduce? reduction ((samplesIn axes columns bin).map (valueOf values)) =
          some (Float.ofNat (samplesIn axes columns bin).length) := by
      simp [Sample.reduce?, isShare, nonempty]
    rw [List.getElem?_map, List.getElem?_range inRange, Option.map_some, binValue, counted]
    exact congrArg some (if_pos isShare)
  case empty =>
    intro bin inRange isEmpty
    rw [List.getElem?_map, List.getElem?_range inRange, Option.map_some, isEmpty]
    rfl
  case number =>
    exact number
  case atMostOne =>
    intro first firstInRange second secondInRange sample inFirst inSecond
    have inColumns : sample < sampleCount columns := mem_range_of_mem_samplesIn inFirst
    have isFirst := (number sample inColumns first).mpr ⟨firstInRange, inFirst⟩
    have isSecond := (number sample inColumns second).mpr ⟨secondInRange, inSecond⟩
    exact Option.some.inj (isFirst.symm.trans isSecond)
  case total =>
    exact sum_length_samplesIn positive inWord matching

/-- Two columns of bins in a lower and an upper row. -/
def twoRows : List (Axis Float) :=
  [⟨"x", false, .uniform 0.0 2.0 2⟩, ⟨"y", false, .edged [0.0, 1.0, 2.0]⟩]

/-- One sample left below, one right below, one right above and one beside the columns. -/
def aroundTwoRows : List (List Float) := [[0.5, 1.5, 1.5, 7.0], [0.5, 0.5, 1.5, 0.5]]

theorem accumulate?_twoRows :
    (∀ axis ∈ twoRows, axis.check = .ok ()) ∧ (twoRows.map Axis.binCount).prod < UInt64.size ∧
      samplesIn twoRows aroundTwoRows 1 = [1] ∧ samplesIn twoRows aroundTwoRows 2 = [] ∧
      accumulate? twoRows aroundTwoRows (some [1.0, 2.0, 4.0]) .sum (-1.0) =
        some [1.0, 2.0, -1.0, 4.0] ∧
      IsAccumulation twoRows aroundTwoRows (some [1.0, 2.0, 4.0]) .sum (-1.0)
        [1.0, 2.0, -1.0, 4.0] := by
  have sums : accumulate? twoRows aroundTwoRows (some [1.0, 2.0, 4.0]) .sum (-1.0) =
      some [1.0, 2.0, -1.0, 4.0] := by
    decide +kernel
  have wellFormed : ∀ axis ∈ twoRows, axis.check = .ok () := by
    intro axis member
    rcases List.mem_pair.mp member with rfl | rfl
    · rfl
    · rfl
  have inWord : (twoRows.map Axis.binCount).prod < UInt64.size := by
    decide +kernel
  refine ⟨wellFormed, inWord, by decide +kernel, by decide +kernel, sums, ?_⟩
  obtain ⟨result, computed, isAccumulation⟩ := accumulate?_isAccumulation twoRows aroundTwoRows
    (some [1.0, 2.0, 4.0]) .sum (-1.0) wellFormed rfl inWord
  rw [sums] at computed
  obtain rfl := Option.some.inj computed
  exact isAccumulation

end InSitu.Binning
