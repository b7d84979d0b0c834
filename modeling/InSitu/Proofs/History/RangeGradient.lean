import Mathlib
import InSitu.Proofs.History.Contents
import InSitu.Proofs.History.Untimed
import InSitu.Proofs.Number.Extended

/-!
# Gradients across a window

The entries of a window have a rate of change between any two neighbours: the
difference of their numbers, divided by that of their times.  There are none
without two entries, and a window fails for an entry without a number and, if
there are two, for an entry without a time.  Multiplied by the steps of time the
rates add up to the change over the whole window.
-/

namespace InSitu

section Rates

variable {α : Type} [Scalar α]

/-- The differences of neighbours. -/
def differences : List α → List α
  | before :: after :: rest => (after - before) :: differences (after :: rest)
  | _ => []

/-- The rates of change of numbers between neighbouring times. -/
def rates (times numbers : List α) : List α :=
  slopes numbers (differences times)

theorem length_rates {times numbers : List α} (sameLength : times.length = numbers.length) :
    (rates times numbers).length = numbers.length - 1 := by
  induction numbers generalizing times with
  | nil =>
      rfl
  | cons before rest inductionHypothesis =>
      match rest, times, sameLength with
      | [], _, _ =>
          rfl
      | after :: rest, earlier :: later :: times, sameLength =>
          exact congrArg (· + 1) (inductionHypothesis (Nat.succ.inj sameLength))

end Rates

/-- The rates multiplied by the steps add up to the difference between the last and the first
number. -/
def AddsUp (times numbers : List ℚ) : Prop :=
  ∀ first last, numbers.head? = some first → numbers.getLast? = some last →
    (List.zipWith (· * ·) (rates times numbers) (differences times)).sum = last - first

theorem addsUp_of_rising {times numbers : List ℚ} (rising : times.Pairwise (· < ·))
    (sameLength : times.length = numbers.length) : AddsUp times numbers := by
  induction numbers generalizing times with
  | nil =>
      rintro _ _ ⟨⟩
  | cons before rest inductionHypothesis =>
      intro first last isFirst isLast
      cases isFirst
      match rest, times, sameLength with
      | [], [_], _ =>
          cases isLast
          exact (sub_self _).symm
      | after :: rest, earlier :: later :: times, sameLength =>
          obtain ⟨below, restRising⟩ := List.pairwise_cons.mp rising
          have step : later - earlier ≠ 0 := sub_ne_zero.mpr (below later List.mem_cons_self).ne'
          rw [List.getLast?_cons_cons] at isLast
          have others :=
            inductionHypothesis restRising (Nat.succ.inj sameLength) after last rfl isLast
          calc
            (after - before) / (later - earlier) * (later - earlier) +
                (List.zipWith (· * ·) (rates (later :: times) (after :: rest))
                  (differences (later :: times))).sum =
                (after - before) + (last - after) := by
              rw [others, div_mul_cancel₀ _ step]
            _ = last - before := by
              ring

/-- Doubles have these values. -/
def AreExactly (numbers : List Float) (values : List ℚ) : Prop :=
  numbers.map Number.exact = values.map fun value : ℚ => ((value : ℝ) : EReal)

theorem areExactly_ofNat {naturals : List Nat} (small : ∀ natural ∈ naturals, natural ≤ 2 ^ 53) :
    AreExactly (naturals.map Float.ofNat) (naturals.map Nat.cast) := by
  rw [AreExactly, List.map_map, List.map_map]
  refine List.map_congr_left fun natural member => ?_
  have value : (((natural : ℚ) : ℝ) : EReal) = natural := by
    rw [Rat.cast_natCast, EReal.coe_natCast]
  exact (Number.exact_ofNat (small natural member)).trans value.symm

theorem AreExactly.length_eq {numbers : List Float} {values : List ℚ}
    (exactly : AreExactly numbers values) : numbers.length = values.length :=
  length_eq_of_map_eq_map exactly

/-- The values of doubles rise as the doubles do. -/
theorem AreExactly.rising {numbers : List Float} {values : List ℚ}
    (exactly : AreExactly numbers values) (rising : numbers.Pairwise (· < ·)) :
    values.Pairwise (· < ·) := by
  have exactRising : (numbers.map Number.exact).Pairwise (· < ·) :=
    List.pairwise_map.mpr (rising.imp fun below => ((Number.lt_iff_exact _ _).mp below).2.2)
  rw [exactly] at exactRising
  exact (List.pairwise_map.mp exactRising).imp fun below =>
    Rat.cast_lt.mp (EReal.coe_lt_coe_iff.mp below)

namespace Timeline

section Entries

variable {node : String} {entries : List ValueEntry}

theorem windowValues_fails_iff :
    (∃ fault, windowValues node entries = .error fault) ↔
      ∃ entry ∈ entries, entry.value.scalar? = none := by
  unfold windowValues
  simp only [bind_eq_error_iff, pure, Except.pure, reduceCtorEq, and_false, exists_false, or_false]
  rw [exists_mapM_eq_error_iff]
  refine exists_congr fun entry => and_congr_right fun _ => ?_
  cases entry.value.scalar? with
  | none =>
      simp
  | some number =>
      simp

theorem windowDeltas_of_timed {before after : ValueEntry} {earlier later : Float}
    (isEarlier : before.time = some earlier) (isLater : after.time = some later) :
    windowDeltas node .time (before :: after :: entries) =
      (windowDeltas node .time (after :: entries)).map ((later - earlier) :: ·) := by
  rw [windowDeltas, isEarlier, isLater]
  rfl

theorem windowDeltas_of_untimed {before after : ValueEntry}
    (untimed : before.time = none ∨ after.time = none) :
    windowDeltas node .time (before :: after :: entries) =
      .error (.badArgument node .untimedDeltas) := by
  rw [windowDeltas]
  rcases untimed with isBefore | isAfter
  · rw [isBefore]
    rfl
  · rw [isAfter]
    cases before.time <;> rfl

theorem windowDeltas_of_recorded {times : List Float}
    (recorded : entries.map Entry.time = times.map some) :
    windowDeltas node .time entries = .ok (differences times) := by
  have sameLength := length_eq_of_map_eq_map recorded
  induction entries generalizing times with
  | nil =>
      rw [List.length_eq_zero_iff.mp sameLength.symm]
      rfl
  | cons before rest inductionHypothesis =>
      match rest, times, sameLength with
      | [], [_], _ =>
          rfl
      | after :: rest, earlier :: later :: times, sameLength =>
          obtain ⟨isEarlier, restRecorded⟩ := List.cons.inj recorded
          have isLater := (List.cons.inj restRecorded).1
          rw [windowDeltas_of_timed isEarlier isLater,
            inductionHypothesis restRecorded (Nat.succ.inj sameLength)]
          rfl

theorem windowDeltas_of_unrecorded (several : 2 ≤ entries.length) (notAll : ¬ AllTimed entries) :
    windowDeltas node .time entries = .error (.badArgument node .untimedDeltas) := by
  induction entries with
  | nil =>
      cases several
  | cons before rest inductionHypothesis =>
      match rest, several with
      | after :: rest, _ =>
          by_cases untimed : before.time = none ∨ after.time = none
          · exact windowDeltas_of_untimed untimed
          · -- The first step is known, so an entry without a time comes after it.
            obtain ⟨⟨earlier, isEarlier⟩, later, isLater⟩ := (not_or.mp untimed).imp
              Option.ne_none_iff_exists'.mp Option.ne_none_iff_exists'.mp
            have restNotAll : ¬ AllTimed (after :: rest) := fun restTimed =>
              notAll (List.forall_mem_cons.mpr ⟨by rw [isEarlier]; rfl, restTimed⟩)
            have restSeveral : 2 ≤ (after :: rest).length := by
              cases rest with
              | nil =>
                  refine absurd (List.forall_mem_singleton.mpr ?_) restNotAll
                  rw [isLater]
                  rfl
              | cons next rest =>
                  exact Nat.le_add_left 2 rest.length
            rw [windowDeltas_of_timed isEarlier isLater,
              inductionHypothesis restSeveral restNotAll]
            rfl

theorem windowDeltas_of_short (short : entries.length < 2) :
    windowDeltas node .time entries = .ok [] := by
  cases entries with
  | nil =>
      rfl
  | cons first rest =>
      have alone : rest.length = 0 := Nat.lt_one_iff.mp (Nat.lt_of_succ_lt_succ short)
      rw [List.length_eq_zero_iff.mp alone]
      rfl

theorem windowDeltas_fails_iff :
    (∃ fault, windowDeltas node .time entries = .error fault) ↔
      2 ≤ entries.length ∧ ¬ AllTimed entries := by
  constructor
  · rintro ⟨fault, fails⟩
    refine ⟨?_, fun allTimed => ?_⟩
    · by_contra short
      cases fails.symm.trans (windowDeltas_of_short (not_le.mp short))
    · obtain ⟨times, recorded⟩ := exists_map_eq_map_some allTimed
      cases fails.symm.trans (windowDeltas_of_recorded recorded)
  · rintro ⟨several, notAll⟩
    exact ⟨_, windowDeltas_of_unrecorded several notAll⟩

/-- The times and the numbers of entries. -/
structure Measured (entries : List ValueEntry) (times numbers : List Float) : Prop where
  areTimes : entries.map Entry.time = times.map some
  areNumbers : entries.map (fun entry => entry.value.scalar?) = numbers.map some

/-- An entry of a window has no number, or one of two or more entries has no time. -/
def Unfit (entries : List ValueEntry) : Prop :=
  (∃ entry ∈ entries, entry.value.scalar? = none) ∨ 2 ≤ entries.length ∧ ¬ AllTimed entries

/-- The gradients between the entries of a window. -/
def windowGradients (node : String) (entries : List ValueEntry) : Except Fault (List Float) := do
  let values ← windowValues node entries
  let steps ← windowDeltas node .time entries
  return if values.elements.length < 2 then [Number.negativeInfinity]
    else slopes values.elements steps

theorem windowGradients_fails_iff :
    (∃ fault, windowGradients node entries = .error fault) ↔ Unfit entries := by
  rw [windowGradients, exists_both_eq_error_iff, windowValues_fails_iff, windowDeltas_fails_iff,
    Unfit]

/-- The values of a window that has numbers. -/
theorem exists_windowValues (fit : ¬ Unfit entries) (node : String) :
    ∃ values, windowValues node entries = .ok values ∧
      values.elements.length = entries.length ∧
      entries.map (fun entry => entry.value.scalar?) = values.elements.map some := by
  cases isValues : windowValues node entries with
  | error fault =>
      exact absurd (.inl (windowValues_fails_iff.mp ⟨fault, isValues⟩)) fit
  | ok values =>
      have areNumbers := (yields_windowValues node entries values isValues).1
      exact ⟨values, rfl, (length_eq_of_map_eq_map areNumbers).symm, areNumbers⟩

theorem windowGradients_of_short (fit : ¬ Unfit entries) (short : entries.length < 2)
    (node : String) :
    windowGradients node entries = .ok [Number.negativeInfinity] := by
  obtain ⟨values, isValues, sameLength, _⟩ := exists_windowValues fit node
  rw [windowGradients, isValues, windowDeltas_of_short short]
  simp only [bind, Except.bind, sameLength, if_pos short]
  rfl

theorem windowGradients_of_several (fit : ¬ Unfit entries) (several : 2 ≤ entries.length)
    (node : String) :
    ∃ times numbers, Measured entries times numbers ∧
      windowGradients node entries = .ok (rates times numbers) := by
  obtain ⟨values, isValues, sameLength, areNumbers⟩ := exists_windowValues fit node
  have allTimed : AllTimed entries := by
    by_contra notAll
    exact fit (.inr ⟨several, notAll⟩)
  obtain ⟨times, areTimes⟩ := exists_map_eq_map_some allTimed
  refine ⟨times, values.elements, ⟨areTimes, areNumbers⟩, ?_⟩
  rw [windowGradients, isValues, windowDeltas_of_recorded areTimes]
  simp only [bind, Except.bind, sameLength, if_neg several.not_gt]
  rfl

theorem Measured.length_eq {times numbers : List Float}
    (measured : Measured entries times numbers) :
    times.length = entries.length ∧ numbers.length = entries.length :=
  ⟨(length_eq_of_map_eq_map measured.areTimes).symm,
    (length_eq_of_map_eq_map measured.areNumbers).symm⟩

/-- In exact arithmetic the rates of measured entries add up to their change. -/
theorem Measured.addsUp {times numbers : List Float} {exactTimes exactNumbers : List ℚ}
    (measured : Measured entries times numbers) (rising : times.Pairwise (· < ·))
    (areTimes : AreExactly times exactTimes) (areNumbers : AreExactly numbers exactNumbers) :
    AddsUp exactTimes exactNumbers := by
  have sameLength : exactTimes.length = exactNumbers.length := by
    rw [← areTimes.length_eq, ← areNumbers.length_eq, measured.length_eq.1, measured.length_eq.2]
  exact addsUp_of_rising (areTimes.rising rising) sameLength

end Entries

/-! ## Windows of a timeline -/

theorem rangeGradient_eq (timeline : ValueTimeline) (node : String) (selector : RangeSelector) :
    timeline.rangeGradient node selector =
      (selector.entriesOf node timeline).bind fun found =>
        found.elim (.ok [Number.negativeInfinity]) (windowGradients node) := by
  rw [rangeGradient, range, RangeSelector.entriesOf]
  cases selector.resolve node timeline with
  | error fault =>
      rfl
  | ok resolved =>
      cases resolved with
      | none =>
          rfl
      | some span =>
          change _ = windowGradients node (timeline.slice span)
          rw [windowGradients]
          simp only [bind, Except.bind, Option.mapM]
          cases windowValues node (timeline.slice span) with
          | error fault =>
              rfl
          | ok values =>
              cases windowDeltas node .time (timeline.slice span) with
              | error fault =>
                  rfl
              | ok steps =>
                  obtain ⟨elementType, elements⟩ := values
                  cases elements with
                  | nil =>
                      rfl
                  | cons first rest =>
                      cases rest <;> rfl

/-- The gradients across a window fail if the window does not resolve or is unfit.  Otherwise they
are negative infinity alone if there are no two entries, and else the rates between neighbours,
which add up to the whole change in exact arithmetic. -/
theorem rangeGradient_across_window (timeline : ValueTimeline) (node : String)
    (selector : RangeSelector) :
    ((∃ fault, timeline.rangeGradient node selector = .error fault) ↔
        (∃ fault, selector.resolve node timeline = .error fault) ∨
          ∃ entries, selector.entriesOf node timeline = .ok (some entries) ∧ Unfit entries) ∧
      (selector.entriesOf node timeline = .ok none →
        timeline.rangeGradient node selector = .ok [Number.negativeInfinity]) ∧
      ∀ entries, selector.entriesOf node timeline = .ok (some entries) → ¬ Unfit entries →
        (entries.length < 2 →
          timeline.rangeGradient node selector = .ok [Number.negativeInfinity]) ∧
        (2 ≤ entries.length → ∃ times numbers, Measured entries times numbers ∧
          timeline.rangeGradient node selector = .ok (rates times numbers) ∧
          (rates times numbers).length + 1 = entries.length ∧
          (times.Pairwise (· < ·) → ∀ exactTimes exactNumbers, AreExactly times exactTimes →
            AreExactly numbers exactNumbers → AddsUp exactTimes exactNumbers)) := by
  have entriesOf_fails_iff : (∃ fault, selector.entriesOf node timeline = .error fault) ↔
      ∃ fault, selector.resolve node timeline = .error fault := by
    rw [RangeSelector.entriesOf]
    cases selector.resolve node timeline <;> simp [Except.map]
  rw [rangeGradient_eq, ← entriesOf_fails_iff]
  cases selector.entriesOf node timeline with
  | error fault =>
      simp [Except.bind]
  | ok found =>
      cases found with
      | none =>
          simp [Except.bind]
      | some entries =>
          simp only [Except.bind, Option.elim_some, windowGradients_fails_iff, Except.ok.injEq,
            Option.some.injEq, reduceCtorEq, exists_false, false_or, exists_eq_left',
            false_imp_iff, true_and]
          rintro _ rfl fit
          refine ⟨fun short => windowGradients_of_short fit short node, fun several => ?_⟩
          obtain ⟨times, numbers, measured, found⟩ := windowGradients_of_several fit several node
          have sameLength := measured.length_eq.1.trans measured.length_eq.2.symm
          refine ⟨times, numbers, measured, found, ?_, fun rising _ _ => measured.addsUp rising⟩
          rw [length_rates sameLength, measured.length_eq.2]
          omega

/-- Three numbers at times further and further apart. -/
def spreadReadings : ValueTimeline :=
  ⟨[⟨0, some 1.0, .double 10.0⟩, ⟨1, some 2.0, .double 20.0⟩, ⟨2, some 4.0, .int 60⟩]⟩

theorem spreadReadings_rates :
    (RangeSelector.absoluteIndex 0 2).entriesOf "g" spreadReadings =
        .ok (some spreadReadings.entries) ∧
      ¬ Unfit spreadReadings.entries ∧ 2 ≤ spreadReadings.entries.length ∧
      spreadReadings.rangeGradient "g" (.absoluteIndex 0 2) = .ok [10.0, 20.0] ∧
      AddsUp [1, 2, 4] [10, 20, 60] := by
  have resolves : (RangeSelector.absoluteIndex 0 2).resolve "g" spreadReadings =
      .ok (some ⟨0, 2⟩) :=
    RangeSelector.resolve_absoluteIndex (by decide) (by decide) (List.cons_ne_nil _ _) "g"
  have found : (RangeSelector.absoluteIndex 0 2).entriesOf "g" spreadReadings =
      .ok (some spreadReadings.entries) := by
    rw [RangeSelector.entriesOf, resolves]
    rfl
  have fit : ¬ Unfit spreadReadings.entries := by
    simp [Unfit, AllTimed, spreadReadings, Value.scalar?, Value.double?]
  have several : 2 ≤ spreadReadings.entries.length := by
    decide
  obtain ⟨times, numbers, measured, gradients, _, addsUp⟩ :=
    ((rangeGradient_across_window spreadReadings "g" (.absoluteIndex 0 2)).2.2 _ found fit).2
      several
  have someInjective := List.map_injective_iff.mpr (Option.some_injective Float)
  obtain rfl : times = [1, 2, 4].map Float.ofNat :=
    someInjective (measured.areTimes.symm.trans (by decide +kernel))
  obtain rfl : numbers = [10, 20, 60].map Float.ofNat :=
    someInjective (measured.areNumbers.symm.trans (by decide +kernel))
  have computed : rates ([1, 2, 4].map Float.ofNat) ([10, 20, 60].map Float.ofNat) =
      [10.0, 20.0] := by
    decide +kernel
  rw [computed] at gradients
  refine ⟨found, fit, several, gradients, ?_⟩
  have exactly := addsUp (by decide +kernel) _ _ (areExactly_ofNat (by decide))
    (areExactly_ofNat (by decide))
  simpa using exactly

end Timeline

end InSitu
