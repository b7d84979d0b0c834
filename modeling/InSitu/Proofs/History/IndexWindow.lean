import Mathlib
import InSitu.Proofs.History.Addressing
import InSitu.Proofs.History.TrailingWindow

/-!
# Windows counted in entries

A window counted in entries begins a whole number of entries back, and its
length as it was given divides the difference.  A window longer than the history
is cut to it, where its whole part decides what is longer: a window between the
`n - 1` steps of a history and its `n` entries covers the whole history and is
not cut.
-/

namespace InSitu.Timeline

open Number (exact)

section Start

variable {α ν : Type} [Scalar α] {entries : List (Entry α ν)} {oldest : Entry α ν} {length : α}

/-- A window whose whole part reaches the oldest entry begins there. -/
theorem windowStart_index (newest : Entry α ν) (isOldest : entries.head? = some oldest)
    (reaches : entries.length - 1 ≤ Scalar.wholePart length) :
    windowStart entries newest length .index =
      .ok (oldest, if entries.length - 1 < Scalar.wholePart length then
        Scalar.ofNat (entries.length - 1) else length) := by
  have first : entries.headD newest = oldest := by
    rw [List.headD_eq_head?_getD, isOldest, Option.getD_some]
  rw [windowStart]
  by_cases beyond : entries.length - 1 < Scalar.wholePart length
  · rw [if_pos beyond, if_pos beyond, first]
  · have back : entries.length - 1 - Scalar.wholePart length = 0 := Nat.sub_eq_zero_of_le reaches
    rw [if_neg beyond, if_neg beyond, back, List.getD_eq_getElem?_getD, ← List.head?_eq_getElem?,
      isOldest, Option.getD_some]

end Start

variable {timeline : ValueTimeline} {length oldest newest : Float}

/-- The numbers of the oldest and the newest entry of a history of at least two. -/
structure RunsFrom (timeline : ValueTimeline) (oldest newest : Float) : Prop where
  several : 2 ≤ timeline.size
  inWord : timeline.size < 2 ^ 64
  isOldest : timeline.oldest?.bind (fun entry => entry.value.scalar?) = some oldest
  isNewest : timeline.latest?.bind (fun entry => entry.value.scalar?) = some newest

/-- The number of steps between the entries of a history. -/
def stepCount (timeline : ValueTimeline) : Float := Float.ofNat (timeline.size - 1)

/-- The distance that a window over the whole history divides by. -/
noncomputable def realized (timeline : ValueTimeline) (length : Float) : Float :=
  if (timeline.size : EReal) ≤ exact length then timeline.stepCount else length

theorem accepts_of_one_le (natural : 1 ≤ exact length) (unit : DeltaUnit) :
    Accepts length unit := by
  constructor
  · refine (Number.le_iff_exact _ _).mpr ⟨rfl, ?_, ?_⟩
    · exact Number.isNaN_eq_false_of_exact ((EReal.bot_lt_coe 1).trans_le natural)
    · rw [Number.exact_zero]
      exact zero_le_one.trans natural
  · intro _ short
    have below := ((Number.lt_iff_exact _ _).mp short).2.2
    rw [Number.exact_one] at below
    exact below.not_ge natural

theorem not_le_zero_of_exact {x : Float} (above : 0 < exact x) : ¬ x ≤ Scalar.zero := by
  rw [Number.le_iff_exact, Number.exact_zero]
  exact fun below => below.2.2.not_gt above

theorem gradient_index_of_covers (runs : RunsFrom timeline oldest newest)
    (covers : ((timeline.size - 1 : Nat) : EReal) ≤ exact length) (node : String) :
    timeline.gradient node length .index =
      .ok ((newest - oldest) / timeline.realized length) := by
  have several := runs.several
  have inWord := runs.inWord
  have positive : 0 < timeline.size - 1 := by
    omega
  have stepped : (1 : EReal) ≤ ((timeline.size - 1 : Nat) : EReal) := by
    exact_mod_cast positive
  have reach (steps : Nat) (below : steps < 2 ^ 64) (atLeast : 0 < steps) :
      steps ≤ Scalar.wholePart length ↔ (steps : EReal) ≤ exact length :=
    Number.le_toUInt64_iff atLeast below length
  obtain ⟨first, isFirst, isOldest⟩ := Option.bind_eq_some_iff.mp runs.isOldest
  obtain ⟨last, isLast, isNewest⟩ := Option.bind_eq_some_iff.mp runs.isNewest
  have begins := windowStart_index last isFirst
    ((reach (timeline.size - 1) (by omega) positive).mpr covers)
  have realizes : (if timeline.entries.length - 1 < Scalar.wholePart length then
      Scalar.ofNat (timeline.entries.length - 1) else length) = timeline.realized length := by
    have longer : timeline.entries.length - 1 < Scalar.wholePart length ↔
        (timeline.size : EReal) ≤ exact length := by
      rw [← reach timeline.size inWord (by omega), size]
      rw [size] at several
      omega
    exact if_congr longer rfl rfl
  rw [realizes] at begins
  have apart : ¬ timeline.realized length ≤ Scalar.zero := by
    refine not_le_zero_of_exact ?_
    rw [realized]
    split
    · exact Number.exact_ofNat_pos positive (by omega)
    · exact zero_lt_one.trans_le (stepped.trans covers)
  rw [gradient, trailingGradient_of_start (accepts_of_one_le (stepped.trans covers) .index)
    runs.several isLast begins isNewest isOldest, if_neg apart]
  rfl

/-- A window is clamped to the history: it gives the whole change of the history for its
`n - 1` steps, as the window of this length does. -/
structure ClampsIndexWindow (timeline : ValueTimeline) (node : String) (length change : Float) :
    Prop where
  whole : timeline.gradient node length .index = .ok (change / timeline.stepCount)
  alike : ∀ steps, exact steps = (timeline.size - 1 : Nat) →
    timeline.gradient node length .index = timeline.gradient node steps .index

/-- A window of at least the `n - 1` steps of a history gives the change between
its oldest and its newest entry, divided by `n - 1` from the length `n` on, and
by its own length below.  So it is clamped unless its length lies between
`n - 1` and `n` and this makes a difference. -/
theorem index_window_clamps_iff (runs : RunsFrom timeline oldest newest)
    (covers : ((timeline.size - 1 : Nat) : EReal) ≤ exact length) (node : String) :
    timeline.gradient node length .index =
        .ok ((newest - oldest) / if (timeline.size : EReal) ≤ exact length then timeline.stepCount
          else length) ∧
      (ClampsIndexWindow timeline node length (newest - oldest) ↔
        ¬ (((timeline.size - 1 : Nat) : EReal) < exact length ∧
          exact length < (timeline.size : EReal) ∧
          (newest - oldest) / length ≠ (newest - oldest) / timeline.stepCount)) := by
  have several := runs.several
  have found := gradient_index_of_covers runs covers node
  have atSteps (steps : Float) (isSteps : exact steps = (timeline.size - 1 : Nat)) :
      steps = timeline.stepCount ∧ timeline.gradient node steps .index =
        .ok ((newest - oldest) / timeline.stepCount) := by
    have isInteger := (Number.exact_eq_natCast_iff (by omega) steps).mp isSteps
    have same : steps = timeline.stepCount := isInteger.eq_ofNat (by omega)
    have short : ¬ (timeline.size : EReal) ≤ exact steps := by
      rw [isSteps, Nat.cast_le]
      omega
    refine ⟨same, ?_⟩
    rw [gradient_index_of_covers runs isSteps.ge, realized, if_neg short, same]
  refine ⟨found, ?_, ?_⟩
  · rintro clamps ⟨_, below, differs⟩
    have same := found.symm.trans clamps.whole
    rw [realized, if_neg below.not_ge, Except.ok.injEq] at same
    exact differs same
  · intro within
    have whole : timeline.gradient node length .index =
        .ok ((newest - oldest) / timeline.stepCount) := by
      by_cases beyond : (timeline.size : EReal) ≤ exact length
      · rw [found, realized, if_pos beyond]
      · rcases covers.eq_or_lt with isSteps | longer
        · exact (atSteps length isSteps.symm).2
        · have same : (newest - oldest) / length = (newest - oldest) / timeline.stepCount := by
            by_contra differs
            exact within ⟨longer, not_le.mp beyond, differs⟩
          rw [found, realized, if_neg beyond, same]
    exact ⟨whole, fun steps isSteps => whole.trans (atSteps steps isSteps).2.symm⟩

theorem runsFrom_threeReadings : RunsFrom threeReadings 10.0 30.0 :=
  ⟨by decide, by decide, rfl, rfl⟩

theorem threeReadings_over_endless_window :
    RunsFrom threeReadings 10.0 30.0 ∧
      ((threeReadings.size - 1 : Nat) : EReal) ≤ exact Number.infinity ∧
      threeReadings.gradient "g" Number.infinity .index = .ok 10.0 ∧
      ClampsIndexWindow threeReadings "g" Number.infinity (30.0 - 10.0) := by
  have covers : ((threeReadings.size - 1 : Nat) : EReal) ≤ exact Number.infinity :=
    (Number.natCast_le_exact_iff (by decide) _).mpr (by decide +kernel)
  have beyond : (threeReadings.size : EReal) ≤ exact Number.infinity :=
    (Number.natCast_le_exact_iff (by decide) _).mpr (by decide +kernel)
  have quotient : (30.0 - 10.0 : Float) / threeReadings.stepCount = 10.0 := by
    decide +kernel
  obtain ⟨found, clamps_iff⟩ := index_window_clamps_iff runsFrom_threeReadings covers "g"
  rw [if_pos beyond, quotient] at found
  exact ⟨runsFrom_threeReadings, covers, found,
    clamps_iff.mpr fun between => between.2.1.not_ge beyond⟩

/-- A window of two steps and a half covers the three entries, and is not clamped to the two
steps between them. -/
theorem threeReadings_divided_by_length :
    ((threeReadings.size - 1 : Nat) : EReal) ≤ exact 2.5 ∧
      threeReadings.gradient "g" 2.5 .index = .ok 8.0 ∧
      threeReadings.gradient "g" 2.0 .index = .ok 10.0 ∧
      ¬ ClampsIndexWindow threeReadings "g" 2.5 (30.0 - 10.0) := by
  have covers : ((threeReadings.size - 1 : Nat) : EReal) ≤ exact 2.5 :=
    (Number.natCast_le_exact_iff (by decide) _).mpr (by decide +kernel)
  have coversAlso : ((threeReadings.size - 1 : Nat) : EReal) ≤ exact 2.0 :=
    (Number.natCast_le_exact_iff (by decide) _).mpr (by decide +kernel)
  have short {length : Float} (below : ¬ Float.ofNat threeReadings.size ≤ length) :
      threeReadings.realized length = length := by
    have shorter := mt (Number.natCast_le_exact_iff (by decide) length).mp below
    rw [realized, if_neg shorter]
  have found := gradient_index_of_covers runsFrom_threeReadings covers "g"
  have foundAlso := gradient_index_of_covers runsFrom_threeReadings coversAlso "g"
  have quotient : (30.0 - 10.0 : Float) / 2.5 = 8.0 := by
    decide +kernel
  have quotientAlso : (30.0 - 10.0 : Float) / 2.0 = 10.0 := by
    decide +kernel
  rw [short (by decide +kernel), quotient] at found
  rw [short (by decide +kernel), quotientAlso] at foundAlso
  refine ⟨covers, found, foundAlso, fun clamps => ?_⟩
  have same := found.symm.trans clamps.whole
  rw [Except.ok.injEq] at same
  exact absurd same (by decide +kernel)

end InSitu.Timeline
