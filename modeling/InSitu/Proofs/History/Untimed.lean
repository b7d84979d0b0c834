import InSitu.Proofs.History.TimeWindow
import InSitu.Proofs.History.Window

/-!
# Entries without a time

A window between two times does not pass over the entries without a time.  It
takes the times of all entries, wherever it lies, and fails at the first entry
that has none.
-/

namespace InSitu

namespace Timeline

variable {α ν : Type} {timeline : Timeline α ν}

/-- Every entry has a time. -/
def AllTimed (entries : List (Entry α ν)) : Prop :=
  ∀ entry ∈ entries, entry.time.isSome = true

/-- The entries that have a time. -/
def timed (timeline : Timeline α ν) : Timeline α ν :=
  ⟨timeline.entries.filter fun entry => entry.time.isSome⟩

theorem allTimed_timed (timeline : Timeline α ν) : AllTimed timeline.timed.entries :=
  fun _ member => (List.mem_filter.mp member).2

theorem timed_eq_self (allTimed : AllTimed timeline.entries) : timeline.timed = timeline := by
  rw [timed, List.filter_eq_self.mpr allTimed]

end Timeline

namespace RangeSelector

open Timeline (AllTimed)

/-- An entry without a time, and before it only entries that have one. -/
structure FirstUntimed (entries : List ValueEntry) (position : Nat) (entry : ValueEntry) :
    Prop where
  untimed : entry.time = none
  isFirst : ∃ before after, entries = before ++ entry :: after ∧ before.length = position ∧
    AllTimed before

section Times

variable {entries : List ValueEntry}

theorem exists_firstUntimed (notAll : ¬ AllTimed entries) :
    ∃ position entry, FirstUntimed entries position entry := by
  cases found : entries.find? fun entry => entry.time.isNone with
  | none =>
      refine absurd (fun entry member => ?_) notAll
      simpa [Option.isSome_iff_ne_none] using List.find?_eq_none.mp found entry member
  | some entry =>
      obtain ⟨untimed, before, after, split, allTimed⟩ := List.find?_eq_some_iff_append.mp found
      refine ⟨before.length, entry, Option.isNone_iff_eq_none.mp untimed,
        before, after, split, rfl, fun earlier member => ?_⟩
      simpa using allTimed earlier member

/-- The times of entries fail at the first entry without one. -/
theorem times_of_firstUntimed {position : Nat} {entry : ValueEntry}
    (firstUntimed : FirstUntimed entries position entry) (node : String) :
    times node entries = .error (.badArgument node (.untimedEntry position entry.cycle)) := by
  obtain ⟨before, after, rfl, rfl, allTimed⟩ := firstUntimed.isFirst
  rw [times, List.zipIdx_append, List.zipIdx_cons, Nat.zero_add]
  refine mapM_eq_error_of_split (fun item member => ?_) ?_
  · obtain ⟨time, isTime⟩ :=
      Option.isSome_iff_exists.mp (allTimed item.1 (List.fst_mem_of_mem_zipIdx member))
    simp [isTime]
  · simp [firstUntimed.untimed]

end Times

variable {timeline : ValueTimeline} {node : String} {first last : Float}

/-- A window in time passes over the entries without a time: it never fails for one, and finds
entries that all have times where the others are taken away. -/
structure SkipsUntimed (timeline : ValueTimeline) (node : String) (first last : Float) :
    Prop where
  answers : ∀ position cycle, (absoluteTime first last).resolve node timeline ≠
    .error (.badArgument node (.untimedEntry position cycle))
  alike : ∀ found, (absoluteTime first last).entriesOf node timeline = .ok found →
    (∀ entries, found = some entries → AllTimed entries) →
      (absoluteTime first last).entriesOf node timeline.timed = .ok found

/-- A window in time passes over the entries without a time only where there are none.  Where
there is one, it fails for the first of them, and without them it would not. -/
theorem time_window_skips_untimed_iff (checked : (absoluteTime first last).check node = .ok ()) :
    (SkipsUntimed timeline node first last ↔ AllTimed timeline.entries) ∧
      (∀ position entry, FirstUntimed timeline.entries position entry →
        (absoluteTime first last).resolve node timeline =
          .error (.badArgument node (.untimedEntry position entry.cycle))) ∧
      ∃ resolved, (absoluteTime first last).resolve node timeline.timed = .ok resolved := by
  have resolves (entries : ValueTimeline) (allTimed : AllTimed entries.entries) :
      ∃ resolved, (absoluteTime first last).resolve node entries = .ok resolved := by
    obtain ⟨times, recorded⟩ := exists_map_eq_map_some allTimed
    rw [resolve_absoluteTime_of_checked checked, times_of_recorded recorded]
    exact ⟨_, rfl⟩
  have fails (position : Nat) (entry : ValueEntry)
      (firstUntimed : FirstUntimed timeline.entries position entry) :
      (absoluteTime first last).resolve node timeline =
        .error (.badArgument node (.untimedEntry position entry.cycle)) := by
    rw [resolve_absoluteTime_of_checked checked, times_of_firstUntimed firstUntimed]
    rfl
  refine ⟨⟨fun skips => ?_, fun allTimed => ?_⟩, fails, resolves _ timeline.allTimed_timed⟩
  · by_contra notAll
    obtain ⟨position, entry, firstUntimed⟩ := exists_firstUntimed notAll
    exact skips.answers position entry.cycle (fails position entry firstUntimed)
  · obtain ⟨resolved, isResolved⟩ := resolves timeline allTimed
    refine ⟨fun _ _ failed => ?_, fun found isFound _ => ?_⟩
    · cases isResolved.symm.trans failed
    · rw [Timeline.timed_eq_self allTimed]
      exact isFound

theorem clockedReadings_have_times :
    (absoluteTime 1.5 3.0).check "w" = .ok () ∧ SkipsUntimed clockedReadings "w" 1.5 3.0 := by
  have checked : (absoluteTime 1.5 3.0).check "w" = .ok () :=
    check_absoluteTime (by decide +kernel) (by decide +kernel) "w"
  have allTimed : AllTimed clockedReadings.entries := by
    simp [AllTimed, clockedReadings]
  exact ⟨checked, (time_window_skips_untimed_iff checked).1.mpr allTimed⟩

/-- The clock of a run starts after its first cycle. -/
def lateClock : ValueTimeline := ⟨[⟨0, none, .double 1.0⟩, ⟨1, some 1.0, .double 2.0⟩]⟩

/-- The window begins and ends at entries with times, and fails for the entry before. -/
theorem lateClock_not_skipped :
    (absoluteTime 0.0 2.0).check "w" = .ok () ∧
      (absoluteTime 0.0 2.0).resolve "w" lateClock =
        .error (.badArgument "w" (.untimedEntry 0 0)) ∧
      (absoluteTime 0.0 2.0).entriesOf "w" lateClock.timed =
        .ok (some [⟨1, some 1.0, .double 2.0⟩]) ∧
      ¬ SkipsUntimed lateClock "w" 0.0 2.0 := by
  have checked : (absoluteTime 0.0 2.0).check "w" = .ok () :=
    check_absoluteTime (by decide +kernel) (by decide +kernel) "w"
  have firstUntimed : FirstUntimed lateClock.entries 0 ⟨0, none, .double 1.0⟩ :=
    ⟨rfl, [], _, rfl, rfl, nofun⟩
  have fails : (absoluteTime 0.0 2.0).resolve "w" lateClock =
      .error (.badArgument "w" (.untimedEntry 0 0)) := by
    rw [resolve_absoluteTime_of_checked checked, times_of_firstUntimed firstUntimed]
    rfl
  refine ⟨checked, fails, ?_, fun skips => skips.answers 0 0 fails⟩
  have clocked : Clocked lateClock.timed [1.0] := ⟨rfl, by decide +kernel, by simp⟩
  have span : timeSpan? [1.0] 0.0 2.0 = some ⟨0, 0⟩ := by
    have begun : (0.0 : Float) ≤ 1.0 := by
      decide +kernel
    have notEnded : (1.0 : Float) ≤ 2.0 := by
      decide +kernel
    simp [timeSpan?, lastIdx?, begun, notEnded]
  rw [entriesOf, resolve_absoluteTime_eq clocked (by decide +kernel) (by decide +kernel), span]
  rfl

end RangeSelector

end InSitu
