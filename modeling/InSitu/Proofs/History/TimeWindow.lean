import InSitu.Proofs.History.Scanning
import InSitu.Proofs.Sequence
import InSitu.Proofs.Yielding

/-!
# Windows in time

Times that never fall put the entries of a window side by side, and a window
between two entries stands for the next one.  A window that starts after the
last entry misses the history.  One that ends before the first entry misses it
as well, but is resolved to this entry.
-/

namespace InSitu.RangeSelector

/-- The entries of a timeline have times, which are numbers and never fall. -/
structure Clocked (timeline : ValueTimeline) (times : List Float) : Prop where
  recorded : timeline.entries.map Entry.time = times.map some
  areNumbers : ∀ time ∈ times, time.isNaN = false
  rising : times.Pairwise (· ≤ ·)

theorem times_of_recorded {entries : List ValueEntry} {times : List Float}
    (recorded : entries.map Entry.time = times.map some) (node : String) :
    RangeSelector.times node entries = .ok times := by
  have readings : entries.zipIdx.map (fun item => item.1.time.getD 0.0) = times := by
    calc
      entries.zipIdx.map (fun item => item.1.time.getD 0.0) =
          (entries.zipIdx.map Prod.fst).map fun entry => entry.time.getD 0.0 := by
        rw [List.map_map]
        rfl
      _ = (entries.map Entry.time).map fun time => time.getD 0.0 := by
        rw [List.zipIdx_map_fst, List.map_map]
        rfl
      _ = times := by
        rw [recorded, List.map_map]
        exact List.map_id times
  rw [RangeSelector.times, ← readings]
  refine mapM_eq_pure_map fun item member => ?_
  have timed : item.1.time ∈ times.map some := by
    rw [← recorded]
    exact List.mem_map_of_mem (List.fst_mem_of_mem_zipIdx member)
  obtain ⟨time, _, isTime⟩ := List.mem_map.mp timed
  simp only [← isTime]
  rfl

theorem yields_times (node : String) (entries : List ValueEntry) :
    Yields (fun times => times.length = entries.length) (times node entries) := by
  intro times areTimes
  have readings : entries.zipIdx.map (fun item => item.1.time) = times.map some := by
    refine yields_mapM_map _ (fun item => ?_) times areTimes
    dsimp only
    split <;> simp [*]
  simpa using (congrArg List.length readings).symm

theorem greatest_zero {x : Float} (natural : 0 ≤ x) : Number.greatest x 0.0 = x := by
  have zero : (0.0 : Float) = 0 := rfl
  obtain ⟨zeroIsNumber, xIsNumber⟩ := Number.isNaN_eq_false_of_le natural
  have notBelow : ¬ x < 0 := (Number.not_lt_iff_le xIsNumber zeroIsNumber).mpr natural
  rw [Number.greatest, zero, xIsNumber, zeroIsNumber, if_neg notBelow]
  rfl

variable {times : List Float} {first last : Float}

theorem timeSpan?_within {span : Span} (found : timeSpan? times first last = some span) :
    span.last < times.length := by
  obtain ⟨start, isStart, rfl⟩ := Option.map_eq_some_iff.mp found
  obtain ⟨inside, _, _⟩ := List.findIdx?_eq_some_iff_getElem.mp isStart
  refine Nat.max_lt.mpr ⟨?_, inside⟩
  cases isStop : lastIdx? (fun time => decide (time ≤ last)) times with
  | none =>
      exact inside
  | some stop =>
      exact lt_length_of_lastIdx? isStop

/-- What a window in time stands for: the entries in it; between two entries,
the next one; and nothing if it misses the history on either side. -/
structure FollowsTimes (times : List Float) (first last : Float) (resolved : Option Span) :
    Prop where
  inside : (∃ time ∈ times, first ≤ time ∧ time ≤ last) →
    Addresses resolved times.length (HoldsAt times fun time => first ≤ time ∧ time ≤ last)
  between : ∀ position before after, times[position]? = some before →
    times[position + 1]? = some after → before < first → last < after →
      resolved = some ⟨position + 1, position + 1⟩
  afterAll : (∀ time ∈ times, time < first) → resolved = none
  beforeAll : (∀ time ∈ times, last < time) → resolved = none

/-- There are entries, and the window ends before all of them. -/
def EndsBefore (times : List Float) (last : Float) : Prop :=
  times ≠ [] ∧ ∀ time ∈ times, last < time

theorem followsTimes_none (ordered : first ≤ last) (passed : ∀ time ∈ times, ¬ first ≤ time) :
    FollowsTimes times first last none where
  inside := by
    rintro ⟨time, member, begun, _⟩
    exact absurd begun (passed time member)
  between _ _ after _ isAfter _ ended := by
    have begun := Number.le_trans ordered (Number.le_of_lt ended)
    exact absurd begun (passed after (List.mem_of_getElem? isAfter))
  afterAll _ := rfl
  beforeAll _ := rfl

theorem followsTimes_some (ordered : first ≤ last) (rising : times.Pairwise (· ≤ ·))
    {start stop : Nat} (isStart : times.findIdx? (fun time => first ≤ time) = some start)
    (isStop : lastIdx? (fun time => time ≤ last) times = some stop) :
    FollowsTimes times first last (some ⟨start, Nat.max stop start⟩) := by
  have upward : times.Pairwise fun earlier later => first ≤ earlier → first ≤ later :=
    rising.imp fun order begun => Number.le_trans begun order
  have downward : times.Pairwise fun earlier later =>
      decide (later ≤ last) = true → decide (earlier ≤ last) = true :=
    rising.imp fun order ended => decide_eq_true (Number.le_trans order (of_decide_eq_true ended))
  obtain ⟨startInside, begun, begun_iff⟩ := reached_iff_of_findIdx?
    (fun time => first ≤ time) isStart upward (fun _ _ => of_decide_eq_true)
    (List.pairwise_of_forall fun _ _ _ => decide_eq_true)
  have stopInside := lt_length_of_lastIdx? isStop
  have ended_iff := test_iff_of_lastIdx? isStop downward
  simp only [decide_eq_true_eq] at begun ended_iff
  constructor
  · rintro ⟨time, member, timeBegun, timeEnded⟩
    obtain ⟨place, known, rfl⟩ := List.getElem_of_mem member
    have fromStart := (begun_iff place known).mp timeBegun
    have toStop := (ended_iff place known).mp timeEnded
    have ends : Nat.max stop start = stop := Nat.max_eq_left (fromStart.trans toStop)
    rw [ends]
    refine addresses_some (fromStart.trans toStop) stopInside fun position inside => ?_
    rw [holdsAt_iff inside, begun_iff position inside, ended_iff position inside]
  · intro position before after isBefore isAfter notBegun isEnded
    obtain ⟨beforeInside, rfl⟩ := List.getElem?_eq_some_iff.mp isBefore
    obtain ⟨afterInside, rfl⟩ := List.getElem?_eq_some_iff.mp isAfter
    have startAfter := mt (begun_iff position beforeInside).mpr (Number.not_le_of_lt notBegun)
    have startHere := (begun_iff (position + 1) afterInside).mp
      (Number.le_trans ordered (Number.le_of_lt isEnded))
    have stopAfter := (ended_iff position beforeInside).mp
      (Number.le_trans (Number.le_of_lt notBegun) ordered)
    have stopBefore := mt (ended_iff (position + 1) afterInside).mpr (Number.not_le_of_lt isEnded)
    have startIs : start = position + 1 := by
      omega
    have stopIs : stop = position := by
      omega
    rw [startIs, stopIs]
    exact congrArg (fun last => some (Span.mk _ last)) (Nat.max_eq_right (Nat.le_succ position))
  · intro passed
    exact absurd begun (Number.not_le_of_lt (passed _ (List.getElem_mem startInside)))
  · intro early
    have isEnded := (ended_iff stop stopInside).mpr le_rfl
    exact absurd isEnded (Number.not_le_of_lt (early _ (List.getElem_mem stopInside)))

/-- A window that ends before all entries resolves to the first of them. -/
theorem timeSpan?_of_endsBefore (ordered : first ≤ last) (early : EndsBefore times last) :
    timeSpan? times first last = some ⟨0, 0⟩ := by
  obtain ⟨nonempty, ended⟩ := early
  obtain ⟨oldest, rest, rfl⟩ := List.exists_cons_of_ne_nil nonempty
  have begun : first ≤ oldest :=
    Number.le_trans ordered (Number.le_of_lt (ended oldest List.mem_cons_self))
  have noStop : lastIdx? (fun time => decide (time ≤ last)) (oldest :: rest) = none :=
    lastIdx?_eq_none_iff.mpr fun time member =>
      decide_eq_false (Number.not_le_of_lt (ended time member))
  rw [timeSpan?, noStop, List.findIdx?_cons, if_pos (decide_eq_true begun)]
  rfl

theorem timeSpan?_follows_iff (ordered : first ≤ last)
    (areNumbers : ∀ time ∈ times, time.isNaN = false) (rising : times.Pairwise (· ≤ ·)) :
    FollowsTimes times first last (timeSpan? times first last) ↔ ¬ EndsBefore times last := by
  constructor
  · intro follows early
    have missed := follows.beforeAll early.2
    rw [timeSpan?_of_endsBefore ordered early] at missed
    cases missed
  · intro notEarly
    rw [timeSpan?]
    cases isStart : times.findIdx? fun time => first ≤ time with
    | none =>
        refine followsTimes_none ordered fun time member => ?_
        exact of_decide_eq_false (List.findIdx?_eq_none_iff.mp isStart time member)
    | some start =>
        cases isStop : lastIdx? (fun time => time ≤ last) times with
        | some stop =>
            exact followsTimes_some ordered rising isStart isStop
        | none =>
            refine absurd ⟨?_, fun time member => ?_⟩ notEarly
            · rintro rfl
              cases isStart
            · have above := of_decide_eq_false (lastIdx?_eq_none_iff.mp isStop time member)
              have lastIsNumber := (Number.isNaN_eq_false_of_le ordered).2
              rwa [← Number.not_lt_iff_le lastIsNumber (areNumbers time member),
                not_not] at above

/-! ## Windows of a timeline -/

variable {timeline : ValueTimeline}

theorem resolve_absoluteTime_of_checked {node : String}
    (checked : (absoluteTime first last).check node = .ok ()) :
    (absoluteTime first last).resolve node timeline =
      (RangeSelector.times node timeline.entries).map fun times =>
        timeSpan? times (absoluteTime first last).ends.1 (absoluteTime first last).ends.2 := by
  rw [resolve, checked]
  by_cases recorded : timeline.entries.isEmpty
  · rw [List.isEmpty_iff.mp recorded]
    rfl
  · rw [Bool.not_eq_true] at recorded
    simp only [recorded, bind, Except.bind]
    rfl

theorem ends_absoluteTime (natural : 0 ≤ first) (ordered : first ≤ last) :
    (absoluteTime first last).ends = (first, last) := by
  rw [RangeSelector.ends, greatest_zero natural, greatest_zero (Number.le_trans natural ordered)]

theorem check_absoluteTime (natural : 0 ≤ first) (ordered : first ≤ last) (node : String) :
    (absoluteTime first last).check node = .ok () := by
  rw [check, ends_absoluteTime natural ordered]
  dsimp only
  rw [if_neg (by simp [family]), if_neg (not_not_intro ordered)]

theorem resolve_absoluteTime_eq (clocked : Clocked timeline times) (natural : 0 ≤ first)
    (ordered : first ≤ last) (node : String) :
    (absoluteTime first last).resolve node timeline = .ok (timeSpan? times first last) := by
  rw [resolve_absoluteTime_of_checked (check_absoluteTime natural ordered node),
    times_of_recorded clocked.recorded, ends_absoluteTime natural ordered]
  rfl

/-- A window in time stands for what it should, unless it ends before the first
entry; then it resolves to this entry. -/
theorem resolve_absoluteTime (clocked : Clocked timeline times) (natural : 0 ≤ first)
    (ordered : first ≤ last) (node : String) :
    ∃ resolved, (absoluteTime first last).resolve node timeline = .ok resolved ∧
      (FollowsTimes times first last resolved ↔ ¬ EndsBefore times last) ∧
      (EndsBefore times last → resolved = some ⟨0, 0⟩) :=
  ⟨timeSpan? times first last, resolve_absoluteTime_eq clocked natural ordered node,
    timeSpan?_follows_iff ordered clocked.areNumbers clocked.rising,
    timeSpan?_of_endsBefore ordered⟩

/-- Two entries at one time, and a gap on either side of them. -/
def clockedReadings : ValueTimeline :=
  ⟨[⟨1, some 1.0, .double 10.0⟩, ⟨2, some 2.0, .double 20.0⟩, ⟨3, some 2.0, .double 30.0⟩,
    ⟨4, some 4.0, .double 40.0⟩]⟩

theorem clockedReadings_clocked : Clocked clockedReadings [1.0, 2.0, 2.0, 4.0] where
  recorded := rfl
  areNumbers := by
    decide +kernel
  rising := by
    decide +kernel

theorem clockedReadings_found_in_window :
    Clocked clockedReadings [1.0, 2.0, 2.0, 4.0] ∧ (0 : Float) ≤ 1.5 ∧ (1.5 : Float) ≤ 3.0 ∧
      ∃ resolved, (absoluteTime 1.5 3.0).resolve "w" clockedReadings = .ok resolved ∧
        FollowsTimes [1.0, 2.0, 2.0, 4.0] 1.5 3.0 resolved := by
  have natural : (0 : Float) ≤ 1.5 := by
    decide +kernel
  have ordered : (1.5 : Float) ≤ 3.0 := by
    decide +kernel
  obtain ⟨resolved, resolves, follows_iff, _⟩ :=
    resolve_absoluteTime clockedReadings_clocked natural ordered "w"
  have notEarly : ¬ EndsBefore [1.0, 2.0, 2.0, 4.0] 3.0 := fun early =>
    Number.not_le_of_lt (early.2 1.0 List.mem_cons_self) (by decide +kernel)
  exact ⟨clockedReadings_clocked, natural, ordered, resolved, resolves,
    follows_iff.mpr notEarly⟩

/-- The window ends before the first entry, which it finds nevertheless. -/
theorem clockedReadings_found_before :
    Clocked clockedReadings [1.0, 2.0, 2.0, 4.0] ∧ (0 : Float) ≤ 0.0 ∧ (0.0 : Float) ≤ 0.5 ∧
      (∀ time ∈ [1.0, 2.0, 2.0, 4.0], (0.5 : Float) < time) ∧
      (absoluteTime 0.0 0.5).resolve "w" clockedReadings = .ok (some ⟨0, 0⟩) ∧
      ¬ ∃ resolved, (absoluteTime 0.0 0.5).resolve "w" clockedReadings = .ok resolved ∧
        FollowsTimes [1.0, 2.0, 2.0, 4.0] 0.0 0.5 resolved := by
  have natural : (0 : Float) ≤ 0.0 := by
    decide +kernel
  have ordered : (0.0 : Float) ≤ 0.5 := by
    decide +kernel
  have before : ∀ time ∈ [1.0, 2.0, 2.0, 4.0], (0.5 : Float) < time := by
    decide +kernel
  have resolves : (absoluteTime 0.0 0.5).resolve "w" clockedReadings = .ok (some ⟨0, 0⟩) := by
    rw [resolve_absoluteTime_eq clockedReadings_clocked natural ordered,
      timeSpan?_of_endsBefore ordered ⟨List.cons_ne_nil _ _, before⟩]
  refine ⟨clockedReadings_clocked, natural, ordered, before, resolves, ?_⟩
  rintro ⟨resolved, resolvesAlso, follows⟩
  rw [resolves, follows.beforeAll before] at resolvesAlso
  cases resolvesAlso

end InSitu.RangeSelector
