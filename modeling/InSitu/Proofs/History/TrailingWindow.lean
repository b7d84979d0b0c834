import Mathlib
import InSitu.History.Gradient
import InSitu.Proofs.History.Timeline
import InSitu.Proofs.Number.Extended
import InSitu.Proofs.Sequence

/-!
# Windows before the newest entry

A gradient divides the difference between the newest entry and the first one of
a window by their distance.  In time and in cycles this is the distance that the
two entries have, whatever the length of the window was; it is positive unless
the window holds the newest entry alone.
-/

namespace InSitu.Timeline

section Gradients

variable {α ν : Type} [Scalar α] {scalar? : ν → Option α} {timeline : Timeline α ν} {length : α}
  {unit : DeltaUnit} {fault : GradientFault ν}

/-- A window is not negative, and counted in entries or in cycles it is one at least. -/
def Accepts (length : α) (unit : DeltaUnit) : Prop :=
  Scalar.zero ≤ length ∧ (unit ≠ .time → ¬ length < Scalar.one)

/-- The gradient over a window is that between its first entry and the newest one. -/
theorem trailingGradient_of_start {newest start : Entry α ν} {distance after before : α}
    (accepts : Accepts length unit) (several : 2 ≤ timeline.size)
    (isNewest : timeline.latest? = some newest)
    (begins : windowStart timeline.entries newest length unit = .ok (start, distance))
    (isAfter : scalar? newest.value = some after)
    (isBefore : scalar? start.value = some before) :
    timeline.trailingGradient scalar? length unit =
      .ok (if distance ≤ Scalar.zero then none else some ((after - before) / distance)) := by
  obtain ⟨entries⟩ := timeline
  match entries, several with
  | first :: second :: rest, _ =>
      rw [latest?, List.getLast?_cons_cons, List.getLast?_cons, Option.some.injEq] at isNewest
      have last : rest.getLastD second = newest := by
        rw [List.getLastD_eq_getLast?, isNewest]
      have begins : windowStart (first :: second :: rest) newest length unit =
        .ok (start, distance) := begins
      rw [trailingGradient, if_neg (not_not_intro accepts.1), if_neg (not_and.mpr accepts.2)]
      simp only [last, begins, bind, Except.bind, numberOf, isAfter, isBefore]
      split <;> rfl

/-- The time of an entry is known, and a window that ends now reaches back to it. -/
def reachedInTime (now length : α) (entry : Entry α ν) : Bool :=
  match entry.time with
  | some time => now - length ≤ time
  | none => false

/-- A window that ends at a cycle reaches back to the cycle of an entry. -/
def reachedInCycles (now : Cycle) (length : α) (entry : Entry α ν) : Bool :=
  (cycleNumber now : α) - length ≤ cycleNumber entry.cycle

theorem windowStart_time {entries : List (Entry α ν)} {newest start : Entry α ν} {now time : α}
    (isNow : newest.time = some now)
    (found : (entries.find? (reachedInTime now length)).getD newest = start)
    (isTime : start.time = some time) :
    windowStart entries newest length .time = .ok (start, now - time) := by
  rw [windowStart, isNow]
  change Except.ok ((entries.find? (reachedInTime now length)).getD newest,
    match ((entries.find? (reachedInTime now length)).getD newest).time with
    | some time => now - time
    | none => Scalar.zero) = _
  rw [found, isTime]

theorem windowStart_cycle {entries : List (Entry α ν)} {newest start : Entry α ν}
    (found : (entries.find? (reachedInCycles newest.cycle length)).getD newest = start) :
    windowStart entries newest length .cycle =
      .ok (start, cycleNumber (newest.cycle - start.cycle)) := by
  rw [← found]
  rfl

theorem mem_of_windowStart {entries : List (Entry α ν)} {newest start : Entry α ν} {distance : α}
    (member : newest ∈ entries)
    (begins : windowStart entries newest length unit = .ok (start, distance)) :
    start ∈ entries := by
  have known {found : Option (Entry α ν)} (inside : ∀ entry, found = some entry → entry ∈ entries) :
      found.getD newest ∈ entries := by
    cases found with
    | none =>
        exact member
    | some entry =>
        exact inside entry rfl
  cases unit with
  | index =>
      rw [windowStart] at begins
      split at begins <;> cases begins
      · rw [List.headD_eq_head?_getD]
        exact known fun entry => List.mem_of_head?
      · rw [List.getD_eq_getElem?_getD]
        exact known fun entry => List.mem_of_getElem?
  | time =>
      rw [windowStart] at begins
      split at begins <;> cases begins
      exact known fun entry => List.mem_of_find?_eq_some
  | cycle =>
      cases begins
      exact known fun entry => List.mem_of_find?_eq_some

/-- The difference of cycles that a gradient takes is never below zero, in no arithmetic. -/
theorem cycle_le_of_windowStart {entries : List (Entry α ν)} {newest start : Entry α ν}
    {distance : α} (ascending : Ascending entries) (isNewest : entries.getLast? = some newest)
    (begins : windowStart entries newest length unit = .ok (start, distance)) :
    start.cycle ≤ newest.cycle :=
  ascending.le_latest isNewest start
    (mem_of_windowStart (List.mem_of_getLast? isNewest) begins)

end Gradients

/-! ## Exact gradients -/

section Exact

variable {ν : Type} {timeline : Timeline EReal ν} {length : EReal} {unit : DeltaUnit}

/-- The gradient over a window, negative infinity if there is none. -/
noncomputable def exactGradient (scalar? : ν → Option EReal) (timeline : Timeline EReal ν)
    (length : EReal) (unit : DeltaUnit) : Except (GradientFault ν) EReal :=
  (timeline.trailingGradient scalar? length unit).map fun found => found.getD ⊥

/-- Where an entry lies: its time or its cycle. -/
noncomputable def place (unit : DeltaUnit) (entry : Entry EReal ν) : ℝ :=
  match unit with
  | .index => 0
  | .time => (entry.time.getD 0).toReal
  | .cycle => entry.cycle.toNat

/-- How far an entry lies before the newest one. -/
noncomputable def distance (unit : DeltaUnit) (newest entry : Entry EReal ν) : ℝ :=
  place unit newest - place unit entry

/-- The places of entries rise strictly; in time, they all have one. -/
structure Placed (unit : DeltaUnit) (entries : List (Entry EReal ν)) : Prop where
  timed : unit = .time → ∀ entry ∈ entries, ∃ time : ℝ, entry.time = some ↑time
  rising : entries.Pairwise fun earlier later => place unit earlier < place unit later

theorem Placed.ascending {entries : List (Entry EReal ν)} (placed : Placed .cycle entries) :
    Ascending entries :=
  placed.rising.imp fun below => UInt64.lt_iff_toNat_lt.mpr (Nat.cast_lt.mp below)

theorem cycleNumber_sub {newest start : Entry EReal ν} (below : start.cycle ≤ newest.cycle) :
    cycleNumber (newest.cycle - start.cycle) = (↑(distance .cycle newest start) : EReal) := by
  have natural : start.cycle.toNat ≤ newest.cycle.toNat := UInt64.le_iff_toNat_le.mp below
  rw [cycleNumber, UInt64.toNat_sub_of_le _ _ below, distance, place, place, ← Nat.cast_sub natural]
  rfl

/-- The first entry of a window: the earliest one that lies at most its length before the newest
entry. -/
structure BeginsWindow (unit : DeltaUnit) (length : EReal) (entries : List (Entry EReal ν))
    (newest start : Entry EReal ν) : Prop where
  within : ↑(distance unit newest start) ≤ length
  earliest : ∃ before after, entries = before ++ start :: after ∧
    ∀ entry ∈ before, length < ↑(distance unit newest entry)

/-- A window has one first entry. -/
theorem BeginsWindow.unique {entries : List (Entry EReal ν)} {newest start other : Entry EReal ν}
    (window : BeginsWindow unit length entries newest start)
    (otherWindow : BeginsWindow unit length entries newest other) : start = other := by
  obtain ⟨before, after, split, beyond⟩ := window.earliest
  obtain ⟨otherBefore, otherAfter, otherSplit, otherBeyond⟩ := otherWindow.earliest
  rw [split, List.append_eq_append_iff] at otherSplit
  rcases otherSplit with ⟨between, isBefore, isAfter⟩ | ⟨between, isBefore, isAfter⟩
  · cases between with
    | nil =>
        exact (List.cons.inj isAfter).1
    | cons first between =>
        have earlier : start ∈ otherBefore := by
          rw [isBefore, (List.cons.inj isAfter).1]
          simp
        exact absurd window.within (otherBeyond start earlier).not_ge
  · cases between with
    | nil =>
        exact (List.cons.inj isAfter).1.symm
    | cons first between =>
        have earlier : other ∈ before := by
          rw [isBefore, (List.cons.inj isAfter).1]
          simp
        exact absurd otherWindow.within (beyond other earlier).not_ge

theorem sub_le_coe_iff (now place : ℝ) (length : EReal) :
    (now : EReal) - length ≤ place ↔ ((now - place : ℝ) : EReal) ≤ length := by
  cases length with
  | bot =>
      rw [EReal.coe_sub_bot]
      exact iff_of_false (EReal.coe_lt_top place).not_ge (EReal.bot_lt_coe _).not_ge
  | top =>
      rw [EReal.sub_top]
      exact iff_of_true bot_le le_top
  | coe length =>
      rw [← EReal.coe_sub, EReal.coe_le_coe_iff, EReal.coe_le_coe_iff]
      constructor <;> intro below <;> linarith

theorem exists_beginsWindow {entries : List (Entry EReal ν)} {newest : Entry EReal ν}
    {begins : Entry EReal ν → Bool} (natural : 0 ≤ length) (member : newest ∈ entries)
    (agrees : ∀ entry ∈ entries, begins entry = true ↔ ↑(distance unit newest entry) ≤ length) :
    ∃ start, entries.find? begins = some start ∧
      BeginsWindow unit length entries newest start := by
  have ends : begins newest = true := by
    rw [agrees newest member, distance, sub_self]
    exact natural
  obtain ⟨start, found⟩ :=
    Option.isSome_iff_exists.mp (List.find?_isSome.mpr ⟨newest, member, ends⟩)
  obtain ⟨passes, before, after, split, fails⟩ := List.find?_eq_some_iff_append.mp found
  refine ⟨start, found, (agrees start (List.mem_of_find?_eq_some found)).mp passes,
    before, after, split, fun entry earlier => ?_⟩
  have known : entry ∈ entries := by
    rw [split]
    exact List.mem_append_left _ earlier
  rw [← not_le, ← agrees entry known]
  simpa using fails entry earlier

/-- A window in time or in cycles begins where it should. -/
theorem windowStart_of_placed {newest : Entry EReal ν} (placed : Placed unit timeline.entries)
    (notIndex : unit ≠ .index) (natural : 0 ≤ length) (isNewest : timeline.latest? = some newest) :
    ∃ start, windowStart timeline.entries newest length unit =
        .ok (start, ↑(distance unit newest start)) ∧
      BeginsWindow unit length timeline.entries newest start := by
  have member : newest ∈ timeline.entries := List.mem_of_getLast? isNewest
  cases unit with
  | index =>
      exact absurd rfl notIndex
  | time =>
      obtain ⟨now, isNow⟩ := placed.timed rfl newest member
      have agrees : ∀ entry ∈ timeline.entries, reachedInTime ↑now length entry = true ↔
          ↑(distance .time newest entry) ≤ length := by
        intro entry known
        obtain ⟨time, isTime⟩ := placed.timed rfl entry known
        simp only [reachedInTime, distance, place, isNow, isTime, Option.getD_some,
          EReal.toReal_coe, decide_eq_true_eq, sub_le_coe_iff]
      obtain ⟨start, found, beginsWindow⟩ := exists_beginsWindow natural member agrees
      obtain ⟨time, isTime⟩ := placed.timed rfl start (List.mem_of_find?_eq_some found)
      have isStart : (timeline.entries.find? (reachedInTime ↑now length)).getD newest = start := by
        rw [found, Option.getD_some]
      refine ⟨start, ?_, beginsWindow⟩
      rw [windowStart_time isNow isStart isTime, distance, place, place, isNow, isTime]
      rfl
  | cycle =>
      have agrees : ∀ entry ∈ timeline.entries, reachedInCycles newest.cycle length entry = true ↔
          ↑(distance .cycle newest entry) ≤ length := by
        intro entry known
        exact decide_eq_true_iff.trans (sub_le_coe_iff _ _ _)
      obtain ⟨start, found, beginsWindow⟩ := exists_beginsWindow natural member agrees
      have isStart : (timeline.entries.find? (reachedInCycles newest.cycle length)).getD newest =
          start := by
        rw [found, Option.getD_some]
      refine ⟨start, ?_, beginsWindow⟩
      have below : start.cycle ≤ newest.cycle :=
        placed.ascending.le_latest isNewest start (List.mem_of_find?_eq_some found)
      rw [windowStart_cycle isStart, cycleNumber_sub below]

theorem Placed.eq_or_distance_pos {entries : List (Entry EReal ν)} {newest entry : Entry EReal ν}
    (placed : Placed unit entries) (isNewest : entries.getLast? = some newest)
    (member : entry ∈ entries) : entry = newest ∨ 0 < distance unit newest entry := by
  obtain ⟨front, rfl⟩ := List.getLast?_eq_some_iff.mp isNewest
  rcases List.mem_append.mp member with earlier | same
  · have below := (List.pairwise_append.mp placed.rising).2.2 entry earlier newest
      (List.mem_singleton_self newest)
    exact .inr (sub_pos.mpr below)
  · exact .inl (List.mem_singleton.mp same)

/-- In exact arithmetic, the gradient over a window in time or in cycles is that
between the newest entry and the earliest one in the window, for the distance
between these two.  It is negative infinity if they are one entry. -/
theorem exactGradient_over_window {scalar? : ν → Option EReal} {number : ν → ℝ}
    (several : 2 ≤ timeline.size) (placed : Placed unit timeline.entries)
    (notIndex : unit ≠ .index)
    (numeric : ∀ entry ∈ timeline.entries, scalar? entry.value = some ↑(number entry.value))
    (accepts : Accepts length unit) :
    ∃ start newest, timeline.latest? = some newest ∧
      BeginsWindow unit length timeline.entries newest start ∧
      (timeline.exactGradient scalar? length unit = .ok ⊥ ↔ start = newest) ∧
      (start ≠ newest → 0 < distance unit newest start ∧ ↑(distance unit newest start) ≤ length ∧
        timeline.exactGradient scalar? length unit =
          .ok ↑((number newest.value - number start.value) / distance unit newest start)) ∧
      (unit = .cycle → start.cycle ≤ newest.cycle ∧
        (newest.cycle - start.cycle).toNat = newest.cycle.toNat - start.cycle.toNat) := by
  have zero : (Scalar.zero : EReal) = 0 := Nat.cast_zero
  obtain ⟨newest, isNewest⟩ : ∃ newest, timeline.latest? = some newest := by
    refine Option.ne_none_iff_exists'.mp fun none => ?_
    rw [size, List.getLast?_eq_none_iff.mp none] at several
    cases several
  obtain ⟨start, begins, window⟩ :=
    windowStart_of_placed placed notIndex (zero ▸ accepts.1) isNewest
  have newestKnown : newest ∈ timeline.entries := List.mem_of_getLast? isNewest
  have startKnown : start ∈ timeline.entries := mem_of_windowStart newestKnown begins
  have alone_iff : start = newest ↔ (↑(distance unit newest start) : EReal) ≤ Scalar.zero := by
    rw [zero, EReal.coe_nonpos]
    refine ⟨fun same => by rw [same, distance, sub_self], fun none => ?_⟩
    exact (placed.eq_or_distance_pos isNewest startKnown).resolve_right none.not_gt
  have found := trailingGradient_of_start accepts several isNewest begins
    (numeric newest newestKnown) (numeric start startKnown)
  have apartFound (apart : start ≠ newest) : timeline.exactGradient scalar? length unit =
      .ok ↑((number newest.value - number start.value) / distance unit newest start) := by
    rw [exactGradient, found, if_neg (mt alone_iff.mpr apart), EReal.coe_div, EReal.coe_sub]
    rfl
  refine ⟨start, newest, isNewest, window, ⟨fun missing => ?_, fun alone => ?_⟩,
    fun apart => ⟨?_, window.within, apartFound apart⟩, ?_⟩
  · by_contra apart
    rw [apartFound apart, Except.ok.injEq] at missing
    exact EReal.coe_ne_bot _ missing
  · rw [exactGradient, found, if_pos (alone_iff.mp alone)]
    rfl
  · exact (placed.eq_or_distance_pos isNewest startKnown).resolve_left apart
  · rintro rfl
    have below := cycle_le_of_windowStart placed.ascending isNewest begins
    exact ⟨below, UInt64.toNat_sub_of_le _ _ below⟩

/-- Three entries at uneven steps. -/
noncomputable def unevenSteps : Timeline EReal ℝ :=
  ⟨[⟨0, some (0 : ℝ), 0⟩, ⟨5, some (3 : ℝ), 5⟩, ⟨10, some (4 : ℝ), 20⟩]⟩

theorem unevenSteps_over_seven_cycles :
    2 ≤ unevenSteps.size ∧ Placed .cycle unevenSteps.entries ∧ Accepts ((7 : ℝ) : EReal) .cycle ∧
      unevenSteps.exactGradient (fun number : ℝ => some ↑number) ↑(7 : ℝ) .cycle =
        .ok ↑(3 : ℝ) := by
  have several : 2 ≤ unevenSteps.size := by
    decide
  have placed : Placed .cycle unevenSteps.entries := by
    refine ⟨nofun, ?_⟩
    simp [unevenSteps, place]
  have accepts : Accepts ((7 : ℝ) : EReal) .cycle := by
    refine ⟨?_, fun _ => not_lt.mpr ?_⟩
    · exact EReal.coe_le_coe (by norm_num : ((0 : Nat) : ℝ) ≤ 7)
    · exact EReal.coe_le_coe (by norm_num : ((1 : Nat) : ℝ) ≤ 7)
  -- The first entry lies ten cycles back and the second one five.
  have five : distance .cycle (⟨10, some (4 : ℝ), 20⟩ : Entry EReal ℝ)
      ⟨5, some (3 : ℝ), 5⟩ = 5 := by
    change ((10 : Nat) : ℝ) - (5 : Nat) = 5
    norm_num
  have window : BeginsWindow .cycle ↑(7 : ℝ) unevenSteps.entries ⟨10, some (4 : ℝ), 20⟩
      ⟨5, some (3 : ℝ), 5⟩ := by
    refine ⟨EReal.coe_le_coe (by rw [five]; norm_num), [⟨0, some (0 : ℝ), 0⟩], [_], rfl, ?_⟩
    rw [List.forall_mem_singleton, EReal.coe_lt_coe_iff]
    change (7 : ℝ) < (10 : Nat) - (0 : Nat)
    norm_num
  obtain ⟨start, newest, isNewest, begins, _, apart, _⟩ :=
    @exactGradient_over_window _ unevenSteps _ _ (fun number : ℝ => some ↑number) id several
      placed nofun (fun _ _ => rfl) accepts
  cases isNewest
  cases begins.unique window
  obtain ⟨_, _, found⟩ := apart fun same => absurd (congrArg Entry.cycle same) (by decide)
  refine ⟨several, placed, accepts, found.trans ?_⟩
  change Except.ok (((20 - 5 : ℝ) / distance .cycle (⟨10, some (4 : ℝ), 20⟩ : Entry EReal ℝ)
    ⟨5, some (3 : ℝ), 5⟩ : ℝ) : EReal) = _
  rw [five]
  norm_num

end Exact

end InSitu.Timeline
