import InSitu.Proofs.History.Soundness
import InSitu.Proofs.Session.Restoring
import Mathlib.Data.List.DropRight

/-!
# Caps on what was saved

A saved history is restored with a cap by cutting off the front of the saved
entries, and only then are the others sorted and freed of repeats.  So the cap
keeps the newest entries of the whole history if the saved entries are in order.
If they are not, three things have to hold of what is cut off: none of it is
newer than what stays, no repeat of it stays in its place, and repeats that stay
take no room from it.
-/

namespace InSitu

variable {τ ν : Type}

namespace Timeline

/-- The order in which entries are sorted. -/
def notAfter (first second : Entry τ ν) : Bool := first.cycle ≤ second.cycle

theorem notAfter_trans (first second third : Entry τ ν) (lower : notAfter first second = true)
    (upper : notAfter second third = true) : notAfter first third = true :=
  decide_eq_true (UInt64.le_trans (of_decide_eq_true lower) (of_decide_eq_true upper))

theorem notAfter_total (first second : Entry τ ν) :
    (notAfter first second || notAfter second first) = true := by
  simp only [notAfter, Bool.or_eq_true, decide_eq_true_eq]
  exact UInt64.le_total first.cycle second.cycle

theorem entries_ofEntries (entries : List (Entry τ ν)) :
    (ofEntries entries).entries = dropRepeats none (entries.mergeSort notAfter) := rfl

/-- An entry of some cycle. -/
def isAt (cycle : Cycle) (entry : Entry τ ν) : Bool := entry.cycle == cycle

@[simp]
theorem isAt_iff {cycle : Cycle} {entry : Entry τ ν} :
    isAt cycle entry = true ↔ entry.cycle = cycle :=
  beq_iff_eq

/-- Entries of one cycle stay in the order in which they came. -/
theorem filter_mergeSort (entries : List (Entry τ ν)) (cycle : Cycle) :
    (entries.mergeSort notAfter).filter (isAt cycle) = entries.filter (isAt cycle) := by
  have alike : (entries.filter (isAt cycle)).Pairwise
      fun first second => notAfter first second = true := by
    refine List.pairwise_of_forall_mem_list fun first isFirst second isSecond => ?_
    have firstCycle := isAt_iff.mp (List.of_mem_filter isFirst)
    have secondCycle := isAt_iff.mp (List.of_mem_filter isSecond)
    rw [notAfter, firstCycle, secondCycle]
    exact decide_eq_true (UInt64.le_refl cycle)
  have inOrder := List.sublist_mergeSort notAfter_trans notAfter_total alike List.filter_sublist
  have within := inOrder.filter (isAt cycle)
  rw [List.filter_filter] at within
  simp only [Bool.and_self] at within
  have sameLength := ((List.mergeSort_perm entries notAfter).filter (isAt cycle)).length_eq
  exact (within.eq_of_length sameLength.symm).symm

theorem find?_mergeSort (entries : List (Entry τ ν)) (cycle : Cycle) :
    (entries.mergeSort notAfter).find? (isAt cycle) = entries.find? (isAt cycle) := by
  rw [← List.head?_filter, ← List.head?_filter, filter_mergeSort]

/-- Of sorted entries the first of every cycle stays, except for the cycle before. -/
theorem mem_dropRepeats_iff {sorted : List (Entry τ ν)}
    (inOrder : sorted.Pairwise fun earlier later => earlier.cycle ≤ later.cycle)
    {last : Option Cycle} (above : ∀ cycle, last = some cycle → ∀ entry ∈ sorted,
      cycle ≤ entry.cycle) (entry : Entry τ ν) :
    entry ∈ dropRepeats last sorted ↔
      last ≠ some entry.cycle ∧ sorted.find? (isAt entry.cycle) = some entry := by
  induction sorted generalizing last with
  | nil =>
      simp [dropRepeats]
  | cons first rest inductionHypothesis =>
      obtain ⟨firstBelow, restInOrder⟩ := List.pairwise_cons.mp inOrder
      have restAbove : ∀ cycle, some first.cycle = some cycle → ∀ other ∈ rest,
          cycle ≤ other.cycle := by
        rintro cycle ⟨⟩ other member
        exact firstBelow other member
      rw [dropRepeats]
      by_cases same : first.cycle = entry.cycle
      · rw [List.find?_cons_of_pos (isAt_iff.mpr same), same]
        by_cases repeated : last = some entry.cycle
        · rw [if_pos repeated, inductionHypothesis restInOrder fun cycle isLast other member =>
            above cycle isLast other (List.mem_cons_of_mem first member)]
          simp [repeated]
        · rw [if_neg repeated, List.mem_cons, ← same, inductionHypothesis restInOrder restAbove]
          simp [same, repeated, eq_comm]
      · rw [List.find?_cons_of_neg (mt isAt_iff.mp same)]
        by_cases repeated : last = some first.cycle
        · rw [if_pos repeated, inductionHypothesis restInOrder fun cycle isLast other member =>
            above cycle isLast other (List.mem_cons_of_mem first member)]
        · have different : entry ≠ first := by
            rintro rfl
            exact same rfl
          have fresh : rest.find? (isAt entry.cycle) = some entry → last ≠ some entry.cycle := by
            intro found isLast
            have reached := firstBelow entry (List.mem_of_find?_eq_some found)
            have fromLast := above entry.cycle isLast first List.mem_cons_self
            exact same (UInt64.le_antisymm reached fromLast)
          rw [if_neg repeated, List.mem_cons, inductionHypothesis restInOrder restAbove]
          simpa [same, different] using fresh

/-- A timeline has the first entry of every cycle. -/
theorem mem_ofEntries_iff {entries : List (Entry τ ν)} {entry : Entry τ ν} :
    entry ∈ (ofEntries entries).entries ↔ entries.find? (isAt entry.cycle) = some entry := by
  have sorted := List.pairwise_mergeSort notAfter_trans notAfter_total entries
  have inOrder : (entries.mergeSort notAfter).Pairwise
      fun earlier later => earlier.cycle ≤ later.cycle :=
    sorted.imp of_decide_eq_true
  rw [entries_ofEntries, mem_dropRepeats_iff inOrder (by simp), find?_mergeSort]
  simp

/-- A timeline is as long as the list it was made of if this repeats no cycle. -/
theorem length_ofEntries_eq_iff {entries : List (Entry τ ν)} :
    (ofEntries entries).entries.length = entries.length ↔ (entries.map Entry.cycle).Nodup := by
  have permuted := List.mergeSort_perm entries notAfter
  have cycles := (permuted.map Entry.cycle).nodup_iff
  rw [← cycles, ← permuted.length_eq, entries_ofEntries]
  constructor
  · intro sameLength
    have same := (dropRepeats_sublist none (entries.mergeSort notAfter)).eq_of_length sameLength
    rw [← same, ← entries_ofEntries]
    exact (ascending_ofEntries entries).nodup_cycles
  · intro distinct
    have sorted := List.pairwise_mergeSort notAfter_trans notAfter_total entries
    have ascending : Ascending (entries.mergeSort notAfter) := by
      rw [List.Nodup, List.pairwise_map] at distinct
      exact sorted.imp₂ (fun _ _ below different =>
        UInt64.lt_of_le_of_ne (of_decide_eq_true below) different) distinct
    rw [dropRepeats_eq_self ascending fun _ _ => by simp]

/-- Entries that rise are known by their members. -/
theorem Ascending.eq_of_mem_iff {first second : List (Entry τ ν)} (ascending : Ascending first)
    (otherAscending : Ascending second) (alike : ∀ entry, entry ∈ first ↔ entry ∈ second) :
    first = second := by
  have permuted : first.Perm second :=
    (List.perm_ext_iff_of_nodup ascending.nodup_cycles.of_map
      otherAscending.nodup_cycles.of_map).mpr alike
  refine permuted.eq_of_pairwise (fun earlier later _ _ below above => ?_) ascending
    otherAscending
  exact absurd below (UInt64.lt_asymm above)

/-- What must hold of entries that are cut off for the others to be restored as
the newest part of all. -/
structure LeavesNewest (dropped kept : List (Entry τ ν)) : Prop where
  /-- Nothing newer than an entry that stays is lost. -/
  newer : ∀ entry ∈ dropped, (∃ other ∈ kept, other.cycle < entry.cycle) →
    ∃ other ∈ kept, other.cycle = entry.cycle
  /-- Of each cycle that stays the first entry stays. -/
  first : ∀ entry ∈ kept,
    kept.find? (isAt entry.cycle) = (dropped ++ kept).find? (isAt entry.cycle)
  /-- If a cycle is lost, no repeat takes its room. -/
  room : (∃ entry ∈ dropped, ∀ other ∈ kept, other.cycle ≠ entry.cycle) →
    (kept.map Entry.cycle).Nodup

theorem exists_find?_isAt {entries : List (Entry τ ν)} {cycle : Cycle}
    (known : ∃ entry ∈ entries, entry.cycle = cycle) :
    ∃ first, entries.find? (isAt cycle) = some first ∧ first.cycle = cycle := by
  have found : (entries.find? (isAt cycle)).isSome := by
    simpa [List.find?_isSome] using known
  obtain ⟨first, isFirst⟩ := Option.isSome_iff_exists.mp found
  exact ⟨first, isFirst, isAt_iff.mp (List.find?_some isFirst)⟩

/-- A timeline has every cycle of the entries it was made of. -/
theorem exists_mem_ofEntries_iff {entries : List (Entry τ ν)} {cycle : Cycle} :
    (∃ entry ∈ (ofEntries entries).entries, entry.cycle = cycle) ↔
      ∃ entry ∈ entries, entry.cycle = cycle := by
  constructor
  · rintro ⟨entry, member, isCycle⟩
    exact ⟨entry, List.mem_of_find?_eq_some (mem_ofEntries_iff.mp member), isCycle⟩
  · intro known
    obtain ⟨first, isFirst, isCycle⟩ := exists_find?_isAt known
    subst isCycle
    exact ⟨first, mem_ofEntries_iff.mpr isFirst, rfl⟩

variable {dropped kept : List (Entry τ ν)}

/-- The first entry of a cycle that stays is restored in both timelines. -/
theorem mem_ofEntries_append_iff
    (first : ∀ entry ∈ kept,
      kept.find? (isAt entry.cycle) = (dropped ++ kept).find? (isAt entry.cycle))
    {entry : Entry τ ν} (stays : ∃ other ∈ kept, other.cycle = entry.cycle) :
    entry ∈ (ofEntries (dropped ++ kept)).entries ↔ entry ∈ (ofEntries kept).entries := by
  obtain ⟨other, member, sameCycle⟩ := stays
  rw [mem_ofEntries_iff, mem_ofEntries_iff, ← sameCycle, first other member]

/-- What is restored of entries that stay ends the whole timeline if nothing
newer than them is lost and of each cycle that stays the first entry does. -/
theorem exists_older_iff :
    (∃ older, (ofEntries (dropped ++ kept)).entries = older ++ (ofEntries kept).entries) ↔
      (∀ entry ∈ dropped, (∃ other ∈ kept, other.cycle < entry.cycle) →
          ∃ other ∈ kept, other.cycle = entry.cycle) ∧
        ∀ entry ∈ kept,
          kept.find? (isAt entry.cycle) = (dropped ++ kept).find? (isAt entry.cycle) := by
  have ascending := ascending_ofEntries (dropped ++ kept)
  have keptAscending := ascending_ofEntries kept
  constructor
  · rintro ⟨older, parts⟩
    refine ⟨?_, fun entry member => ?_⟩
    · rintro entry member ⟨other, otherMember, below⟩
      obtain ⟨found, isFound, foundCycle⟩ := exists_mem_ofEntries_iff.mpr
        ⟨entry, List.mem_append_left kept member, rfl⟩
      obtain ⟨restored, isRestored, restoredCycle⟩ := exists_mem_ofEntries_iff.mpr
        ⟨other, otherMember, rfl⟩
      rw [parts] at isFound ascending
      rcases List.mem_append.mp isFound with isOlder | stays
      · have order := (List.pairwise_append.mp ascending).2.2 found isOlder restored isRestored
        rw [foundCycle, restoredCycle] at order
        exact absurd below (UInt64.lt_asymm order)
      · exact exists_mem_ofEntries_iff.mp ⟨found, stays, foundCycle⟩
    · obtain ⟨first, isFirst, firstCycle⟩ := exists_find?_isAt ⟨entry, member, rfl⟩
      rw [← firstCycle] at isFirst ⊢
      have restored := mem_ofEntries_iff.mpr isFirst
      have inWhole : first ∈ (ofEntries (dropped ++ kept)).entries := by
        rw [parts]
        exact List.mem_append_right older restored
      rw [isFirst, mem_ofEntries_iff.mp inWhole]
  · rintro ⟨newer, first⟩
    refine ⟨(ofEntries (dropped ++ kept)).entries.filter fun entry =>
      decide (∀ other ∈ kept, other.cycle ≠ entry.cycle), ?_⟩
    refine ascending.eq_of_mem_iff (List.pairwise_append.mpr
      ⟨ascending.sublist List.filter_sublist, keptAscending, ?_⟩) fun entry => ?_
    · intro entry isOlder other stays
      obtain ⟨member, lost⟩ := List.mem_filter.mp isOlder
      have lostCycle := of_decide_eq_true lost
      have known := List.mem_of_find?_eq_some (mem_ofEntries_iff.mp member)
      have otherMember := List.mem_of_find?_eq_some (mem_ofEntries_iff.mp stays)
      have different := lostCycle other otherMember
      have isDropped : entry ∈ dropped := by
        refine (List.mem_append.mp known).resolve_right fun isKept => ?_
        exact lostCycle entry isKept rfl
      refine UInt64.lt_of_le_of_ne (UInt64.not_lt.mp fun above => ?_) different.symm
      obtain ⟨same, isKept, sameCycle⟩ := newer entry isDropped ⟨other, otherMember, above⟩
      exact lostCycle same isKept sameCycle
    · rw [List.mem_append, List.mem_filter, decide_eq_true_eq]
      by_cases stays : ∃ other ∈ kept, other.cycle = entry.cycle
      · have notLost : ¬ ∀ other ∈ kept, other.cycle ≠ entry.cycle := by
          obtain ⟨other, member, same⟩ := stays
          exact fun lost => lost other member same
        simp only [notLost, and_false, false_or]
        exact mem_ofEntries_append_iff first stays
      · have notRestored : entry ∉ (ofEntries kept).entries := fun restored =>
          stays (exists_mem_ofEntries_iff.mp ⟨entry, restored, rfl⟩)
        have lost : ∀ other ∈ kept, other.cycle ≠ entry.cycle := fun other member same =>
          stays ⟨other, member, same⟩
        simp only [notRestored, or_false]
        exact (and_iff_left lost).symm

/-- The last elements of a list are another one that is short enough. -/
theorem eq_rtake_iff {α : Type} {cap : Nat} {whole part : List α} (short : part.length ≤ cap) :
    part = whole.rtake cap ↔ ∃ older, whole = older ++ part ∧ (older ≠ [] → part.length = cap) := by
  constructor
  · intro same
    refine ⟨whole.take (whole.length - cap), ?_, fun remains => ?_⟩
    · rw [same, List.rtake, List.take_append_drop]
    · rw [← List.length_pos_iff, List.length_take] at remains
      rw [same, List.rtake, List.length_drop]
      omega
  · rintro ⟨older, rfl, full⟩
    rw [List.rtake, List.length_append]
    by_cases empty : older = []
    · subst empty
      rw [List.nil_append, List.length_nil, Nat.zero_add, Nat.sub_eq_zero_of_le short,
        List.drop_zero]
    · rw [full empty, Nat.add_sub_cancel, List.drop_left]

/-- The last entries of a list, up to a cap, are restored as the newest part of
all entries exactly if the others leave it. -/
theorem ofEntries_eq_rtake_iff {cap : Nat} (short : kept.length ≤ cap)
    (full : dropped ≠ [] → kept.length = cap) :
    (ofEntries kept).entries = (ofEntries (dropped ++ kept)).entries.rtake cap ↔
      LeavesNewest dropped kept := by
  have keptShort : (ofEntries kept).entries.length ≤ cap :=
    (length_ofEntries_le kept).trans short
  have older_iff := @exists_older_iff τ ν dropped kept
  rw [eq_rtake_iff keptShort]
  constructor
  · rintro ⟨older, parts, room⟩
    obtain ⟨newer, first⟩ := older_iff.mp ⟨older, parts⟩
    refine ⟨newer, first, ?_⟩
    rintro ⟨entry, isDropped, lost⟩
    obtain ⟨found, isFound, foundCycle⟩ := exists_mem_ofEntries_iff.mpr
      ⟨entry, List.mem_append_left kept isDropped, rfl⟩
    have isOlder : found ∈ older := by
      rw [parts] at isFound
      refine (List.mem_append.mp isFound).resolve_right fun restored => ?_
      obtain ⟨other, member, same⟩ := exists_mem_ofEntries_iff.mp ⟨found, restored, foundCycle⟩
      exact lost other member same
    rw [← length_ofEntries_eq_iff, room (List.ne_nil_of_mem isOlder),
      full (List.ne_nil_of_mem isDropped)]
  · rintro ⟨newer, first, room⟩
    obtain ⟨older, parts⟩ := older_iff.mpr ⟨newer, first⟩
    refine ⟨older, parts, fun remains => ?_⟩
    obtain ⟨entry, isOlder⟩ := List.exists_mem_of_ne_nil older remains
    have inWhole : entry ∈ (ofEntries (dropped ++ kept)).entries := by
      rw [parts]
      exact List.mem_append_left _ isOlder
    have known := List.mem_of_find?_eq_some (mem_ofEntries_iff.mp inWhole)
    have lost : ∀ other ∈ kept, other.cycle ≠ entry.cycle := by
      intro other member same
      obtain ⟨restored, isRestored, sameCycle⟩ := exists_mem_ofEntries_iff.mpr
        ⟨other, member, same⟩
      have ascending := ascending_ofEntries (dropped ++ kept)
      rw [parts] at ascending
      have order := (List.pairwise_append.mp ascending).2.2 entry isOlder restored isRestored
      exact UInt64.ne_of_lt order sameCycle.symm
    have isDropped : entry ∈ dropped :=
      (List.mem_append.mp known).resolve_right fun isKept => lost entry isKept rfl
    rw [length_ofEntries_eq_iff.mpr (room ⟨entry, isDropped, lost⟩),
      full (List.ne_nil_of_mem isDropped)]

theorem leavesNewest_of_ascending (ascending : Ascending (dropped ++ kept)) :
    LeavesNewest dropped kept := by
  obtain ⟨_, keptAscending, below⟩ := List.pairwise_append.mp ascending
  refine ⟨?_, fun entry member => ?_, fun _ => Ascending.nodup_cycles keptAscending⟩
  · rintro entry isDropped ⟨other, isKept, newer⟩
    exact absurd newer (UInt64.lt_asymm (below entry isDropped other isKept))
  · have notDropped : dropped.find? (isAt entry.cycle) = none := by
      refine List.find?_eq_none.mpr fun other isDropped => ?_
      rw [isAt_iff]
      exact UInt64.ne_of_lt (below other isDropped entry member)
    rw [List.find?_append, notDropped, Option.none_or]

end Timeline

/-! ## Saved histories -/

namespace Snapshot

/-- What can be decoded is restored with every cap. -/
theorem exists_restoreAll_with_cap {saved : List (String × List SavedEntry)}
    {timelines : List (String × ValueTimeline)} (restored : restoreAll none saved = .ok timelines)
    (cap : Option Nat) :
    ∃ capped, restoreAll cap saved = .ok capped ∧
      ∀ line ∈ saved, ∃ entries, line.2.mapM SavedEntry.toEntry = .ok entries ∧
        (line.1, Timeline.ofEntries entries) ∈ timelines ∧
          (line.1, Timeline.ofEntries (newest cap entries)) ∈ capped := by
  induction saved generalizing timelines with
  | nil =>
      exact ⟨[], rfl, fun _ member => False.elim (List.not_mem_nil member)⟩
  | cons first rest inductionHypothesis =>
      obtain ⟨entries, others, decoded, restRestored, rfl⟩ := restoreAll_cons_eq_ok restored
      obtain ⟨capped, restCapped, lines⟩ := inductionHypothesis restRestored
      refine ⟨(first.1, Timeline.ofEntries (newest cap entries)) :: capped, ?_, ?_⟩
      · rw [restoreAll, decoded, restCapped]
        rfl
      · refine List.forall_mem_cons.mpr ⟨⟨entries, decoded, List.mem_cons_self,
          List.mem_cons_self⟩, fun line member => ?_⟩
        obtain ⟨otherEntries, otherDecoded, whole, part⟩ := lines line member
        exact ⟨otherEntries, otherDecoded, List.mem_cons_of_mem _ whole,
          List.mem_cons_of_mem _ part⟩

theorem timelineOf_of_restoreAll {snapshot : Snapshot} {cap : Option Nat}
    {timelines : List (String × ValueTimeline)}
    (restored : restoreAll cap snapshot.entries = .ok timelines) {name : String}
    {timeline : ValueTimeline} (member : (name, timeline) ∈ timelines) :
    (⟨Table.ofList timelines, cap⟩ : ValueHistory).timelineOf name = timeline := by
  have distinct : (Entries.keys timelines).Nodup := by
    rw [keys_restoreAll restored]
    exact snapshot.distinct
  have found : (Table.ofList timelines).get? name = some timeline := by
    rw [Table.get?_eq_some_iff, Table.entries_ofList distinct]
    exact member
  rw [History.timelineOf, found, Option.getD_some]

/-- What is restored at all is restored with every cap, under the same names.  A
name then keeps the newest entries of its whole timeline exactly if the saved
entries in front of the last ones leave them. -/
theorem restore_with_cap {snapshot : Snapshot} {whole : ValueHistory}
    (restored : snapshot.restore none = .ok whole) (cap : Nat) :
    ∃ capped, snapshot.restore (some cap) = .ok capped ∧ capped.names = whole.names ∧
      ∀ name saved, snapshot.get? name = some saved →
        ∃ entries, saved.mapM SavedEntry.toEntry = .ok entries ∧
          ((capped.timelineOf name).entries = (whole.timelineOf name).entries.rtake cap ↔
            Timeline.LeavesNewest (entries.take (entries.length - cap))
              (entries.drop (entries.length - cap))) := by
  have names := names_restore restored
  obtain ⟨timelines, computed, rfl⟩ := exists_restoreAll_of_restore restored
  obtain ⟨capped, cappedComputed, lines⟩ := exists_restoreAll_with_cap computed (some cap)
  have cappedRestored : snapshot.restore (some cap) =
      .ok ⟨Table.ofList capped, some cap⟩ := by
    rw [restore, cappedComputed]
  refine ⟨_, cappedRestored, (names_restore cappedRestored).trans names.symm,
    fun name saved found => ?_⟩
  obtain ⟨entries, decoded, inWhole, inCapped⟩ :=
    lines (name, saved) (Table.get?_eq_some_iff.mp found)
  refine ⟨entries, decoded, ?_⟩
  rw [timelineOf_of_restoreAll computed inWhole,
    timelineOf_of_restoreAll cappedComputed inCapped]
  have short : (entries.drop (entries.length - cap)).length ≤ cap := by
    rw [List.length_drop]
    omega
  have full : entries.take (entries.length - cap) ≠ [] →
      (entries.drop (entries.length - cap)).length = cap := by
    intro remains
    rw [← List.length_pos_iff, List.length_take] at remains
    rw [List.length_drop]
    omega
  have trimmed := Timeline.ofEntries_eq_rtake_iff short full
  rwa [List.take_append_drop] at trimmed

/-- A snapshot with the entries of one name. -/
def savedAs (name : String) (entries : List ValueEntry) : Snapshot :=
  Table.ofList [(name, entries.map (SavedEntry.ofEntry name))]

def restoredAs (name : String) (entries : List ValueEntry) (cap : Option Nat) : ValueHistory :=
  ⟨Table.ofList [(name, Timeline.ofEntries entries)], cap⟩

/-- Three cycles in order. -/
def inOrder : List ValueEntry := [⟨1, none, .int 10⟩, ⟨4, none, .int 40⟩, ⟨6, none, .int 60⟩]

/-- Two cycles, the newer one first. -/
def outOfOrder : List ValueEntry := [⟨2, none, .int 20⟩, ⟨1, none, .int 10⟩]

theorem inOrder_keeps_newest :
    (savedAs "a" inOrder).restore none = .ok (restoredAs "a" inOrder none) ∧
      ∃ capped, (savedAs "a" inOrder).restore (some 2) = .ok capped ∧
        (capped.timelineOf "a").entries =
            ((restoredAs "a" inOrder none).timelineOf "a").entries.rtake 2 ∧
          (capped.timelineOf "a").entries.map Entry.cycle = [4, 6] := by
  have restored : (savedAs "a" inOrder).restore none = .ok (restoredAs "a" inOrder none) := by
    rfl
  have ascending : Timeline.Ascending inOrder := by
    simp [Timeline.Ascending, inOrder]
  obtain ⟨capped, cappedRestored, _, lines⟩ := restore_with_cap restored 2
  obtain ⟨entries, decoded, keeps_iff⟩ := lines "a" _ rfl
  have isDecoded : entries = inOrder := (Except.ok.inj decoded).symm
  subst isDecoded
  have keeps := keeps_iff.mpr (Timeline.leavesNewest_of_ascending (by
    rwa [List.take_append_drop]))
  have whole : ((restoredAs "a" inOrder none).timelineOf "a").entries = inOrder :=
    congrArg Timeline.entries
      (@Timeline.ofEntries_of_ascending _ _ ⟨inOrder⟩ ascending)
  refine ⟨restored, capped, cappedRestored, keeps, ?_⟩
  rw [keeps, whole]
  rfl

/-- With room for one entry the newer one is cut off and the older one restored. -/
theorem outOfOrder_loses_newest :
    (savedAs "a" outOfOrder).restore none = .ok (restoredAs "a" outOfOrder none) ∧
      (savedAs "a" outOfOrder).restore (some 1) =
          .ok (restoredAs "a" [⟨1, none, .int 10⟩] (some 1)) ∧
        ((restoredAs "a" outOfOrder none).timelineOf "a").entries.map Entry.cycle = [1, 2] ∧
          ((restoredAs "a" [⟨1, none, .int 10⟩] (some 1)).timelineOf "a").entries ≠
            ((restoredAs "a" outOfOrder none).timelineOf "a").entries.rtake 1 := by
  have whole : ((restoredAs "a" outOfOrder none).timelineOf "a").entries =
      [⟨1, none, .int 10⟩, ⟨2, none, .int 20⟩] := by
    cbv
  have capped : ((restoredAs "a" [⟨1, none, .int 10⟩] (some 1)).timelineOf "a").entries =
      [⟨1, none, .int 10⟩] := by
    cbv
  refine ⟨rfl, rfl, ?_, ?_⟩
  · rw [whole]
    rfl
  · rw [whole, capped]
    intro same
    have cycles := congrArg (List.map Entry.cycle) same
    exact absurd cycles (by decide)

end Snapshot

end InSitu
