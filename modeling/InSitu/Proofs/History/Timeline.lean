import InSitu.History.Snapshot
import InSitu.Proofs.Table
import Mathlib.Data.List.Basic

/-!
# Timelines in order

The cycles of a timeline rise strictly, and a cap bounds their number.  Both
hold of what is appended, because an entry must be newer than the newest one and
pushes the oldest out of a full timeline, and of what is restored from entries
in any order, because these are cut to the cap and then sorted without repeats.
-/

namespace InSitu

variable {τ ν : Type}

namespace Timeline

/-- The cycles of entries rise strictly. -/
def Ascending (entries : List (Entry τ ν)) : Prop :=
  entries.Pairwise fun earlier later => earlier.cycle < later.cycle

/-- There are no more entries than a cap allows. -/
def Fits (cap : Option Nat) (entries : List (Entry τ ν)) : Prop :=
  ∀ limit, cap = some limit → entries.length ≤ limit

/-- Entries gain one more at the end.  The oldest one goes exactly if there were
already as many as the cap allows. -/
def Gains (cap : Option Nat) (before : List (Entry τ ν)) (entry : Entry τ ν)
    (after : List (Entry τ ν)) : Prop :=
  ∃ dropped kept, before = dropped ++ kept ∧ after = kept ++ [entry] ∧
    dropped.length ≤ 1 ∧ (dropped ≠ [] ↔ cap = some before.length)

/-- An entry is newer than the newest of some entries, if there is one. -/
def Newer (entries : List (Entry τ ν)) (cycle : Cycle) : Prop :=
  ∀ last, entries.getLast? = some last → last.cycle < cycle

theorem Ascending.nodup_cycles {entries : List (Entry τ ν)}
    (ascending : Ascending entries) : (entries.map Entry.cycle).Nodup := by
  rw [List.Nodup, List.pairwise_map]
  exact ascending.imp fun earlier => UInt64.ne_of_lt earlier

/-- No entry is newer than the newest one. -/
theorem Ascending.le_latest {entries : List (Entry τ ν)}
    (ascending : Ascending entries) {last : Entry τ ν}
    (latest : entries.getLast? = some last) :
    ∀ entry ∈ entries, entry.cycle ≤ last.cycle := by
  obtain ⟨front, rfl⟩ := List.getLast?_eq_some_iff.mp latest
  intro entry member
  rcases List.mem_append.mp member with earlier | same
  · have below := (List.pairwise_append.mp ascending).2.2 entry earlier
      last (List.mem_singleton_self last)
    exact UInt64.le_of_lt below
  · rw [List.mem_singleton.mp same]
    exact UInt64.le_refl _

theorem Newer.lt {entries : List (Entry τ ν)} {cycle : Cycle}
    (newer : Newer entries cycle) (ascending : Ascending entries) :
    ∀ entry ∈ entries, entry.cycle < cycle := by
  intro entry member
  cases latest : entries.getLast? with
  | none =>
      rw [List.getLast?_eq_none_iff.mp latest] at member
      exact False.elim (List.not_mem_nil member)
  | some last =>
      exact UInt64.lt_of_le_of_lt
        (ascending.le_latest latest entry member) (newer last latest)

theorem push_eq_ok_iff {timeline pushed : Timeline τ ν} {name : String}
    {cap : Option Nat} {entry : Entry τ ν} :
    timeline.push name cap entry = .ok pushed ↔
      Newer timeline.entries entry.cycle ∧
        pushed = ⟨makeRoom cap timeline.entries ++ [entry]⟩ := by
  cases latest : timeline.latest? with
  | none =>
      have empty : timeline.entries.getLast? = none := latest
      simp [push, latest, Newer, empty, eq_comm]
  | some last =>
      have found : timeline.entries.getLast? = some last := latest
      by_cases stale : entry.cycle ≤ last.cycle
      · simp [push, latest, Newer, found, stale, UInt64.not_lt.mpr stale]
      · simp [push, latest, Newer, found, stale, UInt64.not_le.mp stale, eq_comm]

theorem makeRoom_sublist (cap : Option Nat) (entries : List (Entry τ ν)) :
    (makeRoom cap entries).Sublist entries := by
  cases cap with
  | none =>
      exact List.Sublist.refl entries
  | some limit =>
      exact List.drop_sublist _ entries

theorem Ascending.append {entries : List (Entry τ ν)}
    (ascending : Ascending entries) {entry : Entry τ ν}
    (newer : Newer entries entry.cycle) (cap : Option Nat) :
    Ascending (makeRoom cap entries ++ [entry]) := by
  have kept := makeRoom_sublist cap entries
  refine List.pairwise_append.mpr
    ⟨ascending.sublist kept, List.pairwise_singleton _ _, ?_⟩
  intro earlier member last same
  rw [List.mem_singleton.mp same]
  exact newer.lt ascending earlier (kept.subset member)

theorem Fits.append {cap : Option Nat} {entries : List (Entry τ ν)}
    (positive : cap ≠ some 0) (entry : Entry τ ν) :
    Fits cap (makeRoom cap entries ++ [entry]) := by
  rintro limit rfl
  have room : 0 < limit := Nat.pos_of_ne_zero fun zero => positive (by rw [zero])
  simp only [makeRoom, List.length_append, List.length_drop, List.length_singleton]
  omega

/-- Of entries within the cap at most the oldest one makes room. -/
theorem gains_makeRoom {cap : Option Nat} {entries : List (Entry τ ν)}
    (fits : Fits cap entries) (positive : cap ≠ some 0) (entry : Entry τ ν) :
    Gains cap entries entry (makeRoom cap entries ++ [entry]) := by
  cases cap with
  | none =>
      exact ⟨[], entries, rfl, rfl, Nat.zero_le 1, by simp⟩
  | some limit =>
      have bound := fits limit rfl
      have room : limit ≠ 0 := fun zero => positive (by rw [zero])
      refine ⟨entries.take (entries.length + 1 - limit),
        entries.drop (entries.length + 1 - limit),
        (List.take_append_drop _ entries).symm, rfl, ?_, ?_⟩
      · rw [List.length_take]
        omega
      · rw [Ne, ← List.length_eq_zero_iff, List.length_take, Option.some.injEq]
        omega

theorem Gains.latest {cap : Option Nat} {before after : List (Entry τ ν)}
    {entry : Entry τ ν} (gains : Gains cap before entry after) :
    after.getLast? = some entry := by
  obtain ⟨_, kept, _, rfl, _⟩ := gains
  exact List.getLast?_concat

theorem dropRepeats_sublist (last : Option Cycle) (entries : List (Entry τ ν)) :
    (dropRepeats last entries).Sublist entries := by
  induction entries generalizing last with
  | nil =>
      exact List.Sublist.refl []
  | cons entry rest inductionHypothesis =>
      rw [dropRepeats]
      split
      · exact (inductionHypothesis last).cons entry
      · exact (inductionHypothesis _).cons_cons entry

/-- What is left of sorted entries rises strictly, and above the cycle before. -/
theorem dropRepeats_ascending {entries : List (Entry τ ν)}
    (sorted : entries.Pairwise fun earlier later => earlier.cycle ≤ later.cycle)
    (last : Option Cycle)
    (above : ∀ cycle, last = some cycle →
      ∀ entry ∈ entries, cycle ≤ entry.cycle) :
    Ascending (dropRepeats last entries) ∧
      ∀ cycle, last = some cycle →
        ∀ entry ∈ dropRepeats last entries, cycle < entry.cycle := by
  induction entries generalizing last with
  | nil =>
      exact ⟨List.Pairwise.nil, fun _ _ _ member => False.elim (List.not_mem_nil member)⟩
  | cons entry rest inductionHypothesis =>
      obtain ⟨headBelow, restSorted⟩ := List.pairwise_cons.mp sorted
      rw [dropRepeats]
      split
      · exact inductionHypothesis restSorted last fun cycle equality other member =>
          above cycle equality other (List.mem_cons_of_mem entry member)
      · rename_i notRepeated
        obtain ⟨restAscending, restAbove⟩ :=
          inductionHypothesis restSorted (some entry.cycle) (by
            rintro cycle equality other member
            cases equality
            exact headBelow other member)
        refine ⟨List.pairwise_cons.mpr ⟨restAbove entry.cycle rfl, restAscending⟩, ?_⟩
        rintro cycle rfl other member
        have entryAbove : cycle < entry.cycle := by
          have reached := above cycle rfl entry (List.mem_cons_self ..)
          exact UInt64.lt_of_le_of_ne reached fun same => notRepeated (by rw [same])
        rcases List.mem_cons.mp member with rfl | inRest
        · exact entryAbove
        · exact UInt64.lt_trans entryAbove (restAbove entry.cycle rfl other inRest)

theorem ascending_ofEntries (entries : List (Entry τ ν)) :
    Ascending (ofEntries entries).entries := by
  have sorted : (entries.mergeSort fun first second =>
      decide (first.cycle ≤ second.cycle)).Pairwise
      fun first second => decide (first.cycle ≤ second.cycle) = true := by
    apply List.pairwise_mergeSort
    · intro first second third lower upper
      simp only [decide_eq_true_eq] at lower upper ⊢
      exact UInt64.le_trans lower upper
    · intro first second
      simp only [Bool.or_eq_true, decide_eq_true_eq]
      exact UInt64.le_total first.cycle second.cycle
  simp only [decide_eq_true_eq] at sorted
  exact (dropRepeats_ascending sorted none (by simp)).1

theorem length_ofEntries_le (entries : List (Entry τ ν)) :
    (ofEntries entries).entries.length ≤ entries.length := by
  have shorter := (dropRepeats_sublist none
    (entries.mergeSort fun first second => first.cycle ≤ second.cycle)).length_le
  rwa [List.length_mergeSort] at shorter

end Timeline

end InSitu
