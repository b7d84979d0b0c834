import InSitu.Proofs.History.Soundness
import InSitu.Proofs.History.Window
import Mathlib.Data.List.DropRight

/-!
# Histories with a cap

A history with a cap is at every moment the newest part of the history that
forgets nothing: it accepts the same entries and rejects the others for the same
reason.  What is addressed from the newest entry and within the cap is therefore
the same in both.
-/

namespace InSitu

variable {τ ν : Type}

namespace Timeline

/-- The newest entries alone. -/
def abridge (limit : Nat) (timeline : Timeline τ ν) : Timeline τ ν :=
  ⟨timeline.entries.rtake limit⟩

@[simp]
theorem abridge_empty (limit : Nat) : (empty : Timeline τ ν).abridge limit = empty := by
  rw [abridge, empty, List.rtake_nil]

theorem latest?_abridge {limit : Nat} (positive : 0 < limit) (timeline : Timeline τ ν) :
    (timeline.abridge limit).latest? = timeline.latest? := by
  obtain ⟨previous, rfl⟩ := Nat.exists_eq_succ_of_ne_zero positive.ne'
  obtain ⟨entries⟩ := timeline
  rcases List.eq_nil_or_concat entries with rfl | ⟨older, newest, rfl⟩
  · exact congrArg latest? (abridge_empty _)
  · rw [latest?, latest?, abridge, List.concat_eq_append, List.rtake_concat_succ,
      List.getLast?_concat, List.getLast?_concat]

/-- A full timeline makes room by dropping what an abridged one drops. -/
theorem makeRoom_rtake {limit : Nat} (positive : 0 < limit) (entries : List (Entry τ ν))
    (entry : Entry τ ν) :
    makeRoom (some limit) (entries.rtake limit) ++ [entry] = (entries ++ [entry]).rtake limit := by
  obtain ⟨previous, rfl⟩ := Nat.exists_eq_succ_of_ne_zero positive.ne'
  rw [List.rtake_concat_succ, makeRoom, List.rtake, List.rtake, List.drop_drop, List.length_drop]
  congr 2
  omega

theorem push_abridge {limit : Nat} (positive : 0 < limit) (timeline : Timeline τ ν)
    (name : String) (entry : Entry τ ν) :
    (timeline.abridge limit).push name (some limit) entry =
      (timeline.push name none entry).map (abridge limit) := by
  have accepted : (Except.ok ⟨makeRoom (some limit) (timeline.abridge limit).entries ++ [entry]⟩ :
      Except Fault (Timeline τ ν)) =
        (Except.ok ⟨makeRoom none timeline.entries ++ [entry]⟩).map (abridge limit) := by
    rw [abridge, makeRoom_rtake positive]
    rfl
  rw [push, push, latest?_abridge positive]
  cases timeline.latest? with
  | none =>
      exact accepted
  | some last =>
      by_cases stale : entry.cycle ≤ last.cycle
      · simp only [stale, if_true]
        rfl
      · simp only [stale, if_false]
        exact accepted

theorem size_abridge (limit : Nat) (timeline : Timeline τ ν) :
    (timeline.abridge limit).size = min limit timeline.size := by
  rw [size, size, abridge, List.rtake, List.length_drop]
  omega

/-- The same entry stands as many places before the newest one. -/
theorem getElem?_abridge {limit back : Nat} (within : back < limit) (timeline : Timeline τ ν) :
    (timeline.abridge limit).entries[(timeline.abridge limit).size - 1 - back]? =
      timeline.entries[timeline.size - 1 - back]? := by
  have place : timeline.entries.length - limit + (min limit timeline.size - 1 - back) =
      timeline.size - 1 - back := by
    rw [size]
    omega
  rw [size_abridge, abridge, List.rtake, List.getElem?_drop, place]

theorem select_abridge {limit : Nat} {index : Int64} (within : index.toInt < limit)
    (node : String) (timeline : ValueTimeline) :
    (timeline.abridge limit).select node (.relative index) =
      timeline.select node (.relative index) := by
  by_cases negative : index < 0
  · simp only [select, if_pos negative, bind, Except.bind]
  · have natural : 0 ≤ index.toInt := by
      rw [Int64.lt_iff_toInt_lt] at negative
      exact Int.not_lt.mp negative
    have inside : index.toInt.toNat < limit := by
      omega
    by_cases recorded : timeline.entries = []
    · have nothing : timeline = empty := congrArg Timeline.mk recorded
      rw [nothing, abridge_empty]
    · have kept : (timeline.abridge limit).entries ≠ [] := by
        have positive := List.length_pos_iff.mpr recorded
        rw [abridge, ← List.length_pos_iff, List.rtake, List.length_drop]
        omega
      obtain ⟨entry, found, selected⟩ := select_relative natural node kept
      obtain ⟨other, otherFound, otherSelected⟩ := select_relative natural node recorded
      rw [getElem?_abridge inside, otherFound] at found
      rw [selected, otherSelected, Option.some.inj found]

/-- The last places of an abridged list are those of the whole one. -/
theorem drop_take_rtake {α : Type} {limit first last : Nat} (entries : List α)
    (ordered : first ≤ last) (within : last < limit) :
    ((entries.rtake limit).take ((entries.rtake limit).length - first)).drop
        ((entries.rtake limit).length - 1 - last) =
      (entries.take (entries.length - first)).drop (entries.length - 1 - last) := by
  rw [List.rtake, List.length_drop, List.take_drop, List.drop_drop]
  by_cases reached : first < entries.length
  · congr 1
    · omega
    · congr 1
      omega
  · have noneTaken : entries.length - first = 0 := by
      omega
    have allDropped : entries.length - limit = 0 := by
      omega
    simp [noneTaken, allDropped]

theorem entriesOf_abridge {limit : Nat} {first last : Int64} (natural : 0 ≤ first.toInt)
    (ordered : first.toInt ≤ last.toInt) (within : last.toInt < limit) (node : String)
    (timeline : ValueTimeline) :
    (RangeSelector.relativeIndex first last).entriesOf node (timeline.abridge limit) =
      (RangeSelector.relativeIndex first last).entriesOf node timeline := by
  have reaches : first.toInt.toNat < (timeline.abridge limit).size ↔
      first.toInt.toNat < timeline.size := by
    rw [size_abridge]
    omega
  have backwards : first.toInt.toNat ≤ last.toInt.toNat := by
    omega
  have inside : last.toInt.toNat < limit := by
    omega
  have window := drop_take_rtake timeline.entries backwards inside
  rw [RangeSelector.entriesOf_relativeIndex natural ordered,
    RangeSelector.entriesOf_relativeIndex natural ordered]
  simp only [reaches]
  rw [size, size, abridge, window]

/-- Two timelines cannot be told apart by addresses counted from the newest entry, as long as
these stay below a limit. -/
structure AgreeWithin (limit : Nat) (first second : ValueTimeline) : Prop where
  select : ∀ node (index : Int64), index.toInt < limit →
    first.select node (.relative index) = second.select node (.relative index)
  /-- What they agree on is an entry, unless there is none or the address is negative. -/
  selected : ∀ node (index : Int64), 0 ≤ index.toInt → index.toInt < limit →
    second.entries ≠ [] → ∃ entry,
      second.entries[second.size - 1 - index.toInt.toNat]? = some entry ∧
        first.select node (.relative index) = .ok entry
  entriesOf : ∀ node (newest oldest : Int64),
    0 ≤ newest.toInt → newest.toInt ≤ oldest.toInt → oldest.toInt < limit →
      ∃ window,
        (RangeSelector.relativeIndex newest oldest).entriesOf node first = .ok window ∧
          (RangeSelector.relativeIndex newest oldest).entriesOf node second = .ok window
  range : ∀ node (newest oldest : Int64) unit,
    0 ≤ newest.toInt → newest.toInt ≤ oldest.toInt → oldest.toInt < limit →
      first.range node (.relativeIndex newest oldest) unit =
        second.range node (.relativeIndex newest oldest) unit

theorem abridge_agrees (limit : Nat) (timeline : ValueTimeline) :
    (timeline.abridge limit).AgreeWithin limit timeline where
  select node _ within := select_abridge within node timeline
  selected node _ natural within recorded := by
    rw [select_abridge within]
    exact select_relative natural node recorded
  entriesOf node _ _ natural ordered within := by
    rw [entriesOf_abridge natural ordered within]
    exact ⟨_, RangeSelector.entriesOf_relativeIndex natural ordered node timeline,
      RangeSelector.entriesOf_relativeIndex natural ordered node timeline⟩
  range node _ _ unit natural ordered within :=
    range_eq_of_entriesOf (entriesOf_abridge natural ordered within node timeline) unit

end Timeline

namespace History

/-- What changes a history from outside. -/
inductive Change (τ ν : Type) where
  | declare (name : String)
  | append (name : String) (entry : Entry τ ν)

/-- A change and its answer.  An entry that is rejected changes nothing. -/
def change (history : History τ ν) : Change τ ν → History τ ν × Except Fault Unit
  | .declare name => (history.declare name, .ok ())
  | .append name entry =>
    match history.append name entry with
    | .ok appended => (appended, .ok ())
    | .error fault => (history, .error fault)

/-- Changes in order, with the answer to each. -/
def changeAll (history : History τ ν) :
    List (Change τ ν) → History τ ν × List (Except Fault Unit)
  | [] => (history, [])
  | first :: rest =>
    let (changed, answer) := history.change first
    let (final, answers) := changed.changeAll rest
    (final, answer :: answers)

/-! ## Abridging -/

/-- The newest entries of every timeline, with the cap that leaves no more. -/
def abridge (limit : Nat) (history : History τ ν) : History τ ν :=
  ⟨history.timelines.map fun _ => Timeline.abridge limit, some limit⟩

theorem abridge_empty (limit : Nat) :
    (empty none : History τ ν).abridge limit = empty (some limit) :=
  rfl

theorem names_abridge (limit : Nat) (history : History τ ν) :
    (history.abridge limit).names = history.names :=
  Table.keys_map _ history.timelines

theorem timelineOf_abridge (limit : Nat) (history : History τ ν) (name : String) :
    (history.abridge limit).timelineOf name = (history.timelineOf name).abridge limit := by
  rw [timelineOf, timelineOf, abridge, Table.get?_map]
  cases history.timelines.get? name with
  | none =>
      exact (Timeline.abridge_empty limit).symm
  | some timeline =>
      rfl

theorem declare_abridge (limit : Nat) (history : History τ ν) (name : String) :
    (history.abridge limit).declare name = (history.declare name).abridge limit := by
  have known : (history.abridge limit).timelines.contains name =
      history.timelines.contains name := by
    rw [abridge, Table.contains, Table.get?_map, Option.isSome_map]
    rfl
  rw [declare, declare, known]
  split
  · rfl
  · simp only [abridge, Table.map_insert, Timeline.abridge_empty]

theorem append_abridge {limit : Nat} (positive : 0 < limit) {history : History τ ν}
    (uncapped : history.cap = none) (name : String) (entry : Entry τ ν) :
    (history.abridge limit).append name entry =
      (history.append name entry).map (abridge limit) := by
  have capped : (history.abridge limit).cap = some limit := rfl
  rw [append, append, timelineOf_abridge, capped, uncapped, Timeline.push_abridge positive]
  cases (history.timelineOf name).push name none entry with
  | error fault =>
      rfl
  | ok pushed =>
      simp only [Except.map, abridge, Table.map_insert]

/-- One change keeps a history with a cap the abridged one. -/
theorem change_abridge {limit : Nat} (positive : 0 < limit) {history : History τ ν}
    (uncapped : history.cap = none) (asked : Change τ ν) :
    (history.abridge limit).change asked =
        ((history.change asked).1.abridge limit, (history.change asked).2) ∧
      (history.change asked).1.cap = none := by
  cases asked with
  | declare name =>
      rw [change, change, declare_abridge]
      exact ⟨rfl, (cap_declare history name).trans uncapped⟩
  | append name entry =>
      rw [change, change, append_abridge positive uncapped]
      cases appended : history.append name entry with
      | error fault =>
          exact ⟨rfl, uncapped⟩
      | ok after =>
          exact ⟨rfl, (cap_append appended).trans uncapped⟩

theorem changeAll_abridge {limit : Nat} (positive : 0 < limit) {history : History τ ν}
    (uncapped : history.cap = none) (changes : List (Change τ ν)) :
    (history.abridge limit).changeAll changes =
      ((history.changeAll changes).1.abridge limit, (history.changeAll changes).2) := by
  induction changes generalizing history with
  | nil =>
      rfl
  | cons first rest inductionHypothesis =>
      obtain ⟨changed, stillUncapped⟩ := change_abridge positive uncapped first
      simp only [changeAll, changed, inductionHypothesis stillUncapped]

/-- A cap rejects nothing that is accepted without one, and leaves of every
timeline the newest entries.  An address counted from the newest entry means the
same entry, and a range the same entries, as long as it stays within the cap. -/
theorem changeAll_with_cap {limit : Nat} (positive : 0 < limit)
    (changes : List (Change Float Value)) :
    let capped := (empty (some limit) : ValueHistory).changeAll changes
    let free := (empty none : ValueHistory).changeAll changes
    capped.2 = free.2 ∧ capped.1.names = free.1.names ∧
      ∀ name,
        (capped.1.timelineOf name).entries = (free.1.timelineOf name).entries.rtake limit ∧
          (capped.1.timelineOf name).AgreeWithin limit (free.1.timelineOf name) := by
  have uncapped : (empty none : ValueHistory).cap = none := rfl
  have run := changeAll_abridge positive uncapped changes
  rw [abridge_empty] at run
  rw [run]
  refine ⟨rfl, names_abridge limit _, fun name => ?_⟩
  rw [timelineOf_abridge]
  exact ⟨rfl, Timeline.abridge_agrees limit _⟩

/-- Four entries for a name, the third for a cycle that has one. -/
def crowded : List (Change Float Value) :=
  [.declare "b", .append "a" ⟨1, none, .int 10⟩, .append "a" ⟨4, none, .int 40⟩,
    .append "a" ⟨4, none, .int 41⟩, .append "a" ⟨6, none, .int 60⟩]

theorem crowded_keeps_two :
    let capped := (empty (some 2) : ValueHistory).changeAll crowded
    let free := (empty none : ValueHistory).changeAll crowded
    0 < 2 ∧
      free.2 = [.ok (), .ok (), .ok (), .error (.historyOrder "a" 4 4), .ok ()] ∧
      capped.2 = free.2 ∧
      (free.1.timelineOf "a").entries.map Entry.cycle = [1, 4, 6] ∧
      (capped.1.timelineOf "a").entries.map Entry.cycle = [4, 6] ∧
      (capped.1.timelineOf "a").AgreeWithin 2 (free.1.timelineOf "a") := by
  have positive : 0 < 2 := by
    decide
  obtain ⟨answers, _, timelines⟩ := changeAll_with_cap positive crowded
  have cycles : (((empty none : ValueHistory).changeAll crowded).1.timelineOf "a").entries.map
      Entry.cycle = [1, 4, 6] := by
    cbv
  refine ⟨positive, by cbv, answers, cycles, ?_, (timelines "a").2⟩
  rw [(timelines "a").1, List.rtake, List.map_drop, cycles, ← List.length_map, cycles]
  decide

end History

end InSitu
