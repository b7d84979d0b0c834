import InSitu.Proofs.History.Timeline

/-!
# Sound histories

A history is sound if each of its timelines rises strictly and fits its cap.
Mentioning a name and appending an entry keep a history sound, and a history
that is restored is sound whatever was saved.
-/

namespace InSitu

open Timeline

namespace History

variable {τ ν : Type}

/-- Every timeline rises strictly and fits the cap. -/
def Sound (history : History τ ν) : Prop :=
  ∀ name timeline, history.timelines.get? name = some timeline →
    Ascending timeline.entries ∧ Fits history.cap timeline.entries

theorem sound_empty (cap : Option Nat) : (empty cap : History τ ν).Sound := by
  intro name timeline found
  cases found

theorem Sound.timelineOf {history : History τ ν} (sound : history.Sound)
    (name : String) :
    Ascending (history.timelineOf name).entries ∧
      Fits history.cap (history.timelineOf name).entries := by
  rw [History.timelineOf]
  cases found : history.timelines.get? name with
  | none =>
      exact ⟨List.Pairwise.nil, fun _ _ => Nat.zero_le _⟩
  | some timeline =>
      exact sound name timeline found

@[simp]
theorem timelineOf_declare (history : History τ ν) (mentioned name : String) :
    (history.declare mentioned).timelineOf name = history.timelineOf name := by
  rw [declare]
  split
  · rfl
  · rename_i unknown
    rw [History.timelineOf, History.timelineOf, Table.get?_insert]
    split
    · rename_i same
      rw [same, Table.get?_eq_none_iff.mpr fun member =>
        unknown (Table.contains_iff_mem_keys.mpr member)]
      rfl
    · rfl

@[simp]
theorem cap_declare (history : History τ ν) (mentioned : String) :
    (history.declare mentioned).cap = history.cap := by
  rw [declare]
  split <;> rfl

theorem names_declare (history : History τ ν) (mentioned : String) :
    (history.declare mentioned).names =
      if mentioned ∈ history.names then history.names
      else history.names ++ [mentioned] := by
  rw [declare]
  split
  · rename_i known
    have member : mentioned ∈ history.names := Table.contains_iff_mem_keys.mp known
    rw [if_pos member]
  · rename_i unknown
    have fresh : mentioned ∉ history.names := fun member =>
      unknown (Table.contains_iff_mem_keys.mpr member)
    rw [if_neg fresh]
    exact Table.keys_insert_of_not_mem fresh Timeline.empty

/-- Of the names that are mentioned the new ones go to the end. -/
theorem names_foldl_declare (history : History τ ν) {mentioned : List String}
    (distinct : mentioned.Nodup) :
    (mentioned.foldl declare history).names =
      history.names ++ mentioned.filter (· ∉ history.names) := by
  induction mentioned generalizing history with
  | nil =>
      simp
  | cons name rest inductionHypothesis =>
      obtain ⟨notLater, restDistinct⟩ := List.nodup_cons.mp distinct
      rw [List.foldl_cons, inductionHypothesis _ restDistinct, names_declare]
      split
      · rename_i known
        rw [List.filter_cons_of_neg (by simpa using known)]
      · rename_i fresh
        have sameRest : rest.filter (· ∉ history.names ++ [name]) =
            rest.filter (· ∉ history.names) := by
          refine List.filter_congr fun other member => ?_
          have different : other ≠ name := fun same => notLater (same ▸ member)
          simp [different]
        rw [sameRest, List.filter_cons_of_pos (by simpa using fresh),
          List.append_assoc, List.singleton_append]

theorem timelineOf_foldl_declare (history : History τ ν) (mentioned : List String)
    (name : String) :
    (mentioned.foldl declare history).timelineOf name = history.timelineOf name := by
  induction mentioned generalizing history with
  | nil =>
      rfl
  | cons first rest inductionHypothesis =>
      rw [List.foldl_cons, inductionHypothesis, timelineOf_declare]

theorem cap_foldl_declare (history : History τ ν) (mentioned : List String) :
    (mentioned.foldl declare history).cap = history.cap := by
  induction mentioned generalizing history with
  | nil =>
      rfl
  | cons first rest inductionHypothesis =>
      rw [List.foldl_cons, inductionHypothesis, cap_declare]

/-- A timeline that is found is the timeline of its name. -/
theorem timelineOf_eq_of_get? {history : History τ ν} {name : String}
    {timeline : Timeline τ ν}
    (found : history.timelines.get? name = some timeline) :
    history.timelineOf name = timeline := by
  rw [History.timelineOf, found]
  rfl

/-- A history is sound if the timelines of all names are, known or not. -/
theorem sound_iff {history : History τ ν} :
    history.Sound ↔ ∀ name, Ascending (history.timelineOf name).entries ∧
      Fits history.cap (history.timelineOf name).entries := by
  constructor
  · exact Sound.timelineOf
  · intro all name timeline found
    rw [← timelineOf_eq_of_get? found]
    exact all name

theorem Sound.foldl_declare {history : History τ ν} (sound : history.Sound)
    (mentioned : List String) : (mentioned.foldl declare history).Sound := by
  rw [sound_iff] at sound ⊢
  simpa only [timelineOf_foldl_declare, cap_foldl_declare] using sound

theorem append_eq_ok_iff {history appended : History τ ν} {name : String}
    {entry : Entry τ ν} :
    history.append name entry = .ok appended ↔
      Newer (history.timelineOf name).entries entry.cycle ∧
        appended = { history with
          timelines := history.timelines.insert name
            ⟨makeRoom history.cap (history.timelineOf name).entries ++ [entry]⟩ } := by
  rw [append]
  cases pushed : (history.timelineOf name).push name history.cap entry with
  | error fault =>
      have stale : ¬ Newer (history.timelineOf name).entries entry.cycle := by
        intro newer
        rw [push_eq_ok_iff.mpr ⟨newer, rfl⟩] at pushed
        cases pushed
      simp [Except.map, stale]
  | ok timeline =>
      obtain ⟨newer, rfl⟩ := push_eq_ok_iff.mp pushed
      simp [Except.map, newer, eq_comm]

section Appended

variable {history appended : History τ ν} {name : String} {entry : Entry τ ν}
  (result : history.append name entry = .ok appended)

include result

theorem newer_of_append :
    Newer (history.timelineOf name).entries entry.cycle :=
  (append_eq_ok_iff.mp result).1

theorem cap_append : appended.cap = history.cap := by
  rw [(append_eq_ok_iff.mp result).2]

theorem names_append (known : name ∈ history.names) :
    appended.names = history.names := by
  rw [(append_eq_ok_iff.mp result).2]
  exact Table.keys_insert_of_mem known _

theorem timelineOf_append_self :
    (appended.timelineOf name).entries =
      makeRoom history.cap (history.timelineOf name).entries ++ [entry] := by
  rw [(append_eq_ok_iff.mp result).2, History.timelineOf, Table.get?_insert_self]
  rfl

theorem timelineOf_append_of_ne {other : String} (different : other ≠ name) :
    appended.timelineOf other = history.timelineOf other := by
  rw [(append_eq_ok_iff.mp result).2, History.timelineOf,
    Table.get?_insert_of_ne different, History.timelineOf]

theorem Sound.append (sound : history.Sound) (positive : history.cap ≠ some 0) :
    appended.Sound := by
  rw [sound_iff] at sound ⊢
  intro other
  rw [cap_append result]
  by_cases same : other = name
  · rw [same, timelineOf_append_self result]
    exact ⟨(sound name).1.append (newer_of_append result) history.cap,
      Fits.append positive entry⟩
  · rw [timelineOf_append_of_ne result same]
    exact sound other

end Appended

end History

/-! ## Restoring -/

namespace Snapshot

theorem fits_newest {α : Type} (cap : Option Nat) (entries : List α)
    {limit : Nat} (capped : cap = some limit) :
    (newest cap entries).length ≤ limit := by
  subst capped
  rw [newest, List.length_drop]
  omega

theorem restoreAll_cons_eq_ok {cap : Option Nat} {first : String × List SavedEntry}
    {rest : List (String × List SavedEntry)} {timelines : List (String × ValueTimeline)}
    (restored : restoreAll cap (first :: rest) = .ok timelines) :
    ∃ entries others, first.2.mapM SavedEntry.toEntry = .ok entries ∧
      restoreAll cap rest = .ok others ∧
        timelines = (first.1, Timeline.ofEntries (newest cap entries)) :: others := by
  rw [restoreAll] at restored
  cases decoded : first.2.mapM SavedEntry.toEntry with
  | error fault =>
      simp [decoded, bind, Except.bind] at restored
  | ok entries =>
      cases computed : restoreAll cap rest with
      | error fault =>
          simp [decoded, computed, bind, Except.bind] at restored
      | ok others =>
          simp only [decoded, computed, bind, Except.bind, pure, Except.pure,
            Except.ok.injEq] at restored
          exact ⟨entries, others, rfl, rfl, restored.symm⟩

/-- Every restored timeline comes from entries within the cap. -/
theorem exists_of_restoreAll {cap : Option Nat}
    {saved : List (String × List SavedEntry)}
    {timelines : List (String × ValueTimeline)}
    (restored : restoreAll cap saved = .ok timelines) :
    ∀ name timeline, (name, timeline) ∈ timelines →
      ∃ entries, timeline = Timeline.ofEntries (newest cap entries) := by
  induction saved generalizing timelines with
  | nil =>
      cases restored
      exact fun _ _ member => False.elim (List.not_mem_nil member)
  | cons first rest inductionHypothesis =>
      obtain ⟨entries, others, _, restRestored, rfl⟩ := restoreAll_cons_eq_ok restored
      intro name timeline member
      rcases List.mem_cons.mp member with same | inRest
      · cases same
        exact ⟨entries, rfl⟩
      · exact inductionHypothesis restRestored name timeline inRest

theorem keys_restoreAll {cap : Option Nat} {saved : List (String × List SavedEntry)}
    {timelines : List (String × ValueTimeline)}
    (restored : restoreAll cap saved = .ok timelines) :
    Entries.keys timelines = Entries.keys saved := by
  induction saved generalizing timelines with
  | nil =>
      cases restored
      rfl
  | cons first rest inductionHypothesis =>
      obtain ⟨_, _, _, restRestored, rfl⟩ := restoreAll_cons_eq_ok restored
      exact congrArg (List.cons first.1) (inductionHypothesis restRestored)

theorem exists_restoreAll_of_restore {snapshot : Snapshot} {cap : Option Nat}
    {history : ValueHistory} (restored : snapshot.restore cap = .ok history) :
    ∃ timelines, restoreAll cap snapshot.entries = .ok timelines ∧
      history = ⟨Table.ofList timelines, cap⟩ := by
  rw [restore] at restored
  cases computed : restoreAll cap snapshot.entries with
  | error fault =>
      rw [computed] at restored
      cases restored
  | ok timelines =>
      rw [computed] at restored
      exact ⟨timelines, rfl, (Except.ok.inj restored).symm⟩

/-- The names of a restored history are those of the saved one, in their order. -/
theorem names_restore {snapshot : Snapshot} {cap : Option Nat} {history : ValueHistory}
    (restored : snapshot.restore cap = .ok history) : history.names = snapshot.keys := by
  obtain ⟨timelines, computed, rfl⟩ := exists_restoreAll_of_restore restored
  have keys := keys_restoreAll computed
  have distinct : (Entries.keys timelines).Nodup := by
    rw [keys]
    exact snapshot.distinct
  rw [History.names, Table.keys, Table.entries_ofList distinct]
  exact keys

/-- Whatever was saved, what is restored is sound. -/
theorem sound_of_restore {snapshot : Snapshot} {cap : Option Nat}
    {history : ValueHistory} (restored : snapshot.restore cap = .ok history) :
    history.Sound ∧ history.cap = cap := by
  obtain ⟨timelines, computed, rfl⟩ := exists_restoreAll_of_restore restored
  refine ⟨?_, rfl⟩
  intro name timeline found
  obtain ⟨entries, rfl⟩ := exists_of_restoreAll computed name timeline
    (Table.mem_of_get?_ofList found)
  refine ⟨ascending_ofEntries _, fun limit capped => ?_⟩
  exact Nat.le_trans (length_ofEntries_le _) (fits_newest cap entries capped)

end Snapshot

end InSitu
