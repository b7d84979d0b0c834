import InSitu.Proofs.Session.Axes

/-!
# Saving and loading a history

A saved history is loaded unless one of its entries has lost its meaning.
-/

namespace InSitu

namespace Snapshot

/-- A name is saved if it is selected; without a selection all are. -/
def Selects (selection : List String) (name : String) : Prop :=
  selection = [] ∨ name ∈ selection

theorem exists_toEntry_eq_error_iff (saved : SavedEntry) :
    (∃ fault, saved.toEntry = .error fault) ↔ ∃ fault, saved.value.toValue = .error fault := by
  rw [SavedEntry.toEntry]
  cases saved.value.toValue with
  | error fault =>
      simp [Except.map]
  | ok value =>
      simp [Except.map]

theorem exists_restoreAll_eq_error_iff (cap : Option Nat)
    (saved : List (String × List SavedEntry)) :
    (∃ fault, restoreAll cap saved = .error fault) ↔
      ∃ line ∈ saved, ∃ entry ∈ line.2, ∃ fault, entry.toEntry = .error fault := by
  induction saved with
  | nil =>
      simp [restoreAll]
  | cons first rest inductionHypothesis =>
      obtain ⟨name, entries⟩ := first
      rw [restoreAll, exists_both_eq_error_iff, exists_mapM_eq_error_iff, inductionHypothesis]
      simp only [List.mem_cons, exists_eq_or_imp]

/-- The lines of a capture are the selected timelines, each entry in its stored form. -/
theorem mem_capture_iff {history : ValueHistory} {selection : List String}
    {line : String × List SavedEntry} :
    line ∈ (capture history selection).entries ↔
      ∃ timeline, history.timelines.get? line.1 = some timeline ∧ Selects selection line.1 ∧
        line.2 = timeline.entries.map (SavedEntry.ofEntry line.1) := by
  obtain ⟨name, saved⟩ := line
  simp only [capture, Table.map, Table.restrict, List.mem_map, List.mem_filter, Bool.or_eq_true,
    List.isEmpty_iff, List.contains_iff_mem, Prod.mk.injEq, Prod.exists, Selects,
    Table.get?_eq_some_iff]
  constructor
  · rintro ⟨_, timeline, ⟨member, selected⟩, rfl, rfl⟩
    exact ⟨timeline, member, selected, rfl⟩
  · rintro ⟨timeline, member, selected, rfl⟩
    exact ⟨name, timeline, ⟨member, selected⟩, rfl, rfl⟩

/-- Loading a capture fails if a selected entry is stored in a form without a meaning, and only
then. -/
theorem exists_restore_capture_eq_error_iff (history : ValueHistory) (selection : List String)
    (cap : Option Nat) :
    (∃ fault, (capture history selection).restore cap = .error fault) ↔
      ∃ name, Selects selection name ∧ ∃ entry ∈ (history.timelineOf name).entries,
        ∃ fault, (Wire.ofValue entry.value).toValue = .error fault := by
  have failing : (∃ fault, (capture history selection).restore cap = .error fault) ↔
      ∃ fault, restoreAll cap (capture history selection).entries = .error fault := by
    rw [restore]
    cases restoreAll cap (capture history selection).entries with
    | error fault =>
        simp
    | ok timelines =>
        simp
  rw [failing, exists_restoreAll_eq_error_iff]
  constructor
  · rintro ⟨⟨name, saved⟩, member, stored, isStored, fails⟩
    obtain ⟨timeline, found, selected, same⟩ := mem_capture_iff.mp member
    dsimp only at found selected same isStored
    rw [same] at isStored
    obtain ⟨entry, isEntry, rfl⟩ := List.mem_map.mp isStored
    refine ⟨name, selected, entry, ?_, ?_⟩
    · rw [History.timelineOf_eq_of_get? found]
      exact isEntry
    · rwa [exists_toEntry_eq_error_iff, SavedEntry.ofEntry, Wire.toValue_withName] at fails
  · rintro ⟨name, selected, entry, isEntry, fails⟩
    cases found : history.timelines.get? name with
    | none =>
        rw [History.timelineOf, found] at isEntry
        cases isEntry
    | some timeline =>
        rw [History.timelineOf_eq_of_get? found] at isEntry
        refine ⟨(name, timeline.entries.map (SavedEntry.ofEntry name)),
          mem_capture_iff.mpr ⟨timeline, found, selected, rfl⟩,
          SavedEntry.ofEntry name entry, List.mem_map_of_mem isEntry, ?_⟩
        rwa [exists_toEntry_eq_error_iff, SavedEntry.ofEntry, Wire.toValue_withName]

theorem mem_of_mem_ofEntries {entries : List ValueEntry} {entry : ValueEntry}
    (member : entry ∈ (Timeline.ofEntries entries).entries) : entry ∈ entries := by
  have kept := (Timeline.dropRepeats_sublist none _).subset member
  exact List.mem_mergeSort.mp kept

theorem mem_of_mem_newest {α : Type} {cap : Option Nat} {entries : List α} {entry : α}
    (member : entry ∈ newest cap entries) : entry ∈ entries := by
  cases cap with
  | none =>
      exact member
  | some limit =>
      exact List.mem_of_mem_drop member

theorem yields_toEntry {P : Value → Prop} {stored : SavedEntry}
    (yields : Yields P stored.value.toValue) :
    Yields (fun entry : ValueEntry => P entry.value) stored.toEntry :=
  yields_map.mpr yields

/-- What holds of the meaning of every saved value holds of every restored one. -/
theorem yields_restoreAll {P : Value → Prop} (cap : Option Nat)
    {saved : List (String × List SavedEntry)}
    (values : ∀ line ∈ saved, ∀ stored ∈ line.2, Yields P stored.value.toValue) :
    Yields (fun timelines : List (String × ValueTimeline) =>
        ∀ line ∈ timelines, ∀ entry ∈ line.2.entries, P entry.value)
      (restoreAll cap saved) := by
  induction saved with
  | nil =>
      simp [restoreAll]
  | cons first rest inductionHypothesis =>
      obtain ⟨name, stored⟩ := first
      obtain ⟨storedValues, restValues⟩ := List.forall_mem_cons.mp values
      simp only [restoreAll, yields_bind, yields_pure, List.forall_mem_cons]
      intro entries read others restored
      have entryValues : ∀ entry ∈ entries, P entry.value :=
        yields_mapM (fun saved member => yields_toEntry (storedValues saved member)) entries read
      exact ⟨fun entry member =>
          entryValues entry (mem_of_mem_newest (mem_of_mem_ofEntries member)),
        inductionHypothesis restValues others restored⟩

theorem yields_restore {P : Value → Prop} {snapshot : Snapshot} (cap : Option Nat)
    (values : ∀ line ∈ snapshot.entries, ∀ stored ∈ line.2, Yields P stored.value.toValue) :
    Yields (fun history : ValueHistory =>
        ∀ line ∈ history.timelines.entries, ∀ entry ∈ line.2.entries, P entry.value)
      (snapshot.restore cap) := by
  intro history restored line isLine
  obtain ⟨timelines, computed, rfl⟩ := exists_restoreAll_of_restore restored
  exact yields_restoreAll cap values timelines computed line
    (Table.mem_of_get?_ofList (Table.get?_eq_some_iff.mpr isLine))

theorem wellFormed_restore (snapshot : Snapshot) (cap : Option Nat) :
    Yields History.WellFormed (snapshot.restore cap) := by
  intro history restored name entry member
  have values := yields_restore cap
    (fun _ _ stored _ => Wire.wellFormed_toValue stored.value) history restored
  rw [History.timelineOf] at member
  cases found : history.timelines.get? name with
  | none =>
      rw [found] at member
      cases member
  | some timeline =>
      rw [found] at member
      exact values _ (Table.get?_eq_some_iff.mp found) entry member

end Snapshot

namespace Session

/-! ## Runs -/

/-- The literals of all expressions of a cycle hold axes that can be asked for. -/
def Call.WellFormed : Call → Prop
  | .cycle _ expressions => ∀ entry ∈ expressions.entries, entry.2.LiteralsWellFormed
  | _ => True

theorem wellFormed_of_create {config : Config} {start : Session}
    (created : create config = .ok start) : start.history.WellFormed := by
  rw [create] at created
  cases checked : config.check with
  | error fault =>
      rw [checked] at created
      cases created
  | ok _ =>
      rw [checked] at created
      cases created
      exact History.wellFormed_empty _

theorem wellFormed_perform {session : Session} (counted : session.config.defaultBins < UInt64.size)
    (wellFormed : session.history.WellFormed) {call : Call} (literals : call.WellFormed) :
    (session.perform call).1.history.WellFormed := by
  cases call with
  | cycle mesh expressions =>
      obtain ⟨front, back, values, split, recording, _⟩ :=
        runCycle_recording session mesh expressions
      refine recording.wellFormed counted (fun entry member => literals entry ?_)
        (wellFormed.foldl_declare expressions.keys)
      rw [split]
      exact List.mem_append_left back member
  | load content =>
      rcases perform_load_cases session content with
        ⟨fault, failed⟩ | ⟨snapshot, history, restored, loaded⟩
      · rw [failed]
        exact wellFormed
      · rw [loaded]
        exact Snapshot.wellFormed_restore snapshot _ history restored
  | resetSymbols =>
      exact wellFormed

theorem Sound.wellFormed_performAll {session : Session} (sound : session.Sound)
    (counted : session.config.defaultBins < UInt64.size)
    (wellFormed : session.history.WellFormed) {calls : List Call}
    (literals : ∀ call ∈ calls, call.WellFormed) :
    (session.performAll calls).history.WellFormed := by
  induction calls generalizing session with
  | nil =>
      exact wellFormed
  | cons call rest inductionHypothesis =>
      obtain ⟨first, others⟩ := List.forall_mem_cons.mp literals
      obtain ⟨performedSound, sameConfig⟩ := sound.perform call
      refine inductionHypothesis performedSound ?_ (wellFormed_perform counted wellFormed first)
        others
      rw [sameConfig]
      exact counted

/-- Whatever is called on a new session, what it saves is loaded again unless a saved value holds
what its stored form cannot say: a bound of a binning or an edge of an axis that is not finite, or a
variable of a lineout that is named like the empty value.  One such value is enough to lose the
history. -/
theorem saved_history_is_refused_iff {config : Config} {start : Session}
    (created : create config = .ok start) (counted : config.defaultBins < UInt64.size)
    {calls : List Call} (literals : ∀ call ∈ calls, call.WellFormed) (selection : List String)
    (cap : Option Nat) :
    (∃ fault,
      (Snapshot.capture (start.performAll calls).history selection).restore cap = .error fault) ↔
      ∃ name, Snapshot.Selects selection name ∧
        ∃ entry ∈ ((start.performAll calls).history.timelineOf name).entries,
          entry.value.Unreadable := by
  have empty := wellFormed_of_create created
  obtain ⟨sound, rfl⟩ := sound_of_create created
  have wellFormed := sound.wellFormed_performAll counted empty literals
  rw [Snapshot.exists_restore_capture_eq_error_iff]
  constructor
  · rintro ⟨name, selected, entry, member, fails⟩
    exact ⟨name, selected, entry, member,
      (Wire.exists_toValue_ofValue_eq_error_iff (wellFormed name entry member)).mp fails⟩
  · rintro ⟨name, selected, entry, member, unreadable⟩
    exact ⟨name, selected, entry, member,
      (Wire.exists_toValue_ofValue_eq_error_iff (wellFormed name entry member)).mpr unreadable⟩

/-- The expression whose value is an axis along `x` with the given edges. -/
def listedAxis (edges : List Float) : Graph :=
  ⟨"axis",
    Table.ofList [
      ("name", ⟨.literal .string (.string "x"), Table.empty⟩),
      ("edges", ⟨.literal .any (.array (.doubles edges)), Table.empty⟩),
      ("axis", ⟨.axis, Table.ofList [("name", "name"), ("bins", "edges")]⟩)],
    some "axis"⟩

/-- A new session with the default settings. -/
def unlimited : Session := ⟨History.empty none, Table.empty, {}⟩

/-- The session in which an axis with the given edges has been recorded. -/
def withListedAxis (edges : List Float) : Session :=
  unlimited.performAll [.cycle (bareMesh 1) (Table.ofList [("axis", listedAxis edges)])]

theorem verify_listedAxis (edges : List Float) :
    (listedAxis edges).verify = .ok [["edges", "name"], ["axis"]] := by
  cbv

theorem wellFormed_listedAxis (edges : List Float) : (listedAxis edges).LiteralsWellFormed := by
  intro name node found
  rcases Entries.mem_of_get?_eq_some found with _ | ⟨_, _ | ⟨_, _ | ⟨_, none⟩⟩⟩
  · trivial
  · trivial
  · trivial
  · cases none

theorem entries_withListedAxis {edges : List Float} {value : Value}
    (runs : ∀ history symbols, ((listedAxis edges).runNodes ⟨history, bareMesh 1, {}⟩
      ["edges", "name", "axis"] Table.empty symbols).2.bind (listedAxis edges).outputValue =
        .ok value) :
    ((withListedAxis edges).history.timelineOf "axis").entries = [entryOf (bareMesh 1) value] := by
  have evaluated (history : ValueHistory) (symbols : Symbols) :
      ((listedAxis edges).evaluate ⟨history, bareMesh 1, {}⟩ symbols).2 = .ok value := by
    rw [Graph.evaluate, verify_listedAxis]
    exact runs history symbols
  change (History.timelineOf
    (evaluateAll _ _ [("axis", listedAxis edges)]).1.history "axis").entries = _
  rw [evaluateAll, evaluateOne]
  simp only [environment, declareAll, unlimited, evaluated]
  rfl

theorem entries_endless :
    ((withListedAxis [Number.negativeInfinity, 0.0, Number.infinity]).history.timelineOf
        "axis").entries =
      [entryOf (bareMesh 1) (.axisList
        [⟨"x", false, .edged [Number.negativeInfinity, 0.0, Number.infinity]⟩])] :=
  entries_withListedAxis fun _ _ => rfl

theorem entries_ended :
    ((withListedAxis [-0.5, 0.0, 1.5]).history.timelineOf "axis").entries =
      [entryOf (bareMesh 1) (.axisList [⟨"x", false, .edged [-0.5, 0.0, 1.5]⟩])] :=
  entries_withListedAxis fun _ _ => rfl

/-- An axis that reaches to infinity on both sides is recorded on a dataset that passes its own
check, and the history with it cannot be loaded. -/
theorem endless_history_is_refused :
    PointMesh.check ⟨1, none, "mesh", [], Table.empty⟩ = .ok () ∧
      create {} = .ok unlimited ∧
      ∃ fault, (Snapshot.capture
        (withListedAxis [Number.negativeInfinity, 0.0, Number.infinity]).history []).restore none =
          .error fault := by
  refine ⟨rfl, rfl, ?_⟩
  rw [Snapshot.exists_restore_capture_eq_error_iff]
  refine ⟨"axis", .inl rfl, _, entries_endless ▸ List.mem_singleton_self _, ?_⟩
  exact ⟨.payload .axisList .badAxisLiteral, rfl⟩

theorem listedAxis_histories_ended_and_endless :
    create {} = .ok unlimited ∧
      (¬ ∃ fault, (Snapshot.capture (withListedAxis [-0.5, 0.0, 1.5]).history ["axis"]).restore
        none = .error fault) ∧
      ∃ fault, (Snapshot.capture
        (withListedAxis [Number.negativeInfinity, 0.0, Number.infinity]).history []).restore none =
          .error fault := by
  have created : create {} = .ok unlimited := rfl
  have counted : ({} : Config).defaultBins < UInt64.size := by
    decide
  have literals (edges : List Float) : ∀ call ∈
      [Call.cycle (bareMesh 1) (Table.ofList [("axis", listedAxis edges)])], call.WellFormed := by
    intro call member
    rw [List.mem_singleton.mp member]
    intro entry isExpression
    rw [List.mem_singleton.mp isExpression]
    exact wellFormed_listedAxis edges
  refine ⟨created, ?_, ?_⟩
  · intro fails
    obtain ⟨name, selected, entry, member, unreadable⟩ :=
      (saved_history_is_refused_iff created counted (literals _) _ _).mp fails
    have isAxis : name = "axis" := by
      simpa [Snapshot.Selects] using selected
    subst isAxis
    rw [← withListedAxis, entries_ended, List.mem_singleton] at member
    subst member
    obtain ⟨spec, isSpec, x, listed, notFinite⟩ := unreadable
    rw [List.mem_singleton.mp isSpec] at listed
    have finite : ∀ x ∈ [-0.5, 0.0, 1.5], Float.isFinite x = true := by
      decide +kernel
    rw [finite x listed] at notFinite
    cases notFinite
  · refine (saved_history_is_refused_iff created counted (literals _) _ _).mpr
      ⟨"axis", .inl rfl, _, entries_endless ▸ List.mem_singleton_self _, ?_⟩
    exact ⟨_, List.mem_singleton_self _, Number.infinity, by simp [AxisSpec.listedEdges], rfl⟩

end Session

end InSitu
