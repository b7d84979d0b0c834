import InSitu.Proofs.Json.Indentation
import InSitu.Proofs.Session.Saving
import InSitu.Proofs.Wire.Storing

/-!
# Restoring what was saved

A timeline that rises strictly and keeps to the cap is restored entry for entry:
there is nothing to cut off, to sort or to drop.  The text of a saved history is
indented and nests three levels more than the values in it, and it is read back
if its doubles are.
-/

namespace InSitu

open Timeline

namespace Timeline

variable {τ ν : Type}

theorem dropRepeats_eq_self {last : Option Cycle} {entries : List (Entry τ ν)}
    (ascending : Ascending entries) (fresh : ∀ entry ∈ entries, last ≠ some entry.cycle) :
    dropRepeats last entries = entries := by
  induction entries generalizing last with
  | nil =>
      rfl
  | cons entry rest inductionHypothesis =>
      obtain ⟨below, restAscending⟩ := List.pairwise_cons.mp ascending
      have restFresh : ∀ other ∈ rest, some entry.cycle ≠ some other.cycle := by
        intro other member same
        exact UInt64.ne_of_lt (below other member) (Option.some.inj same)
      rw [dropRepeats, if_neg (fresh entry List.mem_cons_self),
        inductionHypothesis restAscending restFresh]

/-- Entries in order are a timeline as they are. -/
theorem ofEntries_of_ascending {timeline : Timeline τ ν}
    (ascending : Ascending timeline.entries) : ofEntries timeline.entries = timeline := by
  have sorted : timeline.entries.Pairwise fun first second =>
      decide (first.cycle ≤ second.cycle) = true :=
    ascending.imp fun below => decide_eq_true (UInt64.le_of_lt below)
  rw [ofEntries, List.mergeSort_of_pairwise sorted,
    dropRepeats_eq_self ascending fun _ _ => by simp]

/-- The timeline with every value changed. -/
def mapValues (change : Value → Value) (timeline : ValueTimeline) : ValueTimeline :=
  ⟨timeline.entries.map fun entry => { entry with value := change entry.value }⟩

theorem ascending_mapValues {change : Value → Value} {timeline : ValueTimeline}
    (ascending : Ascending timeline.entries) : Ascending (timeline.mapValues change).entries :=
  List.pairwise_map.mpr ascending

theorem mapValues_id (timeline : ValueTimeline) : timeline.mapValues id = timeline :=
  congrArg Timeline.mk (List.map_id timeline.entries)

/-- What a cap must find for a timeline to be restored: entries in order, no more
than allowed, with values that their stored form gives back and with times that
are finite if they are known. -/
structure Restorable (cap : Option Nat) (timeline : ValueTimeline) : Prop where
  ascending : Ascending timeline.entries
  fits : Fits cap timeline.entries
  values : ∀ entry ∈ timeline.entries, (Wire.ofValue entry.value).toValue = .ok entry.value
  times : ∀ entry ∈ timeline.entries, ∀ time, entry.time = some time → time.isFinite = true

end Timeline

namespace Snapshot

theorem newest_of_fits {τ ν : Type} {cap : Option Nat} {entries : List (Entry τ ν)}
    (fits : Fits cap entries) : newest cap entries = entries := by
  cases cap with
  | none =>
      rfl
  | some limit =>
      rw [newest, Nat.sub_eq_zero_of_le (fits limit rfl), List.drop_zero]

theorem toEntry_ofEntry (name : String) {entry : ValueEntry} {value : Value}
    (meant : (Wire.ofValue entry.value).toValue = .ok value) :
    (SavedEntry.ofEntry name entry).toEntry = .ok { entry with value } := by
  rw [SavedEntry.toEntry, SavedEntry.ofEntry, Wire.toValue_withName, meant]
  rfl

/-- Timelines in order are restored with the values that the stored forms of theirs mean. -/
theorem restoreAll_ofEntry_of_changed {cap : Option Nat} {change : Value → Value}
    {timelines : List (String × ValueTimeline)}
    (ordered : ∀ line ∈ timelines, Ascending line.2.entries ∧ Fits cap line.2.entries)
    (changed : ∀ line ∈ timelines, ∀ entry ∈ line.2.entries,
      (Wire.ofValue entry.value).toValue = .ok (change entry.value)) :
    restoreAll cap (timelines.map fun line =>
      (line.1, line.2.entries.map (SavedEntry.ofEntry line.1))) =
        .ok (timelines.map fun line => (line.1, line.2.mapValues change)) := by
  induction timelines with
  | nil =>
      rfl
  | cons line rest inductionHypothesis =>
      obtain ⟨⟨ascending, fits⟩, restOrdered⟩ := List.forall_mem_cons.mp ordered
      obtain ⟨lineChanged, restChanged⟩ := List.forall_mem_cons.mp changed
      have decoded : (line.2.entries.map (SavedEntry.ofEntry line.1)).mapM SavedEntry.toEntry =
          .ok (line.2.mapValues change).entries := by
        rw [List.mapM_map]
        exact mapM_eq_pure_map fun entry member =>
          toEntry_ofEntry line.1 (lineChanged entry member)
      have mappedFits : Fits cap (line.2.mapValues change).entries := by
        intro limit capped
        rw [mapValues, List.length_map]
        exact fits limit capped
      have same : Timeline.ofEntries (newest cap (line.2.mapValues change).entries) =
          line.2.mapValues change := by
        rw [newest_of_fits mappedFits, ofEntries_of_ascending (ascending_mapValues ascending)]
      rw [List.map_cons, restoreAll, decoded, inductionHypothesis restOrdered restChanged]
      simp only [bind, Except.bind, same]
      rfl

theorem restoreAll_ofEntry {cap : Option Nat} {timelines : List (String × ValueTimeline)}
    (restorable : ∀ line ∈ timelines, line.2.Restorable cap) :
    restoreAll cap (timelines.map fun line =>
      (line.1, line.2.entries.map (SavedEntry.ofEntry line.1))) = .ok timelines := by
  have same : (timelines.map fun line => (line.1, line.2.mapValues id)) = timelines :=
    (List.map_congr_left fun line _ => congrArg (Prod.mk line.1) line.2.mapValues_id).trans
      (List.map_id timelines)
  have restored := @restoreAll_ofEntry_of_changed cap id timelines
    (fun line member => ⟨(restorable line member).ascending, (restorable line member).fits⟩)
    (fun line member => (restorable line member).values)
  rwa [same] at restored

/-- The part of a history that is selected, with a cap of its own. -/
def kept (history : ValueHistory) (selection : List String) (cap : Option Nat) : ValueHistory :=
  ⟨history.timelines.restrict fun name => selection.isEmpty || selection.contains name, cap⟩

theorem selects_iff (selection : List String) (name : String) :
    (selection.isEmpty || selection.contains name) = true ↔ Selects selection name := by
  rw [Bool.or_eq_true, List.isEmpty_iff, List.contains_iff_mem, Selects]

theorem restore_capture {history : ValueHistory} {cap : Option Nat}
    (restorable : ∀ line ∈ history.timelines.entries, line.2.Restorable cap)
    (selection : List String) :
    (capture history selection).restore cap = .ok (kept history selection cap) := by
  have selected : ∀ line ∈ (kept history selection cap).timelines.entries,
      line.2.Restorable cap :=
    fun line member => restorable line (List.mem_of_mem_filter member)
  have restored := restoreAll_ofEntry selected
  rw [restore]
  have saved : (capture history selection).entries =
      (kept history selection cap).timelines.entries.map fun line =>
        (line.1, line.2.entries.map (SavedEntry.ofEntry line.1)) := rfl
  rw [saved, restored]
  dsimp only
  rw [Table.ofList_entries]
  rfl

end Snapshot

namespace SavedEntry

/-- A saved entry that its record determines. -/
structure Plain (saved : SavedEntry) : Prop where
  value : saved.value.Plain
  shallow : saved.value.Shallow 121
  time : ∀ time, saved.time = some time → time.isFinite = true

theorem natural?_cycle (cycle : Cycle) :
    Json.natural? (.integer cycle.toNat) = some cycle.toNat := by
  have inWord : cycle.toNat < UInt64.size := cycle.toNat_lt
  rw [Json.natural?, Number.natural?, Int.toNat_natCast, if_pos ⟨by omega, inWord⟩]

theorem ofJson?_toJson {saved : SavedEntry} (plain : saved.Plain) :
    ofJson? saved.toJson = some saved := by
  have value := Wire.ofJson?_toJson saved.value plain.value
  have cycle := natural?_cycle saved.cycle
  have finite := plain.time
  obtain ⟨number, time, wire⟩ := saved
  cases time with
  | none =>
      have record : (toJson ⟨number, none, wire⟩).record? ["cycle", "time", "value"] =
          some ⟨[("cycle", .integer number.toNat), ("value", wire.toJson)]⟩ := rfl
      rw [ofJson?, record]
      simp [Json.Record.required, Json.Record.defaulted, Entries.get?, cycle, value]
  | some time =>
      have written : finiteOrNull time = .double time := if_pos (finite time rfl)
      have record : (toJson ⟨number, some time, wire⟩).record? ["cycle", "time", "value"] =
          some ⟨[("cycle", .integer number.toNat), ("time", .double time),
            ("value", wire.toJson)]⟩ := by
        rw [← written]
        rfl
      rw [ofJson?, record]
      simp [Json.Record.required, Json.Record.defaulted, Entries.get?, cycle, value,
        Json.optional?, Json.number?]

theorem legible_toJson {saved : SavedEntry} (plain : saved.Plain) :
    saved.toJson.Legible 125 := by
  have value := plain.shallow.legible_toJson
  refine Json.legible_object fun field member => ?_
  simp only [List.mem_cons, List.mem_append, Option.mem_toList, Option.map_eq_some_iff,
    List.not_mem_nil, or_false] at member
  rcases member with (rfl | ⟨time, _, rfl⟩) | rfl
  · have inWord : saved.cycle.toNat < UInt64.size := saved.cycle.toNat_lt
    have size : UInt64.size = 2 ^ 64 := rfl
    change -2 ^ 63 ≤ (saved.cycle.toNat : Int) ∧ (saved.cycle.toNat : Int) < 2 ^ 64
    omega
  · exact legible_finiteOrNull time _
  · exact value

end SavedEntry

namespace Snapshot

theorem legible_toJson {snapshot : Snapshot}
    (plain : ∀ line ∈ snapshot.entries, ∀ saved ∈ line.2, saved.Plain) :
    snapshot.toJson.Legible Json.depthLimit := by
  refine Json.legible_object fun field member => ?_
  obtain ⟨line, isLine, rfl⟩ := List.mem_map.mp member
  exact Json.legible_map_array fun saved isSaved =>
    SavedEntry.legible_toJson (plain line isLine saved isSaved)

theorem tableOf?_toJson {snapshot : Snapshot}
    (plain : ∀ line ∈ snapshot.entries, ∀ saved ∈ line.2, saved.Plain) :
    Json.tableOf? (Json.listOf? SavedEntry.ofJson?) snapshot.toJson = some snapshot := by
  have lines : Json.fieldsOf? (Json.listOf? SavedEntry.ofJson?)
      (snapshot.entries.map fun line => (line.1, .array (line.2.map SavedEntry.toJson))) =
        some snapshot.entries := by
    rw [Json.fieldsOf?, List.mapM_map]
    refine mapM_eq_pure fun line isLine => ?_
    have entries : (line.2.map SavedEntry.toJson).mapM SavedEntry.ofJson? = some line.2 := by
      rw [List.mapM_map]
      exact mapM_eq_pure fun saved isSaved =>
        SavedEntry.ofJson?_toJson (plain line isLine saved isSaved)
    change ((line.2.map SavedEntry.toJson).mapM SavedEntry.ofJson?).map _ = _
    rw [entries]
    rfl
  change (Json.fieldsOf? _ _).map Table.ofList = _
  rw [lines, Option.map_some, Table.ofList_entries]

/-- The text of a saved history is read back if its doubles are. -/
theorem parse_text {snapshot : Snapshot}
    (plain : ∀ line ∈ snapshot.entries, ∀ saved ∈ line.2, saved.Plain)
    (readBack : ∀ x ∈ snapshot.toJson.doubles, Json.ReadsBack x) :
    parse snapshot.text = .ok snapshot := by
  rw [parse, text, Json.parse?_pretty (legible_toJson plain) readBack, Option.bind_some,
    tableOf?_toJson plain]

theorem plain_ofEntry {cap : Option Nat} {timeline : ValueTimeline}
    (restorable : timeline.Restorable cap) (name : String) {entry : ValueEntry}
    (member : entry ∈ timeline.entries) : (SavedEntry.ofEntry name entry).Plain where
  value := Wire.plain_recorded entry.value (some name)
  shallow := Wire.shallow_recorded
    (Wire.wellFormed_toValue _ _ (restorable.values entry member)) (some name) 118
  time := restorable.times entry member

theorem plain_capture {history : ValueHistory} {cap : Option Nat}
    (restorable : ∀ line ∈ history.timelines.entries, line.2.Restorable cap)
    (selection : List String) :
    ∀ line ∈ (capture history selection).entries, ∀ saved ∈ line.2, saved.Plain := by
  rintro line isLine saved isSaved
  obtain ⟨timeline, found, _, stored⟩ := mem_capture_iff.mp isLine
  rw [stored] at isSaved
  obtain ⟨entry, isEntry, rfl⟩ := List.mem_map.mp isSaved
  exact plain_ofEntry (restorable _ (Table.get?_eq_some_iff.mp found)) line.1 isEntry

/-! ## Selections -/

theorem kept_all (history : ValueHistory) : kept history [] history.cap = history := by
  obtain ⟨timelines, cap⟩ := history
  have all : (timelines.restrict fun _ => true) = timelines :=
    Table.eq_of_entries_eq (List.filter_eq_self.mpr fun _ _ => rfl)
  exact congrArg (History.mk · cap) all

theorem names_kept (history : ValueHistory) (selection : List String) (cap : Option Nat) :
    (kept history selection cap).names =
      if selection = [] then history.names else history.names.filter (· ∈ selection) := by
  rw [History.names, kept, Table.keys_restrict]
  by_cases all : selection = []
  · simp [all, History.names]
  · have some : selection.isEmpty = false := by
      simpa using all
    simp [all, some, History.names]

theorem get?_kept (history : ValueHistory) (selection : List String) (cap : Option Nat)
    (name : String) :
    (Selects selection name →
        (kept history selection cap).timelines.get? name = history.timelines.get? name) ∧
      (¬ Selects selection name → (kept history selection cap).timelines.get? name = none) := by
  have mem_kept : ∀ timeline,
      (kept history selection cap).timelines.get? name = some timeline ↔
        history.timelines.get? name = some timeline ∧ Selects selection name := by
    intro timeline
    rw [Table.get?_eq_some_iff, Table.get?_eq_some_iff, ← selects_iff]
    exact List.mem_filter
  refine ⟨fun selected => Option.ext fun timeline => ?_, fun dropped => ?_⟩
  · simp [mem_kept, selected]
  · exact Option.eq_none_iff_forall_ne_some.mpr fun timeline found =>
      dropped ((mem_kept timeline).mp found).2

/-- Selections that are made count by the names that there are. -/
theorem capture_congr {history : ValueHistory} {selection other : List String}
    (selects : selection ≠ []) (otherSelects : other ≠ [])
    (alike : ∀ name ∈ history.names, name ∈ other ↔ name ∈ selection) :
    capture history other = capture history selection := by
  have same : (history.timelines.restrict fun name => other.isEmpty || other.contains name) =
      history.timelines.restrict fun name => selection.isEmpty || selection.contains name := by
    apply Table.eq_of_entries_eq
    refine List.filter_congr fun line member => ?_
    have known : line.1 ∈ history.names := List.mem_map_of_mem member
    rw [Bool.eq_iff_iff, selects_iff, selects_iff, Selects, Selects]
    simp [selects, otherSelects, alike line.1 known]
  rw [capture, capture, same]

/-- A history in order is restored exactly as far as it was selected, directly and through the
text of the saved one if the doubles in this text are read back: the selected names in their order,
those without an entry too, and of each the same timeline; without a selection that is the history
itself.  Selected names that the history does not have make no difference. -/
theorem saved_history_is_restored {history : ValueHistory} {cap : Option Nat}
    (restorable : ∀ line ∈ history.timelines.entries, line.2.Restorable cap)
    (selection : List String) :
    ((capture history selection).restore cap = .ok (kept history selection cap) ∧
      ((∀ x ∈ (capture history selection).toJson.doubles, Json.ReadsBack x) →
        ((parse (capture history selection).text).bind fun snapshot => snapshot.restore cap) =
          .ok (kept history selection cap))) ∧
    (kept history selection cap).names =
      (if selection = [] then history.names else history.names.filter (· ∈ selection)) ∧
    (∀ name,
      (Selects selection name →
        (kept history selection cap).timelines.get? name = history.timelines.get? name) ∧
      (¬ Selects selection name → (kept history selection cap).timelines.get? name = none)) ∧
    kept history [] history.cap = history ∧
    ∀ other, selection ≠ [] → other ≠ [] →
      (∀ name ∈ history.names, name ∈ other ↔ name ∈ selection) →
        capture history other = capture history selection := by
  have restored := restore_capture restorable selection
  refine ⟨⟨restored, fun readBack => ?_⟩, names_kept history selection cap,
    get?_kept history selection cap, kept_all history, fun other selects otherSelects =>
      capture_congr selects otherSelects⟩
  rw [parse_text (plain_capture restorable selection) readBack]
  exact restored

/-- Two entries, a name without one, and a name with an entry again. -/
def twoRuns : ValueHistory :=
  ⟨Table.ofList
    [("p", ⟨[⟨1, some 0.5, .int 3⟩, ⟨4, none, .double 1.5⟩]⟩),
    ("idle", ⟨[]⟩),
    ("q", ⟨[⟨4, none, .null⟩]⟩)], some 2⟩

theorem restorable_twoRuns :
    ∀ line ∈ twoRuns.timelines.entries, line.2.Restorable (some 2) := by
  have lines : twoRuns.timelines.entries =
      [("p", ⟨[⟨1, some 0.5, .int 3⟩, ⟨4, none, .double 1.5⟩]⟩), ("idle", ⟨[]⟩),
        ("q", ⟨[⟨4, none, .null⟩]⟩)] := rfl
  have fits {entries : List ValueEntry} (short : entries.length ≤ 2) :
      Fits (some 2) entries := by
    rintro limit ⟨⟩
    exact short
  have survives (value : Value) (storable : value.Storable) :
      (Wire.ofValue value).toValue = .ok value := Wire.toValue_ofValue storable
  intro line member
  rw [lines] at member
  simp only [List.mem_cons, List.not_mem_nil, or_false] at member
  rcases member with rfl | rfl | rfl
  · refine ⟨?_, fits (by decide), ?_, ?_⟩
    · simp [Ascending]
    · simp [survives (.int 3) trivial, survives (.double 1.5) trivial]
    · have half : Float.isFinite 0.5 = true := by
        decide +kernel
      simp [half]
  · refine ⟨List.Pairwise.nil, fits (by decide), ?_, ?_⟩
    · simp
    · simp
  · refine ⟨List.pairwise_singleton _ _, fits (by decide), ?_, ?_⟩
    · simp [survives .null trivial]
    · simp

theorem twoRuns_are_restored :
    (∀ line ∈ twoRuns.timelines.entries, line.2.Restorable (some 2)) ∧
      (kept twoRuns ["idle", "missing", "p"] (some 2)).names = ["p", "idle"] ∧
      (capture twoRuns ["idle", "missing", "p"]).restore (some 2) =
        .ok (kept twoRuns ["idle", "missing", "p"] (some 2)) ∧
      ((parse (capture twoRuns ["idle", "missing", "p"]).text).bind fun snapshot =>
        snapshot.restore (some 2)) = .ok (kept twoRuns ["idle", "missing", "p"] (some 2)) := by
  obtain ⟨⟨direct, throughText⟩, names, _⟩ :=
    saved_history_is_restored restorable_twoRuns ["idle", "missing", "p"]
  have doubles : (capture twoRuns ["idle", "missing", "p"]).toJson.doubles = [0.5, 1.5] := by
    decide +kernel
  have half : Json.ReadsBack 0.5 :=
    Json.readsBack_of_text "0.5" ⟨false, ['0'], ['5'], none⟩ (by decide) (by decide +kernel)
      (by cbv) rfl
  have oneAndAHalf : Json.ReadsBack 1.5 :=
    Json.readsBack_of_text "1.5" ⟨false, ['1'], ['5'], none⟩ (by decide) (by decide +kernel)
      (by cbv) rfl
  refine ⟨restorable_twoRuns, names.trans (by decide), direct, throughText ?_⟩
  rw [doubles]
  simp [half, oneAndAHalf]

end Snapshot

end InSitu
