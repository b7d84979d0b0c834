import InSitu.Proofs.Session.Restoring
import InSitu.Proofs.Wire.Clipping

/-!
# Saving again what was loaded

Whatever text a history was loaded from, it is saved in a form that can be loaded.
What comes back is the history with its values clipped to signed words, and that
is the history itself unless one of its numbers is too large.  Saved once more it
stays as it is.
-/

namespace InSitu

/-- The history with all its values clipped. -/
def History.clip (history : ValueHistory) : ValueHistory :=
  ⟨history.timelines.map fun _ timeline => timeline.mapValues Value.clip, history.cap⟩

/-- Entries in order, with values that can have been read. -/
structure Timeline.Decoded (timeline : ValueTimeline) : Prop where
  ascending : Timeline.Ascending timeline.entries
  values : ∀ entry ∈ timeline.entries, entry.value.Decoded

theorem Timeline.Decoded.clip {timeline : ValueTimeline} (decoded : timeline.Decoded) :
    (timeline.mapValues Value.clip).Decoded := by
  refine ⟨Timeline.ascending_mapValues decoded.ascending, fun entry member => ?_⟩
  obtain ⟨former, isFormer, rfl⟩ := List.mem_map.mp member
  exact (decoded.values former isFormer).clip

theorem Timeline.mapValues_eq_self_iff {change : Value → Value} {timeline : ValueTimeline} :
    timeline.mapValues change = timeline ↔
      ∀ entry ∈ timeline.entries, change entry.value = entry.value := by
  obtain ⟨entries⟩ := timeline
  rw [Timeline.mapValues, Timeline.mk.injEq, map_eq_self_iff]
  refine forall₂_congr fun entry _ => ?_
  obtain ⟨cycle, time, value⟩ := entry
  simp

/-- A history as it may have been restored without a cap. -/
structure History.Decoded (history : ValueHistory) : Prop where
  uncapped : history.cap = none
  timelines : ∀ line ∈ history.timelines.entries, line.2.Decoded

namespace History

variable {history : ValueHistory}

theorem Decoded.clip (decoded : history.Decoded) : history.clip.Decoded := by
  refine ⟨decoded.uncapped, fun line member => ?_⟩
  obtain ⟨former, isFormer, rfl⟩ := List.mem_map.mp member
  exact (decoded.timelines former isFormer).clip

theorem clip_eq_self_iff :
    history.clip = history ↔ ∀ line ∈ history.timelines.entries, ∀ entry ∈ line.2.entries,
      entry.value.clip = entry.value := by
  obtain ⟨timelines, cap⟩ := history
  rw [clip, History.mk.injEq, Table.map_eq_self_iff]
  simp only [Timeline.mapValues_eq_self_iff, and_true]

theorem clip_clip (history : ValueHistory) : history.clip.clip = history.clip := by
  refine clip_eq_self_iff.mpr fun line member entry isEntry => ?_
  obtain ⟨former, _, rfl⟩ := List.mem_map.mp member
  obtain ⟨formerEntry, _, rfl⟩ := List.mem_map.mp isEntry
  exact formerEntry.value.clip_clip

theorem Decoded.clip_eq_self_iff (decoded : history.Decoded) :
    history.clip = history ↔
      ∀ line ∈ history.timelines.entries, ∀ entry ∈ line.2.entries, ¬ entry.value.Exceeds := by
  rw [History.clip_eq_self_iff]
  refine forall₂_congr fun line isLine => forall₂_congr fun entry isEntry => ?_
  exact ((decoded.timelines line isLine).values entry isEntry).clip_eq_self_iff

end History

namespace SavedEntry

theorem bounded_of_ofJson? {json : Json} {saved : SavedEntry} (bounded : json.Bounded)
    (read : ofJson? json = some saved) : saved.value.Bounded := by
  simp only [ofJson?, Option.bind_eq_bind, Option.bind_eq_some_iff] at read
  obtain ⟨record, viewed, _, _, _, _, wire, isWire, same⟩ := read
  cases same
  obtain ⟨value, isField, readValue⟩ := Json.Record.exists_of_required isWire
  exact Wire.bounded_ofJson? value (Json.bounded_record? bounded viewed _ isField) wire readValue

end SavedEntry

namespace Snapshot

theorem bounded_of_parse {text : String} {snapshot : Snapshot}
    (parsed : parse text = .ok snapshot) :
    ∀ line ∈ snapshot.entries, ∀ saved ∈ line.2, saved.value.Bounded := by
  intro line isLine saved isSaved
  rw [parse] at parsed
  cases read : (Json.parse? text).bind (Json.tableOf? (Json.listOf? SavedEntry.ofJson?)) with
  | none =>
      rw [read] at parsed
      cases parsed
  | some found =>
      rw [read] at parsed
      cases parsed
      obtain ⟨json, isJson, isTable⟩ := Option.bind_eq_some_iff.mp read
      obtain ⟨lines, areLines, rfl⟩ := Option.map_eq_some_iff.mp isTable
      obtain ⟨fields, isObject, mapped⟩ := Option.bind_eq_some_iff.mp areLines
      have isRead : line ∈ lines :=
        Table.mem_of_get?_ofList (Table.get?_eq_some_iff.mpr isLine)
      obtain ⟨field, isField, readField⟩ := exists_of_mem_mapM mapped isRead
      obtain ⟨entries, areEntries, rfl⟩ := Option.map_eq_some_iff.mp readField
      obtain ⟨part, partBounded, isEntry⟩ := Json.exists_of_listOf? areEntries isSaved
      refine SavedEntry.bounded_of_ofJson? (partBounded ?_) isEntry
      cases json with
      | object _ =>
          cases isObject
          exact (Json.bounded_object_iff _).mp (Json.bounded_parse? isJson) field isField
      | _ =>
          cases isObject

theorem decoded_of_restore {snapshot : Snapshot} {history : ValueHistory}
    (bounded : ∀ line ∈ snapshot.entries, ∀ saved ∈ line.2, saved.value.Bounded)
    (restored : snapshot.restore none = .ok history) : history.Decoded := by
  obtain ⟨sound, uncapped⟩ := sound_of_restore restored
  have values := yields_restore none (fun line member saved isSaved =>
    Wire.decoded_toValue (bounded line member saved isSaved)) history restored
  exact ⟨uncapped, fun line isLine =>
    ⟨(sound line.1 line.2 (Table.get?_eq_some_iff.mpr isLine)).1, values line isLine⟩⟩

theorem restore_capture_of_decoded {history : ValueHistory} (decoded : history.Decoded) :
    (capture history []).restore none = .ok history.clip := by
  have all : kept history [] none = history := by
    rw [← decoded.uncapped]
    exact kept_all history
  have saved : (capture history []).entries =
      (kept history [] none).timelines.entries.map fun line =>
        (line.1, line.2.entries.map (SavedEntry.ofEntry line.1)) := rfl
  have restored := @restoreAll_ofEntry_of_changed none Value.clip history.timelines.entries
    (fun line member => ⟨(decoded.timelines line member).ascending, nofun⟩)
    (fun line member entry isEntry =>
      Wire.toValue_ofValue_of_decoded ((decoded.timelines line member).values entry isEntry))
  rw [all] at saved
  have entered := Table.ofList_entries
    (history.timelines.map fun _ timeline => timeline.mapValues Value.clip)
  rw [restore, saved, restored, History.clip, decoded.uncapped]
  exact congrArg (fun timelines => Except.ok (History.mk timelines none)) entered

theorem clip_eq_self_of_restore {snapshot : Snapshot} {history : ValueHistory}
    (bounded : ∀ line ∈ snapshot.entries, ∀ saved ∈ line.2, saved.value.Bounded)
    (restored : snapshot.restore none = .ok history)
    (within : ∀ line ∈ snapshot.entries, ∀ saved ∈ line.2, ¬ saved.value.Exceeds) :
    history.clip = history := by
  rw [(decoded_of_restore bounded restored).clip_eq_self_iff]
  have kept : ∀ line ∈ snapshot.entries, ∀ saved ∈ line.2,
      Yields (fun value : Value => ¬ value.Exceeds) saved.value.toValue := by
    intro line isLine saved isSaved
    have exceeds_iff := Wire.exceeds_iff_toValue (bounded line isLine saved isSaved)
    exact exceeds_iff.imp fun _ same exceeds =>
      within line isLine saved isSaved (same.mp exceeds)
  exact yields_restore none kept history restored

/-- A history that was loaded from a text is saved in a form that is loaded as the
history without the numbers that signed words cannot hold.  This is the history
itself exactly if it has no such number, so whenever none stands in the text.  In
any case it is saved and loaded from then on without further loss. -/
theorem loaded_history_is_saved_clipped {text : String} {snapshot : Snapshot}
    {history : ValueHistory} (parsed : parse text = .ok snapshot)
    (restored : snapshot.restore none = .ok history) :
    (capture history []).restore none = .ok history.clip ∧
      (history.clip = history ↔
        ∀ line ∈ history.timelines.entries, ∀ entry ∈ line.2.entries, ¬ entry.value.Exceeds) ∧
      ((∀ line ∈ snapshot.entries, ∀ saved ∈ line.2, ¬ saved.value.Exceeds) →
        history.clip = history) ∧
      (capture history.clip []).restore none = .ok history.clip := by
  have bounded := bounded_of_parse parsed
  have decoded := decoded_of_restore bounded restored
  have again := restore_capture_of_decoded decoded.clip
  rw [History.clip_clip] at again
  exact ⟨restore_capture_of_decoded decoded, decoded.clip_eq_self_iff,
    clip_eq_self_of_restore bounded restored, again⟩

/-! ## An array and a bin -/

def integerArray (integers : List Int) : Wire := .plain .array (.array (integers.map .integer))

/-- A bin with all its numbers written as integers. -/
def integerBin (index : Int) : Wire :=
  .composite .bin .null
    [("value", .plain .int (.integer 1)), ("min", .plain .int (.integer 0)),
      ("max", .plain .int (.integer 2)), ("center", .plain .int (.integer 1)),
      ("index", .plain .int (.integer index))]

def savedIntegers (integers : List Int) (index : Int) : Snapshot :=
  Table.ofList [("a", [⟨3, none, integerArray integers⟩]), ("b", [⟨3, none, integerBin index⟩])]

def loadedNumbers (elements : List Float) (index : Option Nat) : ValueHistory :=
  ⟨Table.ofList
    [("a", ⟨[⟨3, none, .array ⟨.int64, elements⟩⟩]⟩),
    ("b", ⟨[⟨3, none,
      .bin ⟨index, Float.ofInt 1, Float.ofInt 0, Float.ofInt 2, Float.ofInt 1⟩⟩]⟩)], none⟩

theorem clip_loadedNumbers (elements : List Float) (index : Option Nat) :
    (loadedNumbers elements index).clip =
      loadedNumbers (elements.map Number.cut) (index.filter (· < 2 ^ 63)) :=
  rfl

section Integers

variable {integers : List Int} {index : Int}

theorem plain_integerArray (integersInWord : ∀ integer ∈ integers, Json.InWord integer) :
    (SavedEntry.mk 3 none (integerArray integers)).Plain where
  value := by
    refine Wire.plain_of_sorted? (Json.sorted?_array fun item member => ?_)
    obtain ⟨integer, _, rfl⟩ := List.mem_map.mp member
    rfl
  shallow := ⟨Json.legible_map_array integersInWord, by simp [integerArray, Wire.plain]⟩
  time := nofun

theorem plain_integerBin (indexInWord : Json.InWord index) :
    (SavedEntry.mk 3 none (integerBin index)).Plain where
  value := by
    have ofInteger (integer : Int) : (Wire.plain .int (.integer integer)).Plain :=
      Wire.plain_of_sorted? rfl
    exact ⟨rfl, by simp [Entries.keys], ofInteger 1, ofInteger 0, ofInteger 2, ofInteger 1,
      ofInteger index, trivial⟩
  shallow := by
    have small : Json.InWord 0 ∧ Json.InWord 1 ∧ Json.InWord 2 := by
      simp [Json.InWord]
    have legible {integer : Int} (inWord : Json.InWord integer) :
        (Wire.plain .int (.integer integer)).attributes = [] ∧
          (Wire.plain .int (.integer integer)).value.Legible 121 :=
      ⟨rfl, inWord⟩
    refine ⟨trivial, ?_⟩
    simp only [integerBin, Wire.composite, List.forall_mem_cons]
    exact ⟨legible small.2.1, legible small.1, legible small.2.2, legible small.2.1,
      legible indexInWord, by simp⟩
  time := nofun

theorem parse_savedIntegers (integersInWord : ∀ integer ∈ integers, Json.InWord integer)
    (indexInWord : Json.InWord index)
    (noDoubles : (savedIntegers integers index).toJson.doubles = []) :
    parse (savedIntegers integers index).text = .ok (savedIntegers integers index) := by
  refine parse_text ?_ (by simp [noDoubles])
  have lines : (savedIntegers integers index).entries =
      [("a", [⟨3, none, integerArray integers⟩]), ("b", [⟨3, none, integerBin index⟩])] := rfl
  rw [lines]
  simp [plain_integerArray integersInWord, plain_integerBin indexInWord]

theorem restore_savedIntegers (nonempty : integers ≠ []) :
    (savedIntegers integers index).restore none =
      .ok (loadedNumbers (integers.map Float.ofInt) (Number.natural? index)) := by
  have array : (integerArray integers).toValue =
      .ok (.array ⟨.int64, integers.map Float.ofInt⟩) := by
    change (Wire.arrayOf .array (.array (integers.map .integer))).map Value.array = _
    rw [Wire.arrayOf_integers .array nonempty]
    rfl
  have bin : (integerBin index).toValue = .ok (.bin ⟨Number.natural? index, Float.ofInt 1,
      Float.ofInt 0, Float.ofInt 2, Float.ofInt 1⟩) := rfl
  have sorted (value : Value) :
      Timeline.ofEntries [(⟨3, none, value⟩ : ValueEntry)] = ⟨[⟨3, none, value⟩]⟩ :=
    @Timeline.ofEntries_of_ascending _ _ ⟨[⟨3, none, value⟩]⟩ (List.pairwise_singleton _ _)
  have lines : (savedIntegers integers index).entries =
      [("a", [⟨3, none, integerArray integers⟩]), ("b", [⟨3, none, integerBin index⟩])] := rfl
  rw [restore, lines]
  simp only [restoreAll, List.mapM_cons, List.mapM_nil, SavedEntry.toEntry, array, bin, Except.map,
    bind, Except.bind, pure, Except.pure, newest, sorted]
  rfl

end Integers

theorem small_integers_are_saved :
    parse (savedIntegers [2 ^ 63, -2] 7).text = .ok (savedIntegers [2 ^ 63, -2] 7) ∧
      (savedIntegers [2 ^ 63, -2] 7).restore none =
        .ok (loadedNumbers [Float.ofInt (2 ^ 63), Float.ofInt (-2)] (some 7)) ∧
      (capture (loadedNumbers [Float.ofInt (2 ^ 63), Float.ofInt (-2)] (some 7)) []).restore
        none = .ok (loadedNumbers [Float.ofInt (2 ^ 63), Float.ofInt (-2)] (some 7)) := by
  have parsed : parse (savedIntegers [2 ^ 63, -2] 7).text =
      .ok (savedIntegers [2 ^ 63, -2] 7) :=
    parse_savedIntegers (by simp [Json.InWord]) (by simp [Json.InWord]) (by decide +kernel)
  have restored : (savedIntegers [2 ^ 63, -2] 7).restore none =
      .ok (loadedNumbers [Float.ofInt (2 ^ 63), Float.ofInt (-2)] (some 7)) :=
    restore_savedIntegers (by simp)
  obtain ⟨saved, same_iff, _, _⟩ := loaded_history_is_saved_clipped parsed restored
  have small : ∀ x ∈ [Float.ofInt (2 ^ 63), Float.ofInt (-2)], ¬ Float.ofNat (2 ^ 63) < x := by
    decide +kernel
  have same := same_iff.mpr fun line member entry isEntry => by
    rcases List.mem_pair.mp member with rfl | rfl
    · rw [List.mem_singleton.mp isEntry]
      rintro ⟨_, x, isElement, above⟩
      exact small x isElement above
    · rw [List.mem_singleton.mp isEntry]
      rintro ⟨index, isIndex, above⟩
      cases isIndex
      omega
  rw [same] at saved
  exact ⟨parsed, restored, saved⟩

/-- An unsigned integer comes back as the largest signed one, and an unsigned index is gone. -/
theorem large_integers_are_not_saved :
    parse (savedIntegers [2 ^ 63 + 2048] (2 ^ 63)).text =
        .ok (savedIntegers [2 ^ 63 + 2048] (2 ^ 63)) ∧
      (savedIntegers [2 ^ 63 + 2048] (2 ^ 63)).restore none =
        .ok (loadedNumbers [Float.ofInt (2 ^ 63 + 2048)] (some (2 ^ 63))) ∧
      (capture (loadedNumbers [Float.ofInt (2 ^ 63 + 2048)] (some (2 ^ 63))) []).restore none =
        .ok (loadedNumbers [Float.ofInt (2 ^ 63 - 1)] none) ∧
      loadedNumbers [Float.ofInt (2 ^ 63 - 1)] none ≠
        loadedNumbers [Float.ofInt (2 ^ 63 + 2048)] (some (2 ^ 63)) := by
  have parsed : parse (savedIntegers [2 ^ 63 + 2048] (2 ^ 63)).text =
      .ok (savedIntegers [2 ^ 63 + 2048] (2 ^ 63)) :=
    parse_savedIntegers (by simp [Json.InWord]) (by simp [Json.InWord]) (by decide +kernel)
  have restored : (savedIntegers [2 ^ 63 + 2048] (2 ^ 63)).restore none =
      .ok (loadedNumbers [Float.ofInt (2 ^ 63 + 2048)] (some (2 ^ 63))) :=
    restore_savedIntegers (by simp)
  have decoded := decoded_of_restore (bounded_of_parse parsed) restored
  have clipped : (loadedNumbers [Float.ofInt (2 ^ 63 + 2048)] (some (2 ^ 63))).clip =
      loadedNumbers [Float.ofInt (2 ^ 63 - 1)] none := by
    have cut : [Float.ofInt (2 ^ 63 + 2048)].map Number.cut = [Float.ofInt (2 ^ 63 - 1)] := by
      decide +kernel
    rw [clip_loadedNumbers, cut]
    rfl
  have saved := restore_capture_of_decoded decoded
  rw [clipped] at saved
  refine ⟨parsed, restored, saved, fun same => ?_⟩
  rw [← clipped, decoded.clip_eq_self_iff] at same
  refine same _ (List.mem_cons_of_mem _ List.mem_cons_self) _ List.mem_cons_self ?_
  exact ⟨2 ^ 63, rfl, le_rfl⟩

end Snapshot

end InSitu
