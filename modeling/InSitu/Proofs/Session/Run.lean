import InSitu.Mesh.PointMesh
import InSitu.Proofs.Session.Recording
import Mathlib

/-!
# Runs of a session

A caller runs cycles, loads saved histories and resets the symbols, in any
order, and each of these may fail.  Whatever the order, the history stays sound,
and as long as no history is loaded no timeline loses its newest cycle.
-/

namespace InSitu

namespace Session

open Timeline

/-- What a caller may ask of a session. -/
inductive Call where
  | cycle (mesh : Dataset) (expressions : Expressions)
  /-- The content of a file, if the file can be read. -/
  | load (content : Option String)
  | resetSymbols

/-- A call and its answer; only cycles answer with values. -/
def perform (session : Session) :
    Call → Session × Except Fault (List (String × Value))
  | .cycle mesh expressions => session.runCycle mesh expressions
  | .load none => (session, .error .file)
  | .load (some text) =>
    match session.load text with
    | .ok loaded => (loaded, .ok [])
    | .error fault => (session, .error fault)
  | .resetSymbols => (session.resetSymbols, .ok [])

/-- The session after calls in order. -/
def performAll (session : Session) (calls : List Call) : Session :=
  calls.foldl (fun session call => (session.perform call).1) session

/-- A session that calls lead to. -/
def Reachable (session : Session) : Prop :=
  ∃ config start calls, create config = .ok start ∧ start.performAll calls = session

theorem performAll_cons (session : Session) (call : Call) (rest : List Call) :
    session.performAll (call :: rest) = (session.perform call).1.performAll rest :=
  rfl

theorem performAll_append (session : Session) (calls more : List Call) :
    session.performAll (calls ++ more) = (session.performAll calls).performAll more :=
  List.foldl_append

/-- A cycle mentions its expressions and records a first part of them. -/
theorem runCycle_recording (session : Session) (mesh : Dataset)
    (expressions : Expressions) :
    ∃ front back values,
      expressions.entries = front ++ back ∧
      Recording session.config mesh
        (expressions.keys.foldl History.declare session.history) front values
        (session.runCycle mesh expressions).1.history ∧
      (session.runCycle mesh expressions).1.config = session.config ∧
      (back = [] ∧ (session.runCycle mesh expressions).2 = .ok values ∨
        ∃ name graph rest fault, back = (name, graph) :: rest ∧
          Stops session.config mesh (session.runCycle mesh expressions).1.history
            name graph fault ∧
          (session.runCycle mesh expressions).2 = .error fault) :=
  evaluateAll_recording (session.declareAll expressions.keys) mesh
    expressions.entries

theorem load_eq_ok {session loaded : Session} {text : String}
    (result : session.load text = .ok loaded) :
    ∃ snapshot history, Snapshot.parse text = .ok snapshot ∧
      snapshot.restore session.config.maxHistory = .ok history ∧
        loaded = { session with history } := by
  rw [load] at result
  cases parsed : Snapshot.parse text with
  | error fault =>
      simp [parsed, bind, Except.bind] at result
  | ok snapshot =>
      cases restored : snapshot.restore session.config.maxHistory with
      | error fault =>
          simp [parsed, restored, bind, Except.bind] at result
      | ok history =>
          simp only [parsed, restored, bind, Except.bind, pure, Except.pure,
            Except.ok.injEq] at result
          exact ⟨snapshot, history, rfl, restored, result.symm⟩

/-- A load puts a saved history in place of the own one, or it fails and
changes nothing. -/
theorem perform_load_cases (session : Session) (content : Option String) :
    (∃ fault, session.perform (.load content) = (session, .error fault)) ∨
      ∃ snapshot history,
        Snapshot.restore snapshot session.config.maxHistory = .ok history ∧
          session.perform (.load content) = ({ session with history }, .ok []) := by
  cases content with
  | none =>
      exact Or.inl ⟨.file, rfl⟩
  | some text =>
      cases result : session.load text with
      | error fault =>
          exact Or.inl ⟨fault, by simp only [perform, result]⟩
      | ok loaded =>
          obtain ⟨snapshot, history, _, restored, rfl⟩ := load_eq_ok result
          exact Or.inr ⟨snapshot, history, restored, by simp only [perform, result]⟩

/-- The settings are sound, and the history is with the cap that they set. -/
structure Sound (session : Session) : Prop where
  config : session.config.check = .ok ()
  cap : session.history.cap = session.config.maxHistory
  history : session.history.Sound

/-- Sound settings leave room for an entry. -/
theorem Sound.positive {session : Session} (sound : session.Sound) :
    session.history.cap ≠ some 0 := by
  intro zero
  have checked := sound.config
  rw [sound.cap] at zero
  rw [Config.check, zero] at checked
  split at checked
  · cases checked
  · cases checked

theorem sound_of_create {config : Config} {start : Session}
    (created : create config = .ok start) :
    start.Sound ∧ start.config = config := by
  rw [create] at created
  cases checked : config.check with
  | error fault =>
      rw [checked] at created
      cases created
  | ok _ =>
      rw [checked] at created
      cases created
      exact ⟨⟨checked, rfl, History.sound_empty _⟩, rfl⟩

/-- What a cycle does to the timelines and the names of a sound session. -/
theorem Sound.records {session : Session} (sound : session.Sound)
    {mesh : Dataset} {expressions : Expressions} {front back : List (String × Graph)}
    {values : List (String × Value)} {after : ValueHistory}
    (split : expressions.entries = front ++ back)
    (recording : Recording session.config mesh
      (expressions.keys.foldl History.declare session.history) front values after) :
    Records mesh session.history values after := by
  have distinct : (Entries.keys front).Nodup := by
    have whole := expressions.distinct
    rw [split, Entries.keys, List.map_append] at whole
    exact (List.nodup_append.mp whole).1
  have records := recording.records distinct
    (sound.history.foldl_declare expressions.keys)
    (by rw [History.cap_foldl_declare]; exact sound.positive)
  refine ⟨?_, ?_, ?_⟩
  · simpa only [History.timelineOf_foldl_declare] using records.newer
  · simpa only [History.timelineOf_foldl_declare, History.cap_foldl_declare]
      using records.gains
  · simpa only [History.timelineOf_foldl_declare] using records.others

theorem Sound.runCycle {session : Session} (sound : session.Sound)
    (mesh : Dataset) (expressions : Expressions) :
    (session.runCycle mesh expressions).1.Sound := by
  obtain ⟨front, back, values, _, recording, sameConfig, _⟩ :=
    runCycle_recording session mesh expressions
  have declaredCap :=
    History.cap_foldl_declare session.history expressions.keys
  refine ⟨?_, ?_, ?_⟩
  · rw [sameConfig]
    exact sound.config
  · rw [recording.cap_eq, declaredCap, sameConfig]
    exact sound.cap
  · apply recording.sound (sound.history.foldl_declare expressions.keys)
    rw [declaredCap]
    exact sound.positive

theorem Sound.perform {session : Session} (sound : session.Sound) (call : Call) :
    (session.perform call).1.Sound ∧
      (session.perform call).1.config = session.config := by
  cases call with
  | cycle mesh expressions =>
      obtain ⟨_, _, _, _, _, sameConfig, _⟩ :=
        runCycle_recording session mesh expressions
      exact ⟨sound.runCycle mesh expressions, sameConfig⟩
  | load content =>
      rcases perform_load_cases session content with
        ⟨fault, failed⟩ | ⟨snapshot, history, restored, loaded⟩
      · rw [failed]
        exact ⟨sound, rfl⟩
      · rw [loaded]
        obtain ⟨historySound, capped⟩ := Snapshot.sound_of_restore restored
        exact ⟨⟨sound.config, capped, historySound⟩, rfl⟩
  | resetSymbols =>
      exact ⟨⟨sound.config, sound.cap, sound.history⟩, rfl⟩

theorem Sound.performAll {session : Session} (sound : session.Sound)
    (calls : List Call) :
    (session.performAll calls).Sound ∧
      (session.performAll calls).config = session.config := by
  induction calls generalizing session with
  | nil =>
      exact ⟨sound, rfl⟩
  | cons call rest inductionHypothesis =>
      obtain ⟨performedSound, sameConfig⟩ := sound.perform call
      obtain ⟨laterSound, laterConfig⟩ := inductionHypothesis performedSound
      exact ⟨laterSound, laterConfig.trans sameConfig⟩

theorem Reachable.sound {session : Session} (reachable : session.Reachable) :
    session.Sound := by
  obtain ⟨config, start, calls, created, rfl⟩ := reachable
  exact ((sound_of_create created).1.performAll calls).1

/-! ## Newest cycles -/

/-- Timelines keep an entry, and their newest cycles do not fall. -/
def Advances (before after : ValueHistory) : Prop :=
  ∀ name last, (before.timelineOf name).entries.getLast? = some last →
    ∃ later, (after.timelineOf name).entries.getLast? = some later ∧
      last.cycle ≤ later.cycle

theorem Advances.refl (history : ValueHistory) : Advances history history :=
  fun _ last latest => ⟨last, latest, UInt64.le_refl last.cycle⟩

theorem Advances.trans {before middle after : ValueHistory}
    (first : Advances before middle) (second : Advances middle after) :
    Advances before after := by
  intro name last latest
  obtain ⟨next, nextLatest, below⟩ := first name last latest
  obtain ⟨later, laterLatest, above⟩ := second name next nextLatest
  exact ⟨later, laterLatest, UInt64.le_trans below above⟩

theorem Records.latest {mesh : Dataset} {before after : ValueHistory}
    {values : List (String × Value)} (records : Records mesh before values after)
    {name : String} (recorded : name ∈ Entries.keys values) :
    ∃ value, (name, value) ∈ values ∧
      (after.timelineOf name).entries.getLast? = some (entryOf mesh value) := by
  obtain ⟨⟨_, value⟩, member, rfl⟩ := List.mem_map.mp recorded
  exact ⟨value, member, (records.gains _ value member).latest⟩

theorem Records.advances {mesh : Dataset} {before after : ValueHistory}
    {values : List (String × Value)} (records : Records mesh before values after) :
    Advances before after := by
  intro name last latest
  by_cases recorded : name ∈ Entries.keys values
  · obtain ⟨value, _, newest⟩ := records.latest recorded
    exact ⟨entryOf mesh value, newest,
      UInt64.le_of_lt (records.newer name recorded last latest)⟩
  · rw [records.others name recorded]
    exact ⟨last, latest, UInt64.le_refl last.cycle⟩

/-- Every load in a run of calls fails. -/
def LoadsFail (session : Session) (calls : List Call) : Prop :=
  ∀ front content back, calls = front ++ .load content :: back →
    ∃ fault, ((session.performAll front).perform (.load content)).2 = .error fault

theorem LoadsFail.rest {session : Session} {call : Call} {rest : List Call}
    (loadsFail : session.LoadsFail (call :: rest)) :
    (session.perform call).1.LoadsFail rest := by
  rintro front content back rfl
  exact loadsFail (call :: front) content back rfl

theorem Sound.perform_advances {session : Session} (sound : session.Sound)
    {call : Call} {rest : List Call} (loadsFail : session.LoadsFail (call :: rest)) :
    Advances session.history (session.perform call).1.history := by
  cases call with
  | cycle mesh expressions =>
      obtain ⟨front, back, values, split, recording, _⟩ :=
        runCycle_recording session mesh expressions
      exact (sound.records split recording).advances
  | load content =>
      obtain ⟨fault, failed⟩ := loadsFail [] content rest rfl
      rcases perform_load_cases session content with
        ⟨_, unchanged⟩ | ⟨_, history, _, loaded⟩
      · rw [unchanged]
        exact .refl session.history
      · rw [Session.performAll, List.foldl_nil, loaded] at failed
        cases failed
  | resetSymbols =>
      exact .refl session.history

theorem Sound.performAll_advances {session : Session} (sound : session.Sound)
    {calls : List Call} (loadsFail : session.LoadsFail calls) :
    Advances session.history (session.performAll calls).history := by
  induction calls generalizing session with
  | nil =>
      exact .refl session.history
  | cons call rest inductionHypothesis =>
      exact (sound.perform_advances loadsFail).trans
        (inductionHypothesis (sound.perform call).1 loadsFail.rest)

/-- A cycle that succeeds records all of its expressions. -/
theorem Sound.records_of_ok {session : Session} (sound : session.Sound)
    {mesh : Dataset} {expressions : Expressions} {results : List (String × Value)}
    (succeeds : (session.runCycle mesh expressions).2 = .ok results) :
    Entries.keys results = expressions.keys ∧
      Records mesh session.history results
        (session.runCycle mesh expressions).1.history := by
  obtain ⟨front, back, values, split, recording, _, ending⟩ :=
    runCycle_recording session mesh expressions
  rcases ending with ⟨rfl, result⟩ | ⟨_, _, _, fault, _, _, result⟩
  · rw [succeeds] at result
    cases result
    refine ⟨?_, sound.records split recording⟩
    rw [recording.keys_eq, Table.keys, split, List.append_nil]
  · rw [succeeds] at result
    cases result

/-- Whatever is called on a new session, every timeline rises strictly and keeps
to the cap.  If two cycles succeed and share an expression, and no load between
them does, the later one is on a later cycle.  A load that fails changes
nothing. -/
theorem performAll_keeps_cycles_rising {config : Config} {start : Session}
    (created : create config = .ok start) (calls : List Call) :
    (∀ name timeline,
      (start.performAll calls).history.timelines.get? name = some timeline →
        Ascending timeline.entries ∧ Fits config.maxHistory timeline.entries) ∧
    (∀ first firstExpressions firstResults between second secondExpressions
        secondResults name,
      ((start.performAll calls).perform (.cycle first firstExpressions)).2 =
        .ok firstResults →
      LoadsFail (start.performAll (calls ++ [.cycle first firstExpressions]))
        between →
      ((start.performAll (calls ++ .cycle first firstExpressions :: between)).perform
          (.cycle second secondExpressions)).2 = .ok secondResults →
      name ∈ firstExpressions.keys → name ∈ secondExpressions.keys →
        first.cycle < second.cycle) ∧
    (∀ content fault,
      ((start.performAll calls).perform (.load content)).2 = .error fault →
        start.performAll (calls ++ [.load content]) = start.performAll calls) := by
  obtain ⟨startSound, rfl⟩ := sound_of_create created
  obtain ⟨sound, sameConfig⟩ := startSound.performAll calls
  refine ⟨?_, ?_, ?_⟩
  · intro name timeline found
    rw [← sameConfig, ← sound.cap]
    exact sound.history name timeline found
  · intro first firstExpressions firstResults between second secondExpressions
      secondResults name firstSucceeds loadsFail secondSucceeds inFirst inSecond
    obtain ⟨firstKeys, firstRecords⟩ := sound.records_of_ok firstSucceeds
    rw [performAll_append] at loadsFail secondSucceeds
    have firstSound := sound.runCycle first firstExpressions
    -- The first cycle leaves its entry as the newest one, the calls between
    -- leave one at least as new, and the second must be newer than that.
    obtain ⟨value, _, firstLatest⟩ := firstRecords.latest (firstKeys ▸ inFirst)
    obtain ⟨last, lastLatest, atLeast⟩ :=
      firstSound.performAll_advances loadsFail name _ firstLatest
    obtain ⟨secondKeys, secondRecords⟩ :=
      (firstSound.performAll between).1.records_of_ok secondSucceeds
    have newer := secondRecords.newer name (secondKeys ▸ inSecond) last lastLatest
    exact UInt64.lt_of_le_of_lt atLeast newer
  · intro content fault failed
    rw [performAll_append]
    rcases perform_load_cases (start.performAll calls) content with
      ⟨_, unchanged⟩ | ⟨_, history, _, loaded⟩
    · rw [performAll_cons, unchanged]
      rfl
    · rw [loaded] at failed
      cases failed

/-- The expression whose value is one. -/
def constantOne : Expressions :=
  Table.ofList [("one", ⟨"one",
    Table.ofList [("literal", ⟨.literal .int (.int 1), Table.empty⟩)],
    some "literal"⟩)]

/-- A dataset without points and fields. -/
def bareMesh (cycle : Cycle) : Dataset :=
  PointMesh.toDataset ⟨cycle, none, "mesh", [], Table.empty⟩

/-- A new session that keeps two entries of each name. -/
def keepsTwo : Session :=
  ⟨History.empty (some 2), Table.empty, { maxHistory := some 2 }⟩

theorem keepsTwo_cycles_rise :
    create { maxHistory := some 2 } = .ok keepsTwo ∧
      (keepsTwo.perform (.cycle (bareMesh 1) constantOne)).2 = .ok [("one", .int 1)] ∧
      ((keepsTwo.performAll [.cycle (bareMesh 1) constantOne, .load none]).perform
        (.cycle (bareMesh 2) constantOne)).2 = .ok [("one", .int 1)] ∧
      (bareMesh 1).cycle < (bareMesh 2).cycle := by
  have created : create { maxHistory := some 2 } = .ok keepsTwo := rfl
  have firstSucceeds :
      (keepsTwo.perform (.cycle (bareMesh 1) constantOne)).2 = .ok [("one", .int 1)] := by
    cbv
  have secondSucceeds :
      ((keepsTwo.performAll [.cycle (bareMesh 1) constantOne, .load none]).perform
        (.cycle (bareMesh 2) constantOne)).2 = .ok [("one", .int 1)] := by
    cbv
  have loadsFail : (keepsTwo.performAll [.cycle (bareMesh 1) constantOne]).LoadsFail
      [.load none] := by
    intro front content back split
    cases front with
    | nil =>
        cases split
        exact ⟨.file, rfl⟩
    | cons call rest =>
        have tooLong := congrArg List.length split
        simp at tooLong
  have member : "one" ∈ constantOne.keys := by
    decide
  exact ⟨created, firstSucceeds, secondSucceeds,
    (performAll_keeps_cycles_rising created []).2.1 _ _ _ [.load none] _ _ _ "one"
      firstSucceeds loadsFail secondSucceeds member member⟩

end Session

end InSitu
