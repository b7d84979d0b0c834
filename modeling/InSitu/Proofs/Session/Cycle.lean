import InSitu.Proofs.Session.Run

/-!
# The effect of a cycle

What a cycle does to the history of a session that calls can lead to: which
names it mentions, which expressions it records, and why it stops.
-/

namespace InSitu

namespace Session

open Timeline

variable {session : Session} {mesh : Dataset} {expressions : Expressions}

/-- All expressions are mentioned, those that are not recorded too. -/
theorem names_runCycle (session : Session) (mesh : Dataset)
    (expressions : Expressions) :
    (session.runCycle mesh expressions).1.history.names =
      session.history.names ++
        expressions.keys.filter (· ∉ session.history.names) := by
  obtain ⟨front, back, values, split, recording, _⟩ :=
    runCycle_recording session mesh expressions
  have mentioned :=
    History.names_foldl_declare session.history expressions.distinct
  rw [← Table.keys] at mentioned
  rw [← mentioned]
  apply recording.names_eq
  intro name member
  have inExpressions : name ∈ expressions.keys := by
    rw [Table.keys, split, Entries.keys, List.map_append]
    exact List.mem_append_left _ member
  rw [mentioned, List.mem_append, List.mem_filter]
  by_cases known : name ∈ session.history.names
  · exact Or.inl known
  · exact Or.inr ⟨inExpressions, by simpa using known⟩

/-- Nothing is recorded if the first name has an entry that is not older than
the dataset. -/
theorem Records.eq_nil_of_stale {before after : ValueHistory}
    {values : List (String × Value)} (records : Records mesh before values after)
    (sound : before.Sound) {name : String} {rest : List String}
    (keys : ∃ count, Entries.keys values = (name :: rest).take count)
    {entry : ValueEntry} (member : entry ∈ (before.timelineOf name).entries)
    (stale : mesh.cycle ≤ entry.cycle) : values = [] := by
  obtain ⟨count, keys⟩ := keys
  cases count with
  | zero =>
      exact List.map_eq_nil_iff.mp keys
  | succ more =>
      have recorded : name ∈ Entries.keys values := by
        rw [keys]
        exact List.mem_cons_self ..
      have older := (records.newer name recorded).lt (sound.timelineOf name).1
        entry member
      exact False.elim (UInt64.not_lt.mpr stale older)

/-- A cycle mentions all expressions and records exactly the first ones of them,
each with one entry at the end of its own timeline, whose value is the answer of
the expression to the history up to there; no other timeline changes.  The cycle
succeeds if these are all, and answers with their newest values.  If not, the
next expression stops it.  So no name has two entries for one cycle, and a first
expression with an entry that is not older than the dataset makes the cycle fail
without an entry. -/
theorem runCycle_records_first_expressions {later : Session}
    {result : Except Fault (List (String × Value))}
    (reachable : session.Reachable)
    (ran : session.runCycle mesh expressions = (later, result)) :
    (later.history.names = session.history.names ++
        expressions.keys.filter (· ∉ session.history.names) ∧
      later.history.cap = session.history.cap ∧
      later.config = session.config) ∧
    (∃ count values, count ≤ expressions.size ∧
      Entries.keys values = expressions.keys.take count ∧
      Recording session.config mesh
        (expressions.keys.foldl History.declare session.history)
        (expressions.entries.take count) values later.history ∧
      Records mesh session.history values later.history ∧
      ((∃ results, result = .ok results) ↔ count = expressions.size) ∧
      (∀ results, result = .ok results → results = values ∧
        ∀ name value, (name, value) ∈ results →
          ∃ last, (later.history.timelineOf name).latest? = some last ∧
            last.value = value) ∧
      (∀ fault, result = .error fault →
        ∃ name graph rest,
          expressions.entries.drop count = (name, graph) :: rest ∧
          Stops session.config mesh later.history name graph fault)) ∧
    (∀ name,
      ((session.history.timelineOf name).entries.map Entry.cycle).Nodup ∧
      ((later.history.timelineOf name).entries.map Entry.cycle).Nodup) ∧
    (∀ name graph rest entry, expressions.entries = (name, graph) :: rest →
      entry ∈ (session.history.timelineOf name).entries →
      mesh.cycle ≤ entry.cycle →
        (∃ fault, result = .error fault) ∧
        ∀ other, later.history.timelineOf other =
          session.history.timelineOf other) := by
  have sound := reachable.sound
  have laterSound := sound.runCycle mesh expressions
  have names := names_runCycle session mesh expressions
  obtain ⟨front, back, values, split, recording, sameConfig, ending⟩ :=
    runCycle_recording session mesh expressions
  rw [ran] at laterSound names recording sameConfig ending
  dsimp only at laterSound names recording sameConfig ending
  have records := sound.records split recording
  have sameCap := recording.cap_eq
  rw [History.cap_foldl_declare] at sameCap
  have frontTaken : expressions.entries.take front.length = front := by
    rw [split, List.take_left]
  have backDropped : expressions.entries.drop front.length = back := by
    rw [split, List.drop_left]
  have size : expressions.size = front.length + back.length := by
    rw [Table.size, split, List.length_append]
  have keysTaken : Entries.keys values = expressions.keys.take front.length := by
    rw [recording.keys_eq, Table.keys, Entries.keys, Entries.keys,
      ← List.map_take, frontTaken]
  refine ⟨⟨names, sameCap, sameConfig⟩,
    ⟨front.length, values, ?_, keysTaken, ?_, records, ?_, ?_, ?_⟩, ?_, ?_⟩
  · rw [size]
    exact Nat.le_add_right _ _
  · rw [frontTaken]
    exact recording
  · rcases ending with ⟨rfl, result⟩ | ⟨_, _, _, _, rfl, _, result⟩
    · simp [size, result]
    · simp [size, result]
  · intro results succeeds
    rcases ending with ⟨_, result⟩ | ⟨_, _, _, _, _, _, result⟩
    · rw [succeeds] at result
      cases result
      exact ⟨rfl, fun name value member =>
        ⟨_, (records.gains name value member).latest, rfl⟩⟩
    · rw [succeeds] at result
      cases result
  · intro fault fails
    rcases ending with ⟨_, result⟩ | ⟨name, graph, rest, _, cons, stops, result⟩
    · rw [fails] at result
      cases result
    · rw [fails] at result
      cases result
      exact ⟨name, graph, rest, backDropped.trans cons, stops⟩
  · exact fun name => ⟨(sound.history.timelineOf name).1.nodup_cycles,
      (laterSound.history.timelineOf name).1.nodup_cycles⟩
  · intro name graph rest entry first member stale
    have keys : expressions.keys = name :: Entries.keys rest := by
      rw [Table.keys, first]
      rfl
    have valuesEmpty : values = [] := records.eq_nil_of_stale sound.history
      ⟨front.length, by rw [keysTaken, keys]⟩ member stale
    subst valuesEmpty
    refine ⟨?_, fun other => records.others other List.not_mem_nil⟩
    rcases ending with ⟨rfl, _⟩ | ⟨_, _, _, fault, _, _, result⟩
    · have noKeys := recording.keys_eq
      rw [← List.append_nil front, ← split, first] at noKeys
      cases noKeys
    · exact ⟨fault, result⟩

/-- The session in which one has been recorded on the first cycle. -/
def playedOne : Session :=
  keepsTwo.performAll [.cycle (bareMesh 1) constantOne]

theorem playedOne_refuses_again :
    playedOne.Reachable ∧
      (playedOne.history.timelineOf "one").entries =
        [entryOf (bareMesh 1) (.int 1)] ∧
      (∃ fault, (playedOne.runCycle (bareMesh 1) constantOne).2 = .error fault) ∧
      ∀ other,
        (playedOne.runCycle (bareMesh 1) constantOne).1.history.timelineOf other =
          playedOne.history.timelineOf other := by
  have reachable : playedOne.Reachable :=
    ⟨{ maxHistory := some 2 }, keepsTwo, _, rfl, rfl⟩
  have recorded : (playedOne.history.timelineOf "one").entries =
      [entryOf (bareMesh 1) (.int 1)] := by
    cbv
  have member : entryOf (bareMesh 1) (.int 1) ∈
      (playedOne.history.timelineOf "one").entries := by
    rw [recorded]
    exact List.mem_singleton_self _
  exact ⟨reachable, recorded,
    (runCycle_records_first_expressions reachable rfl).2.2.2 "one" _ [] _ rfl
      member (UInt64.le_refl _)⟩

end Session

end InSitu
