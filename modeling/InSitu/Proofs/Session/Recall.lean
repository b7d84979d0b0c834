import InSitu.Proofs.Session.Cycle

/-!
# What an expression recalls

An identifier in an expression reads the newest entry of a name.  What that is
depends on the place of the expression in its cycle, and whether the name is
known at all on every call since the last load: a cycle that fails still makes
the names of its expressions known, and a load forgets whatever its file does
not contain.
-/

namespace InSitu

namespace History

variable {τ ν : Type}

/-- A name has a newest entry, or it is known and has none, or it is not known. -/
theorem latest_cases (history : History τ ν) (name : String) :
    (∃ entry, (history.timelineOf name).latest? = some entry ∧ name ∈ history.names ∧
        history.latest name = .ok entry) ∨
      (history.timelineOf name).latest? = none ∧
        (name ∈ history.names ∧ history.latest name = .error (.emptyHistory name) ∨
          name ∉ history.names ∧
            history.latest name = .error (.unknownIdentifier name history.names)) := by
  rw [latest, lookup, declared, timelineOf]
  cases found : history.timelines.get? name with
  | none =>
      have unknown : name ∉ history.names := Table.get?_eq_none_iff.mp found
      exact .inr ⟨rfl, .inr ⟨unknown, rfl⟩⟩
  | some timeline =>
      have known : name ∈ history.names :=
        Table.mem_keys_iff_exists.mpr ⟨timeline, found⟩
      obtain ⟨entries⟩ := timeline
      rcases entries.eq_nil_or_concat with rfl | ⟨older, newest, rfl⟩
      · exact .inr ⟨rfl, .inl ⟨known, rfl⟩⟩
      · refine .inl ⟨newest, ?_, known, ?_⟩
        · simp [Timeline.latest?]
        · simp [Timeline.latest?, bind, Except.bind, pure, Except.pure]

end History

namespace Session

open Timeline

/-- A call makes a name known: a cycle lists it, or a load finds it in its file
and does not fail. -/
def Brings (session : Session) (name : String) : Call → Prop
  | .cycle _ expressions => name ∈ expressions.keys
  | .load content => ∃ text snapshot history, content = some text ∧
      Snapshot.parse text = .ok snapshot ∧
      snapshot.restore session.config.maxHistory = .ok history ∧ name ∈ snapshot.keys
  | .resetSymbols => False

/-- A call leaves the history in place: it is no load, or a load that fails. -/
def Keeps (session : Session) (call : Call) : Prop :=
  ∀ content, call = .load content → ∃ fault, (session.perform call).2 = .error fault

/-- One of the calls makes a name known, and no later load succeeds. -/
def BroughtBy (session : Session) (calls : List Call) (name : String) : Prop :=
  ∃ front call back, calls = front ++ call :: back ∧
    (session.performAll front).Brings name call ∧
    (session.performAll (front ++ [call])).LoadsFail back

theorem loadsFail_nil (session : Session) : session.LoadsFail [] := by
  intro front content back split
  have tooLong := congrArg List.length split
  simp at tooLong

theorem loadsFail_cons_iff {session : Session} {call : Call} {rest : List Call} :
    session.LoadsFail (call :: rest) ↔
      session.Keeps call ∧ (session.perform call).1.LoadsFail rest := by
  constructor
  · intro loadsFail
    refine ⟨?_, loadsFail.rest⟩
    rintro content rfl
    exact loadsFail [] content rest rfl
  · rintro ⟨keeps, others⟩ front content back split
    cases front with
    | nil =>
        cases split
        exact keeps content rfl
    | cons first front =>
        cases split
        exact others front content back rfl

theorem broughtBy_nil (session : Session) (name : String) : ¬ session.BroughtBy [] name := by
  rintro ⟨front, call, back, split, _⟩
  have tooLong := congrArg List.length split
  simp at tooLong

theorem broughtBy_cons_iff {session : Session} {call : Call} {rest : List Call}
    {name : String} :
    session.BroughtBy (call :: rest) name ↔
      session.Brings name call ∧ (session.perform call).1.LoadsFail rest ∨
        (session.perform call).1.BroughtBy rest name := by
  constructor
  · rintro ⟨front, other, back, split, brings, loadsFail⟩
    cases front with
    | nil =>
        cases split
        exact .inl ⟨brings, loadsFail⟩
    | cons first front =>
        cases split
        exact .inr ⟨front, other, back, rfl, brings, loadsFail⟩
  · rintro (⟨brings, loadsFail⟩ | ⟨front, other, back, rfl, brings, loadsFail⟩)
    · exact ⟨[], call, rest, rfl, brings, loadsFail⟩
    · exact ⟨call :: front, other, back, rfl, brings, loadsFail⟩

theorem load_of_restore {session : Session} {text : String} {snapshot : Snapshot}
    {history : ValueHistory} (parsed : Snapshot.parse text = .ok snapshot)
    (restored : snapshot.restore session.config.maxHistory = .ok history) :
    session.load text = .ok { session with history } := by
  rw [load, parsed]
  simp only [bind, Except.bind, restored]
  rfl

/-- After a load the known names are those of its file, unless it fails. -/
theorem mem_names_perform_load (session : Session) (content : Option String) (name : String) :
    name ∈ (session.perform (.load content)).1.history.names ↔
      name ∈ session.history.names ∧ session.Keeps (.load content) ∨
        session.Brings name (.load content) := by
  cases content with
  | none =>
      simp [perform, Brings, Keeps]
  | some text =>
      cases result : session.load text with
      | error fault =>
          have notBrought : ¬ session.Brings name (.load (some text)) := by
            rintro ⟨_, snapshot, history, ⟨⟩, parsed, restored, _⟩
            rw [load_of_restore parsed restored] at result
            cases result
          simp [perform, result, notBrought, Keeps]
      | ok loaded =>
          obtain ⟨snapshot, history, parsed, restored, rfl⟩ := load_eq_ok result
          have brings : session.Brings name (.load (some text)) ↔ name ∈ snapshot.keys := by
            constructor
            · rintro ⟨_, other, _, ⟨⟩, otherParsed, _, member⟩
              rw [parsed] at otherParsed
              cases otherParsed
              exact member
            · intro member
              exact ⟨text, snapshot, history, rfl, parsed, restored, member⟩
          rw [brings]
          simp [perform, result, Snapshot.names_restore restored, Keeps]

/-- What one call does to the known names. -/
theorem mem_names_perform (session : Session) (call : Call) (name : String) :
    name ∈ (session.perform call).1.history.names ↔
      name ∈ session.history.names ∧ session.Keeps call ∨ session.Brings name call := by
  cases call with
  | cycle mesh expressions =>
      change name ∈ (session.runCycle mesh expressions).1.history.names ↔ _
      rw [names_runCycle, List.mem_append, List.mem_filter]
      by_cases known : name ∈ session.history.names <;> simp [known, Keeps, Brings]
  | load content =>
      exact mem_names_perform_load session content name
  | resetSymbols =>
      simp [Keeps, Brings, perform, resetSymbols]

/-- A name is known after calls if it was before and no load succeeds, or if one
of them makes it known for good. -/
theorem mem_names_performAll (session : Session) (calls : List Call) (name : String) :
    name ∈ (session.performAll calls).history.names ↔
      name ∈ session.history.names ∧ session.LoadsFail calls ∨ session.BroughtBy calls name := by
  induction calls generalizing session with
  | nil =>
      simp [performAll, loadsFail_nil, broughtBy_nil]
  | cons call rest inductionHypothesis =>
      rw [performAll_cons, inductionHypothesis, mem_names_perform, loadsFail_cons_iff,
        broughtBy_cons_iff]
      tauto

/-- In a session that began without a history every known name was brought by a call. -/
theorem mem_names_iff_broughtBy {config : Config} {start : Session}
    (created : create config = .ok start) (calls : List Call) (name : String) :
    name ∈ (start.performAll calls).history.names ↔ start.BroughtBy calls name := by
  have nothing : name ∉ start.history.names := by
    rw [create] at created
    cases checked : config.check with
    | error fault =>
        rw [checked] at created
        cases created
    | ok _ =>
        rw [checked] at created
        cases created
        exact List.not_mem_nil
  rw [mem_names_performAll]
  simp [nothing]

/-! ## In the middle of a cycle -/

/-- A cycle whose first expressions have values goes on from the session that they leave. -/
theorem evaluateAll_append_of_ok {session middle : Session} {mesh : Dataset}
    {front : List (String × Graph)} {values : List (String × Value)}
    (evaluated : session.evaluateAll mesh front = (middle, .ok values))
    (back : List (String × Graph)) :
    session.evaluateAll mesh (front ++ back) =
      ((middle.evaluateAll mesh back).1,
        (middle.evaluateAll mesh back).2.map (values ++ ·)) := by
  induction front generalizing session values with
  | nil =>
      cases evaluated
      rw [List.nil_append]
      cases middle.evaluateAll mesh back with
      | mk later result =>
          cases result <;> rfl
  | cons first rest inductionHypothesis =>
      obtain ⟨name, graph⟩ := first
      rw [evaluateAll] at evaluated
      rw [List.cons_append, evaluateAll]
      cases one : session.evaluateOne mesh name graph with
      | mk next answer =>
          cases answer with
          | error fault =>
              rw [one] at evaluated
              cases evaluated
          | ok value =>
              rw [one] at evaluated
              cases others : next.evaluateAll mesh rest with
              | mk last results =>
                  cases results with
                  | error fault =>
                      simp [others, Except.map] at evaluated
                  | ok restValues =>
                      simp only [others, Except.map, Prod.mk.injEq, Except.ok.injEq] at evaluated
                      obtain ⟨rfl, rfl⟩ := evaluated
                      simp only [inductionHypothesis others]
                      cases (last.evaluateAll mesh back).2 <;> rfl

theorem recording_of_evaluateAll_ok {session middle : Session} {mesh : Dataset}
    {expressions : List (String × Graph)} {values : List (String × Value)}
    (evaluated : session.evaluateAll mesh expressions = (middle, .ok values)) :
    Recording session.config mesh session.history expressions values middle.history := by
  obtain ⟨front, back, recorded, split, recording, _, ending⟩ :=
    evaluateAll_recording session mesh expressions
  rw [evaluated] at recording ending
  rcases ending with ⟨rfl, result⟩ | ⟨_, _, _, _, _, _, result⟩
  · cases result
    rwa [split, List.append_nil]
  · cases result

theorem mem_names_declareAll (session : Session) (expressions : Expressions) (name : String) :
    name ∈ (session.declareAll expressions.keys).history.names ↔
      name ∈ session.history.names ∨ name ∈ expressions.keys := by
  have mentioned : (session.declareAll expressions.keys).history.names =
      session.history.names ++ expressions.keys.filter (· ∉ session.history.names) :=
    History.names_foldl_declare session.history expressions.distinct
  rw [mentioned, List.mem_append, List.mem_filter]
  by_cases known : name ∈ session.history.names <;> simp [known]

section Middle

variable {session middle : Session} {mesh : Dataset} {expressions : Expressions} {count : Nat}
  {values : List (String × Value)}
  (evaluated : (session.declareAll expressions.keys).evaluateAll mesh
    (expressions.entries.take count) = (middle, .ok values))

include evaluated

theorem runCycle_from_middle :
    session.runCycle mesh expressions =
      ((middle.evaluateAll mesh (expressions.entries.drop count)).1,
        (middle.evaluateAll mesh (expressions.entries.drop count)).2.map (values ++ ·)) := by
  rw [← evaluateAll_append_of_ok evaluated, List.take_append_drop]
  rfl

theorem keys_of_middle : Entries.keys values = expressions.keys.take count := by
  rw [(recording_of_evaluateAll_ok evaluated).keys_eq, Entries.keys, List.map_take]
  rfl

theorem mem_names_of_middle (name : String) :
    name ∈ middle.history.names ↔
      name ∈ session.history.names ∨ name ∈ expressions.keys := by
  rw [← mem_names_declareAll]
  have sameNames := (recording_of_evaluateAll_ok evaluated).names_eq fun other member => by
    rw [Entries.keys, List.map_take] at member
    exact (mem_names_declareAll session expressions other).mpr (.inr (List.mem_of_mem_take member))
  rw [sameNames]

theorem Sound.records_of_middle (sound : session.Sound) :
    Records mesh session.history values middle.history :=
  sound.records (List.take_append_drop count expressions.entries).symm
    (recording_of_evaluateAll_ok evaluated)

end Middle

/-- In the middle of a cycle an identifier reads the value that its expression
has got in this cycle, and if it has got none yet, the newest entry from before
the cycle.  Without an entry the history of the name is empty, and the name is
unknown exactly if the cycle does not list it and no call has made it known
since the last load. -/
theorem identifier_reads_newest {config : Config} {start middle : Session}
    (created : create config = .ok start) (calls : List Call) {mesh : Dataset}
    {expressions : Expressions} {count : Nat} {values : List (String × Value)}
    (evaluated : ((start.performAll calls).declareAll expressions.keys).evaluateAll mesh
      (expressions.entries.take count) = (middle, .ok values)) :
    ((start.performAll calls).runCycle mesh expressions =
        ((middle.evaluateAll mesh (expressions.entries.drop count)).1,
          (middle.evaluateAll mesh (expressions.entries.drop count)).2.map (values ++ ·)) ∧
      Entries.keys values = expressions.keys.take count) ∧
    ∀ name inputs,
      let read := (Operation.identifier name).run inputs (middle.environment mesh)
      let newest := ((start.performAll calls).history.timelineOf name).latest?
      (∀ value, (name, value) ∈ values → read = .ok ⟨value, some name⟩) ∧
      (name ∉ expressions.keys.take count →
        (∀ output, read = .ok output ↔
          ∃ entry, newest = some entry ∧ output = ⟨entry.value, some name⟩) ∧
        (read = .error (.emptyHistory name) ↔
          newest = none ∧ (name ∈ expressions.keys ∨ start.BroughtBy calls name))) ∧
      ((∃ known, read = .error (.unknownIdentifier name known)) ↔
        name ∉ expressions.keys ∧ ¬ start.BroughtBy calls name) := by
  have sound := ((sound_of_create created).1.performAll calls).1
  have keys := keys_of_middle evaluated
  have records := sound.records_of_middle evaluated
  refine ⟨⟨runCycle_from_middle evaluated, keys⟩, fun name inputs => ?_⟩
  have known := mem_names_of_middle evaluated name
  rw [mem_names_iff_broughtBy created] at known
  have reads : (Operation.identifier name).run inputs (middle.environment mesh) =
      (middle.history.latest name).map fun entry => ⟨entry.value, some name⟩ := rfl
  intro read newest
  refine ⟨fun value member => ?_, fun notYet => ?_, ?_⟩
  · have latest : (middle.history.timelineOf name).latest? = some (entryOf mesh value) :=
      (records.gains name value member).latest
    rcases middle.history.latest_cases name with ⟨entry, found, _, result⟩ | ⟨missing, _⟩
    · rw [latest] at found
      cases found
      exact reads.trans (by rw [result]; rfl)
    · rw [latest] at missing
      cases missing
  · have unchanged : (middle.history.timelineOf name).latest? = newest := by
      rw [records.others name (keys ▸ notYet)]
    rcases middle.history.latest_cases name with ⟨entry, found, _, result⟩ |
      ⟨missing, ⟨isKnown, result⟩ | ⟨isUnknown, result⟩⟩
    · rw [unchanged] at found
      simp [read, reads, result, found, Except.map, eq_comm]
    · rw [unchanged] at missing
      simp [read, reads, result, missing, Except.map, or_comm.trans known.symm, isKnown]
    · rw [unchanged] at missing
      simp [read, reads, result, missing, Except.map, or_comm.trans known.symm, isUnknown]
  · rw [← not_or, or_comm, ← known]
    rcases middle.history.latest_cases name with ⟨entry, _, isKnown, result⟩ |
      ⟨_, ⟨isKnown, result⟩ | ⟨isUnknown, result⟩⟩
    · simp [read, reads, result, Except.map, isKnown]
    · simp [read, reads, result, Except.map, isKnown]
    · simp [read, reads, result, Except.map, isUnknown]

/-- The expression whose value is one, and another one that recalls it. -/
def oneRecalled : Expressions :=
  Table.ofList
    [("one", ⟨"one", Table.ofList [("literal", ⟨.literal .int (.int 1), Table.empty⟩)],
      some "literal"⟩),
    ("recalled", ⟨"recalled", Table.ofList [("identifier", ⟨.identifier "one", Table.empty⟩)],
      some "identifier"⟩)]

theorem oneRecalled_reads_one :
    create { maxHistory := some 2 } = .ok keepsTwo ∧
      ∃ middle,
        ((keepsTwo.performAll []).declareAll oneRecalled.keys).evaluateAll (bareMesh 1)
          (oneRecalled.entries.take 1) = (middle, .ok [("one", .int 1)]) ∧
        ((keepsTwo.performAll []).runCycle (bareMesh 1) oneRecalled).2 =
          .ok [("one", .int 1), ("recalled", .int 1)] ∧
        ∀ inputs,
          (Operation.identifier "one").run inputs (middle.environment (bareMesh 1)) =
            .ok ⟨.int 1, some "one"⟩ ∧
          (Operation.identifier "recalled").run inputs (middle.environment (bareMesh 1)) =
            .error (.emptyHistory "recalled") ∧
          ∃ known,
            (Operation.identifier "two").run inputs (middle.environment (bareMesh 1)) =
              .error (.unknownIdentifier "two" known) := by
  have created : create { maxHistory := some 2 } = .ok keepsTwo := rfl
  have first : (((keepsTwo.performAll []).declareAll oneRecalled.keys).evaluateAll (bareMesh 1)
      (oneRecalled.entries.take 1)).2 = .ok [("one", .int 1)] := by
    cbv
  have ran : ((keepsTwo.performAll []).runCycle (bareMesh 1) oneRecalled).2 =
      .ok [("one", .int 1), ("recalled", .int 1)] := by
    cbv
  obtain ⟨_, reads⟩ := identifier_reads_newest created [] (Prod.ext rfl first)
  refine ⟨created, _, Prod.ext rfl first, ran, fun inputs => ⟨?_, ?_, ?_⟩⟩
  · exact (reads "one" inputs).1 _ List.mem_cons_self
  · exact ((reads "recalled" inputs).2.1 (by decide)).2.mpr ⟨rfl, .inl (by decide)⟩
  · exact (reads "two" inputs).2.2.mpr ⟨by decide, broughtBy_nil _ _⟩

end Session

end InSitu
