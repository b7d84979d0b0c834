import InSitu.Proofs.History.Soundness
import InSitu.Session

/-!
# What a cycle records

A cycle evaluates its expressions in order, each against the history that holds
the values of those before it, and stops at the first that has no value or whose
timeline is not behind the dataset.  The relation `Recording` follows the part
that succeeds; what it did to the history is read off the list of its values.
-/

namespace InSitu

namespace Graph

variable {graph : Graph} {environment : Environment}

theorem runNodes_snd (pending : List String) (outputs : Table Output)
    (symbols others : Symbols) :
    (graph.runNodes environment pending outputs symbols).2 =
      (graph.runNodes environment pending outputs others).2 := by
  induction pending generalizing outputs symbols others with
  | nil =>
      rfl
  | cons name rest inductionHypothesis =>
      rw [runNodes, runNodes]
      cases graph.runNode environment outputs name with
      | error fault =>
          rfl
      | ok output =>
          exact inductionHypothesis _ _ _

/-- The value or the fault of a graph, whatever symbols are recorded. -/
def answer (graph : Graph) (environment : Environment) : Except Fault Value :=
  (graph.evaluate environment Table.empty).2

/-- The symbols are for inspection only. -/
theorem evaluate_snd (symbols : Symbols) :
    (graph.evaluate environment symbols).2 = graph.answer environment := by
  rw [answer, evaluate, evaluate]
  cases graph.verify with
  | error fault =>
      rfl
  | ok levels =>
      exact congrArg (·.bind graph.outputValue) (runNodes_snd ..)

end Graph

namespace Session

open Timeline

/-- The entry that a dataset gives a value. -/
def entryOf (mesh : Dataset) (value : Value) : ValueEntry :=
  ⟨mesh.cycle, mesh.time, value⟩

/-- Expressions are evaluated one after the other and each value is recorded
before the next expression is evaluated. -/
inductive Recording (config : Config) (mesh : Dataset) :
    ValueHistory → List (String × Graph) → List (String × Value) →
      ValueHistory → Prop where
  | nil (history : ValueHistory) : Recording config mesh history [] [] history
  | cons {history middle later : ValueHistory} {name : String} {graph : Graph}
      {value : Value} {rest : List (String × Graph)}
      {values : List (String × Value)}
      (answered : graph.answer ⟨history, mesh, config⟩ = .ok value)
      (appended : history.append name (entryOf mesh value) = .ok middle)
      (others : Recording config mesh middle rest values later) :
      Recording config mesh history ((name, graph) :: rest)
        ((name, value) :: values) later

/-- An expression stops a cycle: it has no value, or its value is refused. -/
def Stops (config : Config) (mesh : Dataset) (history : ValueHistory)
    (name : String) (graph : Graph) (fault : Fault) : Prop :=
  graph.answer ⟨history, mesh, config⟩ = .error fault ∨
    ∃ value, graph.answer ⟨history, mesh, config⟩ = .ok value ∧
      history.append name (entryOf mesh value) = .error fault

/-- An expression whose value is recorded does not stop a cycle. -/
theorem not_stops {config : Config} {mesh : Dataset} {history appended : ValueHistory}
    {name : String} {graph : Graph} {value : Value}
    (answered : graph.answer ⟨history, mesh, config⟩ = .ok value)
    (accepted : history.append name (entryOf mesh value) = .ok appended) (fault : Fault) :
    ¬ Stops config mesh history name graph fault := by
  rintro (unanswered | ⟨other, otherAnswered, refused⟩)
  · rw [answered] at unanswered
    cases unanswered
  · rw [answered] at otherAnswered
    cases otherAnswered
    rw [accepted] at refused
    cases refused

theorem evaluateOne_cases (session : Session) (mesh : Dataset) (name : String)
    (graph : Graph) :
    (∃ symbols fault,
      Stops session.config mesh session.history name graph fault ∧
      session.evaluateOne mesh name graph =
        ({ session with symbols }, .error fault)) ∨
    ∃ symbols value history,
      graph.answer (session.environment mesh) = .ok value ∧
      session.history.append name (entryOf mesh value) = .ok history ∧
      session.evaluateOne mesh name graph =
        ({ session with symbols, history }, .ok value) := by
  let symbols := (graph.evaluate (session.environment mesh) session.symbols).1
  cases answered : graph.answer (session.environment mesh) with
  | error fault =>
      have evaluated := (Graph.evaluate_snd session.symbols).trans answered
      refine Or.inl ⟨symbols, fault, Or.inl answered, ?_⟩
      simp only [evaluateOne, evaluated, symbols]
  | ok value =>
      have evaluated := (Graph.evaluate_snd session.symbols).trans answered
      cases appended : session.history.append name (entryOf mesh value) with
      | error fault =>
          refine Or.inl ⟨symbols, fault, Or.inr ⟨value, answered, appended⟩, ?_⟩
          rw [entryOf] at appended
          simp only [evaluateOne, evaluated, appended, symbols]
      | ok history =>
          refine Or.inr ⟨symbols, value, history, rfl, appended, ?_⟩
          rw [entryOf] at appended
          simp only [evaluateOne, evaluated, appended, symbols]

/-- Evaluating expressions records a first part of them and stops at the next
expression, if there is one. -/
theorem evaluateAll_recording (session : Session) (mesh : Dataset)
    (expressions : List (String × Graph)) :
    ∃ front back values,
      expressions = front ++ back ∧
      Recording session.config mesh session.history front values
        (session.evaluateAll mesh expressions).1.history ∧
      (session.evaluateAll mesh expressions).1.config = session.config ∧
      (back = [] ∧ (session.evaluateAll mesh expressions).2 = .ok values ∨
        ∃ name graph rest fault, back = (name, graph) :: rest ∧
          Stops session.config mesh
            (session.evaluateAll mesh expressions).1.history name graph fault ∧
          (session.evaluateAll mesh expressions).2 = .error fault) := by
  induction expressions generalizing session with
  | nil =>
      exact ⟨[], [], [], rfl, .nil _, rfl, Or.inl ⟨rfl, rfl⟩⟩
  | cons first rest inductionHypothesis =>
      obtain ⟨name, graph⟩ := first
      rw [evaluateAll]
      rcases evaluateOne_cases session mesh name graph with
        ⟨symbols, fault, stops, evaluated⟩ |
        ⟨symbols, value, history, answered, appended, evaluated⟩
      · rw [evaluated]
        exact ⟨[], (name, graph) :: rest, [], rfl, .nil _, rfl,
          Or.inr ⟨name, graph, rest, fault, rfl, stops, rfl⟩⟩
      · rw [evaluated]
        obtain ⟨front, back, values, split, recording, sameConfig, ending⟩ :=
          inductionHypothesis { session with symbols, history }
        refine ⟨(name, graph) :: front, back, (name, value) :: values,
          by rw [split, List.cons_append], .cons answered appended recording,
          sameConfig, ?_⟩
        rcases ending with ⟨backEmpty, result⟩ |
          ⟨stopName, stopGraph, after, fault, backCons, stops, result⟩
        · refine Or.inl ⟨backEmpty, ?_⟩
          simp only [result]
          rfl
        · refine Or.inr ⟨stopName, stopGraph, after, fault, backCons, stops, ?_⟩
          simp only [result]
          rfl

/-! ## What is recorded -/

/-- Values are recorded: each of their names has only older entries and gains
one, and the timelines of all other names stay as they are. -/
structure Records (mesh : Dataset) (before : ValueHistory)
    (values : List (String × Value)) (after : ValueHistory) : Prop where
  newer : ∀ name ∈ Entries.keys values,
    Newer (before.timelineOf name).entries mesh.cycle
  gains : ∀ name value, (name, value) ∈ values →
    Gains before.cap (before.timelineOf name).entries (entryOf mesh value)
      (after.timelineOf name).entries
  others : ∀ name, name ∉ Entries.keys values →
    after.timelineOf name = before.timelineOf name

namespace Recording

variable {config : Config} {mesh : Dataset} {before after : ValueHistory}
  {expressions : List (String × Graph)} {values : List (String × Value)}

theorem keys_eq
    (recording : Recording config mesh before expressions values after) :
    Entries.keys values = Entries.keys expressions := by
  induction recording with
  | nil history =>
      rfl
  | cons answered appended others inductionHypothesis =>
      exact congrArg (List.cons _) inductionHypothesis

theorem cap_eq
    (recording : Recording config mesh before expressions values after) :
    after.cap = before.cap := by
  induction recording with
  | nil history =>
      rfl
  | cons answered appended others inductionHypothesis =>
      exact inductionHypothesis.trans (History.cap_append appended)

/-- Recording values of known names mentions no other name. -/
theorem names_eq
    (recording : Recording config mesh before expressions values after)
    (known : ∀ name ∈ Entries.keys expressions, name ∈ before.names) :
    after.names = before.names := by
  induction recording with
  | nil history =>
      rfl
  | cons answered appended others inductionHypothesis =>
      have sameNames :=
        History.names_append appended (known _ (List.mem_cons_self ..))
      rw [← sameNames]
      refine inductionHypothesis fun other member => ?_
      rw [sameNames]
      exact known other (List.mem_cons_of_mem _ member)

theorem sound
    (recording : Recording config mesh before expressions values after)
    (beforeSound : before.Sound) (positive : before.cap ≠ some 0) :
    after.Sound := by
  induction recording with
  | nil history =>
      exact beforeSound
  | cons answered appended others inductionHypothesis =>
      refine inductionHypothesis (.append appended beforeSound positive) ?_
      rw [History.cap_append appended]
      exact positive

/-- Recording values under distinct names adds the entry of each to the end of
its own timeline. -/
theorem records
    (recording : Recording config mesh before expressions values after)
    (distinct : (Entries.keys expressions).Nodup)
    (beforeSound : before.Sound) (positive : before.cap ≠ some 0) :
    Records mesh before values after := by
  induction recording with
  | nil history =>
      exact ⟨fun _ member => False.elim (List.not_mem_nil member),
        fun _ _ member => False.elim (List.not_mem_nil member),
        fun _ _ => rfl⟩
  | @cons history middle later name graph value rest values answered appended
      others inductionHypothesis =>
      obtain ⟨notInExpressions, restDistinct⟩ := List.nodup_cons.mp distinct
      have notLater : name ∉ Entries.keys values := by
        rw [others.keys_eq]
        exact notInExpressions
      have sameCap := History.cap_append appended
      have restRecords := inductionHypothesis restDistinct
        (.append appended beforeSound positive) (sameCap ▸ positive)
      -- The first name does not come again, so its timeline is final, and the
      -- other timelines have not changed yet.
      have own := restRecords.others name notLater
      have unchanged : ∀ other, other ≠ name →
          middle.timelineOf other = history.timelineOf other :=
        fun other different => History.timelineOf_append_of_ne appended different
      have different : ∀ other ∈ Entries.keys values, other ≠ name :=
        fun other member same => notLater (same ▸ member)
      refine ⟨?_, ?_, ?_⟩
      · intro other member
        rcases List.mem_cons.mp member with rfl | inRest
        · exact History.newer_of_append appended
        · rw [← unchanged other (different other inRest)]
          exact restRecords.newer other inRest
      · intro other otherValue member
        rcases List.mem_cons.mp member with same | inRest
        · cases same
          rw [own, History.timelineOf_append_self appended]
          exact gains_makeRoom (beforeSound.timelineOf name).2 positive _
        · have otherDifferent :=
            different other (Entries.mem_keys_of_mem inRest)
          rw [← unchanged other otherDifferent, ← sameCap]
          exact restRecords.gains other otherValue inRest
      · intro other notMember
        have otherDifferent : other ≠ name := List.ne_of_not_mem_cons notMember
        have notInRest : other ∉ Entries.keys values :=
          List.not_mem_of_not_mem_cons notMember
        exact (restRecords.others other notInRest).trans
          (unchanged other otherDifferent)

end Recording

end Session

end InSitu
