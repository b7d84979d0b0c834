import InSitu.Proofs.Session.Run
import InSitu.Proofs.Session.Surroundings

/-!
# Symbols are for inspection

The symbols of a session, and the setting that records them, change no answer and no history.  Two
sessions that differ in nothing else answer every call alike and differ in nothing else after it; so
they show the same to their callers, wherever the symbols of either are reset.
-/

namespace InSitu

namespace Session

/-- What is left of a session without its symbols and without the setting that records them. -/
def withoutSymbols (session : Session) : Session :=
  { session with
    symbols := Table.empty
    config := { session.config with recordSymbols := false } }

/-- The same is left of two sessions if they are equal but for the symbols and the setting. -/
theorem withoutSymbols_eq_iff {first second : Session} :
    first.withoutSymbols = second.withoutSymbols ↔
      ∃ symbols recordSymbols, second =
        { first with symbols, config := { first.config with recordSymbols } } := by
  constructor
  · intro same
    refine ⟨second.symbols, second.config.recordSymbols, ?_⟩
    obtain ⟨firstHistory, firstSymbols, firstConfig⟩ := first
    obtain ⟨secondHistory, secondSymbols, secondConfig⟩ := second
    obtain ⟨defaultBins, recordSymbols, persist, maxHistory⟩ := secondConfig
    simp only [withoutSymbols, mk.injEq, Config.mk.injEq, true_and] at same
    obtain ⟨rfl, rfl, rfl, rfl⟩ := same
    rfl
  · rintro ⟨symbols, recordSymbols, rfl⟩
    rfl

/-- A step of sessions shows nothing of their symbols: where they are equal otherwise it has one
answer, and they are so after it. -/
def HidesSymbols {α : Type} (step : Session → Session × α) : Prop :=
  ∀ first second : Session, first.withoutSymbols = second.withoutSymbols →
    (step first).2 = (step second).2 ∧
      (step first).1.withoutSymbols = (step second).1.withoutSymbols

theorem hidesSymbols_evaluateOne (mesh : Dataset) (name : String) (graph : Graph) :
    HidesSymbols (·.evaluateOne mesh name graph) := by
  intro first second same
  obtain ⟨symbols, recordSymbols, rfl⟩ := withoutSymbols_eq_iff.mp same
  -- Neither the symbols nor the setting reaches the answer of a graph.
  have sameAnswer : ∀ environment, environment.history = first.history →
      environment.mesh = mesh → environment.config.defaultBins = first.config.defaultBins →
        ∀ before, (graph.evaluate environment before).2 =
          graph.answer (first.environment mesh) := by
    intro environment sameHistory sameMesh sameBins before
    rw [Graph.evaluate_snd]
    exact Graph.answer_eq_of_seesAlike fun _ _ _ => ⟨sameMesh, sameBins, fun _ => sameHistory⟩
  simp only [evaluateOne]
  rw [sameAnswer _ rfl rfl rfl, sameAnswer _ rfl rfl rfl]
  cases graph.answer (first.environment mesh) with
  | error fault =>
      exact ⟨rfl, rfl⟩
  | ok value =>
      dsimp only
      cases first.history.append name ⟨mesh.cycle, mesh.time, value⟩ with
      | error fault =>
          exact ⟨rfl, rfl⟩
      | ok history =>
          exact ⟨rfl, rfl⟩

theorem hidesSymbols_evaluateAll (mesh : Dataset) (expressions : List (String × Graph)) :
    HidesSymbols (·.evaluateAll mesh expressions) := by
  induction expressions with
  | nil =>
      exact fun first second same => ⟨rfl, same⟩
  | cons expression rest inductionHypothesis =>
      obtain ⟨name, graph⟩ := expression
      intro first second same
      have step := hidesSymbols_evaluateOne mesh name graph first second same
      dsimp only at step
      simp only [evaluateAll]
      generalize first.evaluateOne mesh name graph = firstStep at step ⊢
      generalize second.evaluateOne mesh name graph = secondStep at step ⊢
      obtain ⟨firstAfter, firstAnswer⟩ := firstStep
      obtain ⟨secondAfter, secondAnswer⟩ := secondStep
      obtain ⟨sameAnswer, sameAfter⟩ := step
      cases sameAnswer
      cases firstAnswer with
      | error fault =>
          exact ⟨rfl, sameAfter⟩
      | ok value =>
          obtain ⟨sameResults, sameLast⟩ := inductionHypothesis firstAfter secondAfter sameAfter
          exact ⟨congrArg (Except.map _) sameResults, sameLast⟩

theorem hidesSymbols_perform (call : Call) : HidesSymbols (·.perform call) := by
  intro first second same
  cases call with
  | cycle mesh expressions =>
      refine hidesSymbols_evaluateAll mesh expressions.entries _ _ ?_
      obtain ⟨symbols, recordSymbols, rfl⟩ := withoutSymbols_eq_iff.mp same
      rfl
  | load content =>
      obtain ⟨symbols, recordSymbols, rfl⟩ := withoutSymbols_eq_iff.mp same
      cases content with
      | none =>
          exact ⟨rfl, rfl⟩
      | some text =>
          simp only [perform, load]
          cases Snapshot.parse text with
          | error fault =>
              exact ⟨rfl, rfl⟩
          | ok snapshot =>
              simp only [bind, Except.bind]
              cases snapshot.restore first.config.maxHistory with
              | error fault =>
                  exact ⟨rfl, rfl⟩
              | ok history =>
                  exact ⟨rfl, rfl⟩
  | resetSymbols =>
      obtain ⟨symbols, recordSymbols, rfl⟩ := withoutSymbols_eq_iff.mp same
      exact ⟨rfl, rfl⟩

/-- Calls without the resets of the symbols. -/
def withoutResets : List Call → List Call
  | [] => []
  | .resetSymbols :: rest => withoutResets rest
  | call :: rest => call :: withoutResets rest

/-- What calls show in order: the answer of each and the history after it.  A reset shows
nothing. -/
def shown (session : Session) :
    List Call → List (Except Fault (List (String × Value)) × ValueHistory)
  | [] => []
  | .resetSymbols :: rest => session.resetSymbols.shown rest
  | call :: rest =>
    ((session.perform call).2, (session.perform call).1.history) ::
      (session.perform call).1.shown rest

/-- What calls show does not depend on the symbols, nor on where these are reset. -/
theorem shown_eq_shown_withoutResets {first second : Session}
    (same : first.withoutSymbols = second.withoutSymbols) (calls : List Call) :
    first.shown calls = second.shown (withoutResets calls) ∧
      (first.performAll calls).withoutSymbols =
        (second.performAll (withoutResets calls)).withoutSymbols := by
  induction calls generalizing first second with
  | nil =>
      exact ⟨rfl, same⟩
  | cons call rest inductionHypothesis =>
      have step := hidesSymbols_perform call first second same
      cases call with
      | resetSymbols =>
          have sameReset : first.resetSymbols.withoutSymbols = second.withoutSymbols := same
          exact inductionHypothesis sameReset
      | cycle | load =>
          obtain ⟨sameRest, sameLast⟩ := inductionHypothesis step.2
          have sameHistory := congrArg Session.history step.2
          refine ⟨?_, sameLast⟩
          exact congrArg₂ List.cons (Prod.ext step.1 sameHistory) sameRest

/-- The symbols are for inspection only.  Take two sessions that are equal but for their symbols and
for the setting that records them, and calls that are the same but for resets of the symbols.  Then
every call has the same answer or the same fault, the histories are equal after each, and so is what
is saved at the end. -/
theorem symbols_are_for_inspection {first second : Session}
    (same : first.withoutSymbols = second.withoutSymbols) {firstCalls secondCalls : List Call}
    (sameCalls : withoutResets firstCalls = withoutResets secondCalls) :
    first.shown firstCalls = second.shown secondCalls ∧
      (first.performAll firstCalls).save = (second.performAll secondCalls).save := by
  obtain ⟨firstShown, firstLast⟩ := shown_eq_shown_withoutResets same firstCalls
  obtain ⟨secondShown, secondLast⟩ :=
    shown_eq_shown_withoutResets (rfl : second.withoutSymbols = _) secondCalls
  have sameLast : (first.performAll firstCalls).withoutSymbols =
      (second.performAll secondCalls).withoutSymbols := by
    rw [firstLast, secondLast, sameCalls]
  refine ⟨?_, ?_⟩
  · rw [firstShown, secondShown, sameCalls]
  · obtain ⟨symbols, recordSymbols, after⟩ := withoutSymbols_eq_iff.mp sameLast
    rw [after]
    rfl

/-- `keepsTwo` with a symbol of its own and without recording. -/
def recordsNoSymbols : Session :=
  { keepsTwo with
    symbols := Table.ofList [("old.symbol", .int 7)]
    config := { keepsTwo.config with recordSymbols := false } }

/-- A cycle of a dataset and, after the symbols are reset, a second one of the same dataset, which
is refused. -/
def resetBetween : List Call :=
  [.cycle (bareMesh 1) constantOne, .resetSymbols, .cycle (bareMesh 1) constantOne]

theorem recordsNoSymbols_shows_the_same :
    keepsTwo.withoutSymbols = recordsNoSymbols.withoutSymbols ∧
      withoutResets resetBetween = withoutResets (withoutResets resetBetween) ∧
      (keepsTwo.shown resetBetween).map (·.1.toOption) = [some [("one", .int 1)], none] ∧
      keepsTwo.shown resetBetween = recordsNoSymbols.shown (withoutResets resetBetween) ∧
      (keepsTwo.performAll resetBetween).save =
        (recordsNoSymbols.performAll (withoutResets resetBetween)).save := by
  have same : keepsTwo.withoutSymbols = recordsNoSymbols.withoutSymbols := rfl
  have sameCalls : withoutResets resetBetween = withoutResets (withoutResets resetBetween) := rfl
  have answers : (keepsTwo.shown resetBetween).map (·.1.toOption) =
      [some [("one", .int 1)], none] := by
    cbv
  exact ⟨same, sameCalls, answers, symbols_are_for_inspection same sameCalls⟩

end Session

end InSitu
