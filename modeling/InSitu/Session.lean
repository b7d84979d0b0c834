import InSitu.Graph.Evaluation
import InSitu.History.Snapshot
/-!
Sessions: what lasts from one cycle to the next.

Every cycle evaluates the expressions in order and records each value before the next one is
evaluated, so an expression sees the values of those before it. The first fault ends the cycle;
what was recorded before it stays.
-/

namespace InSitu

/-- The expressions to evaluate, in order. -/
abbrev Expressions := Table Graph

/-- The state of a session. -/
structure Session where
  history : ValueHistory
  /-- The latest value of every node. -/
  symbols : Symbols
  config : Config

namespace Session

/-- A new session; its settings must be sound. -/
def create (config : Config) : Except Fault Session := do
  config.check
  return ⟨History.empty config.maxHistory, Table.empty, config⟩

def environment (session : Session) (mesh : Dataset) : Environment :=
  ⟨session.history, mesh, session.config⟩

def declareAll (session : Session) (names : List String) : Session :=
  { session with history := names.foldl History.declare session.history }

def evaluateOne (session : Session) (mesh : Dataset) (name : String) (graph : Graph) :
    Session × Except Fault Value :=
  let (symbols, result) := graph.evaluate (session.environment mesh) session.symbols
  let session := { session with symbols }
  match result with
  | .error fault => (session, .error fault)
  | .ok value =>
    match session.history.append name ⟨mesh.cycle, mesh.time, value⟩ with
    | .error fault => (session, .error fault)
    | .ok history => ({ session with history }, .ok value)

/-- Evaluates expressions in order up to the first fault. -/
def evaluateAll (session : Session) (mesh : Dataset) :
    List (String × Graph) → Session × Except Fault (List (String × Value))
  | [] => (session, .ok [])
  | (name, graph) :: rest =>
    match session.evaluateOne mesh name graph with
    | (session, .error fault) => (session, .error fault)
    | (session, .ok value) =>
      let (session, results) := session.evaluateAll mesh rest
      (session, results.map ((name, value) :: ·))

/-- Runs a cycle on a dataset. All expressions are mentioned first, so they may refer to each
other before their first value. -/
def runCycle (session : Session) (mesh : Dataset) (expressions : Expressions) :
    Session × Except Fault (List (String × Value)) :=
  (session.declareAll expressions.keys).evaluateAll mesh expressions.entries

def resetSymbols (session : Session) : Session := { session with symbols := Table.empty }

/-- The text that is saved: the selected timelines of the history. -/
def save (session : Session) : String :=
  (Snapshot.capture session.history session.config.persist).text

/-- The session with a saved history in place of its own. -/
def load (session : Session) (text : String) : Except Fault Session := do
  let snapshot ← Snapshot.parse text
  let history ← snapshot.restore session.config.maxHistory
  return { session with history }

end Session

end InSitu
