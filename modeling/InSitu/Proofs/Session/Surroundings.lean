import InSitu.Proofs.Graph.Contents
import InSitu.Proofs.Operation.Needed
import InSitu.Proofs.Session.Recording

/-!
# What an expression sees of its surroundings

Besides its inputs an operation sees the dataset and the default number of bins, and it sees the
history only if it recalls what expressions were recorded.  No other setting is seen, and none of
the symbols.  So a graph has one answer in all environments that its operations cannot tell apart.
-/

namespace InSitu

namespace Operation

/-- Whether an operation recalls what was recorded. -/
def recalls : Operation → Bool
  | .identifier _ => true
  | operation => operation.readsHistory

/-- Two environments that an operation cannot tell apart. -/
structure SeesAlike (operation : Operation) (first second : Environment) : Prop where
  mesh : first.mesh = second.mesh
  defaultBins : first.config.defaultBins = second.config.defaultBins
  history : operation.recalls = true → first.history = second.history

variable {operation : Operation} {first second : Environment}

theorem value_eq_of_seesAlike (alike : operation.SeesAlike first second) (inputs : Inputs) :
    operation.value inputs first = operation.value inputs second := by
  obtain ⟨firstHistory, mesh, firstConfig⟩ := first
  obtain ⟨secondHistory, secondMesh, secondConfig⟩ := second
  obtain ⟨sameMesh, sameBins, sameHistory⟩ := alike
  cases sameMesh
  cases operation with
  | identifier | history | historyRange | historyGradient | historyRangeGradient =>
      cases sameHistory rfl
      rfl
  | histogram =>
      dsimp only at sameBins
      simp only [value, Run.histogram, sameBins]
  | binning =>
      dsimp only at sameBins
      simp only [value, Run.binning, sameBins]
  | _ =>
      rfl

theorem run_eq_of_seesAlike (alike : operation.SeesAlike first second) (inputs : Inputs) :
    operation.run inputs first = operation.run inputs second := by
  unfold run
  split
  · rw [newestOf, newestOf, alike.history rfl]
  · rw [value_eq_of_seesAlike alike inputs]

end Operation

namespace Graph

variable {graph : Graph} {first second : Environment}

/-- Two environments that no operation of a graph can tell apart. -/
def SeesAlike (graph : Graph) (first second : Environment) : Prop :=
  ∀ name operation, graph.operation? name = some operation → operation.SeesAlike first second

theorem runNode_eq_of_seesAlike (alike : graph.SeesAlike first second) (outputs : Table Output)
    (name : String) :
    graph.runNode first outputs name = graph.runNode second outputs name := by
  rw [runNode, runNode]
  cases found : graph.nodes.get? name with
  | none =>
      rfl
  | some node =>
      have nodeAlike := alike name node.operation (operation?_of_get? found)
      simp only [Operation.run_eq_of_seesAlike nodeAlike]

theorem runNodes_eq_of_seesAlike (alike : graph.SeesAlike first second) (names : List String)
    (outputs : Table Output) (symbols others : Symbols) :
    (graph.runNodes first names outputs symbols).2 =
      (graph.runNodes second names outputs others).2 := by
  induction names generalizing outputs symbols others with
  | nil =>
      rfl
  | cons name rest inductionHypothesis =>
      rw [runNodes, runNodes, runNode_eq_of_seesAlike alike]
      cases graph.runNode second outputs name with
      | error fault =>
          rfl
      | ok output =>
          exact inductionHypothesis _ _ _

theorem answer_eq_of_seesAlike (alike : graph.SeesAlike first second) :
    graph.answer first = graph.answer second := by
  rw [answer, answer, evaluate, evaluate]
  cases graph.verify with
  | error fault =>
      rfl
  | ok levels =>
      exact congrArg (·.bind graph.outputValue) (runNodes_eq_of_seesAlike alike ..)

end Graph

end InSitu
