import InSitu.Proofs.Operation.Axes
import InSitu.Proofs.Session.Run

/-!
# The axes in a history

The axes in the values that a session records are well formed if those in the literals of its
expressions are: a graph hands on what its operations make, a cycle records what its graphs answer,
and a load puts in place only what has been read, where every axis is checked.
-/

namespace InSitu

namespace Graph

/-- The literals of a graph hold axes that can be asked for. -/
def LiteralsWellFormed (graph : Graph) : Prop :=
  ∀ name node, graph.nodes.get? name = some node → node.operation.WellFormed

/-- The outputs of nodes hold axes that can be asked for. -/
def OutputsWellFormed (outputs : Table Output) : Prop :=
  ∀ name output, outputs.get? name = some output → output.value.WellFormed

variable {graph : Graph} {environment : Environment} {outputs : Table Output}

theorem OutputsWellFormed.gather (wellFormed : OutputsWellFormed outputs)
    (sources : List (String × String)) :
    Yields (fun bound => ∀ entry ∈ bound, entry.2.value.WellFormed)
      (Graph.gather outputs sources) := by
  induction sources with
  | nil =>
      simp [Graph.gather]
  | cons source rest inductionHypothesis =>
      obtain ⟨inlet, source⟩ := source
      rw [Graph.gather]
      cases found : outputs.get? source with
      | none =>
          exact yields_error _
      | some output =>
          simp only [yields_map, List.forall_mem_cons]
          intro bound gathered
          exact ⟨wellFormed source output found, inductionHypothesis bound gathered⟩

theorem OutputsWellFormed.runNode (wellFormed : OutputsWellFormed outputs)
    (literals : graph.LiteralsWellFormed) (seen : environment.WellFormed) (name : String) :
    Yields (fun output : Output => output.value.WellFormed)
      (graph.runNode environment outputs name) := by
  rw [Graph.runNode]
  cases found : graph.nodes.get? name with
  | none =>
      exact yields_error _
  | some node =>
      simp only [yields_bind]
      intro bound gathered
      have fed : Inputs.WellFormed ⟨graph.qualified name, Table.ofList bound⟩ := by
        intro inlet output isBound
        exact wellFormed.gather node.sources.entries bound gathered _
          (Table.mem_of_get?_ofList isBound)
      exact Operation.wellFormed_run (literals name node found) fed seen

theorem OutputsWellFormed.runNodes (literals : graph.LiteralsWellFormed)
    (seen : environment.WellFormed) (pending : List String)
    (wellFormed : OutputsWellFormed outputs) (symbols : Symbols) :
    Yields OutputsWellFormed (graph.runNodes environment pending outputs symbols).2 := by
  induction pending generalizing outputs symbols with
  | nil =>
      exact yields_ok.mpr wellFormed
  | cons name rest inductionHypothesis =>
      rw [Graph.runNodes]
      cases ran : graph.runNode environment outputs name with
      | error fault =>
          exact yields_error fault
      | ok output =>
          refine inductionHypothesis ?_ _
          intro other found isFound
          rw [Table.get?_insert] at isFound
          split at isFound
          · cases isFound
            exact wellFormed.runNode literals seen name output ran
          · exact wellFormed other found isFound

/-- What a graph answers holds well formed axes if its literals and the history do. -/
theorem wellFormed_answer (literals : graph.LiteralsWellFormed) (seen : environment.WellFormed) :
    Yields Value.WellFormed (graph.answer environment) := by
  rw [answer, evaluate]
  cases graph.verify with
  | error fault =>
      exact yields_error fault
  | ok layers =>
      have none : OutputsWellFormed Table.empty := by
        intro name output found
        cases found
      have ran := OutputsWellFormed.runNodes literals seen layers.flatten none Table.empty
      change Yields Value.WellFormed (_ >>= _)
      simp only [yields_bind]
      intro outputs isRun
      rw [outputValue]
      split
      · rename_i output found
        obtain ⟨name, _, isFound⟩ := Option.bind_eq_some_iff.mp found
        exact yields_ok.mpr (ran outputs isRun name output isFound)
      · exact yields_error _

end Graph

namespace History

variable {history later : ValueHistory}

theorem wellFormed_empty (cap : Option Nat) : (empty cap : ValueHistory).WellFormed := by
  intro name entry member
  cases member

theorem WellFormed.foldl_declare (wellFormed : history.WellFormed) (names : List String) :
    (names.foldl declare history).WellFormed := by
  intro name entry member
  rw [timelineOf_foldl_declare] at member
  exact wellFormed name entry member

theorem WellFormed.append (wellFormed : history.WellFormed) {name : String} {entry : ValueEntry}
    (value : entry.value.WellFormed) (appended : history.append name entry = .ok later) :
    later.WellFormed := by
  intro other found member
  by_cases same : other = name
  · rw [same, timelineOf_append_self appended] at member
    rcases List.mem_append.mp member with old | new
    · exact wellFormed name found ((Timeline.makeRoom_sublist _ _).subset old)
    · rw [List.mem_singleton.mp new]
      exact value
  · rw [timelineOf_append_of_ne appended same] at member
    exact wellFormed other found member

end History

namespace Session

theorem Recording.wellFormed {config : Config} {mesh : Dataset} {before after : ValueHistory}
    {expressions : List (String × Graph)} {values : List (String × Value)}
    (recording : Recording config mesh before expressions values after)
    (counted : config.defaultBins < UInt64.size)
    (literals : ∀ entry ∈ expressions, entry.2.LiteralsWellFormed)
    (wellFormed : before.WellFormed) :
    after.WellFormed := by
  induction recording with
  | nil history =>
      exact wellFormed
  | cons answered appended others inductionHypothesis =>
      obtain ⟨first, rest⟩ := List.forall_mem_cons.mp literals
      have value := Graph.wellFormed_answer first ⟨wellFormed, counted⟩ _ answered
      exact inductionHypothesis rest (wellFormed.append value appended)

end Session

end InSitu
