import InSitu.Proofs.Graph.Editing
import InSitu.Proofs.Graph.Evaluation
import InSitu.Proofs.Operation.Reading

/-!
# The order in which a graph is written

Two graphs with the same contents have the same dependencies, hence the same levels and the same
layers.  They run the same nodes in the same order, and each node on the same inputs, because in the
order of the layers every source has an output before it is read.
-/

namespace InSitu.Graph

/-- Two graphs that hold the same: nodes with the same operations, inlets with the same sources and
the same output.  They may differ in the order of the nodes and of the inlets. -/
structure Alike (first second : Graph) : Prop where
  name : first.name = second.name
  operation? : ∀ name, first.operation? name = second.operation? name
  source? : ∀ name inlet, first.source? name inlet = second.source? name inlet
  output : first.output = second.output

variable {first second : Graph} (alike : Alike first second)

include alike

theorem Alike.symm : Alike second first where
  name := alike.name.symm
  operation? name := (alike.operation? name).symm
  source? name inlet := (alike.source? name inlet).symm
  output := alike.output.symm

theorem Alike.mem_keys_iff {name : String} :
    name ∈ first.nodes.keys ↔ name ∈ second.nodes.keys := by
  rw [Graph.mem_keys_iff, Graph.mem_keys_iff, alike.operation? name]

theorem Alike.dependsOn_iff {name source : String} :
    DependsOn first.nodes name source ↔ DependsOn second.nodes name source := by
  simp only [Graph.dependsOn_iff, alike.source? name]

theorem Alike.sourcesKnown (sourcesKnown : SourcesKnown first.nodes) :
    SourcesKnown second.nodes := by
  intro name source depends
  exact alike.mem_keys_iff.mp (sourcesKnown name source (alike.dependsOn_iff.mpr depends))

theorem Alike.chain {length : Nat} {name : String} (chain : Chain first.nodes length name) :
    Chain second.nodes length name := by
  induction chain with
  | start member =>
      exact .start (alike.mem_keys_iff.mp member)
  | next _ depends inductionHypothesis =>
      exact .next inductionHypothesis (alike.dependsOn_iff.mp depends)

theorem Alike.isLevel_iff {name : String} {level : Nat} :
    IsLevel first.nodes name level ↔ IsLevel second.nodes name level := by
  have sameChains : ∀ length, Chain first.nodes length name ↔ Chain second.nodes length name :=
    fun length => ⟨alike.chain, alike.symm.chain⟩
  simp only [IsLevel, sameChains]

theorem Alike.isLayering {levels : List (List String)} (layering : IsLayering first.nodes levels) :
    IsLayering second.nodes levels := by
  have sameKeys : first.nodes.keys.Perm second.nodes.keys :=
    (List.perm_ext_iff_of_nodup first.nodes.distinct second.nodes.distinct).mpr
      fun name => alike.mem_keys_iff
  refine ⟨layering.perm_keys.trans sameKeys, layering.ne_nil, layering.pairwise_lt,
    fun index name => ?_, fun index level found name member source depends => ?_⟩
  · rw [layering.mem_iff, alike.isLevel_iff]
  · exact layering.source_earlier index level found name member source
      (alike.dependsOn_iff.mpr depends)

theorem Alike.qualified (name : String) : first.qualified name = second.qualified name := by
  rw [Graph.qualified, Graph.qualified, alike.name]

theorem Alike.passes {name : String} {operation : Operation}
    (passes : first.Passes name operation) : second.Passes name operation := by
  refine ⟨?_, fun inlet member required => ?_⟩
  · rw [← alike.qualified]
    exact passes.parameters
  · rw [← alike.source?]
    exact passes.connected inlet member required

theorem Alike.verify {levels : List (List String)} (accepted : first.verify = .ok levels) :
    second.verify = .ok levels := by
  obtain ⟨hasOutput, passes, sourcesKnown, layering⟩ := verify_eq_ok_iff.mp accepted
  apply verify_eq_ok_iff.mpr
  refine ⟨?_, fun name operation holds => ?_, alike.sourcesKnown sourcesKnown,
    alike.isLayering layering⟩
  · rw [← alike.output]
    exact hasOutput
  · exact alike.passes (passes name operation ((alike.operation? name).trans holds))

omit alike in
/-- What is gathered when every source has an output: at each inlet, the output of its source. -/
theorem exists_gather {outputs : Table Output} {sources : List (String × String)}
    (ready : ∀ source ∈ sources.map Prod.snd, outputs.contains source = true) :
    ∃ bound, gather outputs sources = .ok bound ∧ Entries.keys bound = Entries.keys sources ∧
      ∀ inlet, Entries.get? bound inlet = (Entries.get? sources inlet).bind outputs.get? := by
  induction sources with
  | nil =>
      exact ⟨[], rfl, rfl, fun inlet => rfl⟩
  | cons entry rest inductionHypothesis =>
      obtain ⟨inlet, source⟩ := entry
      rw [List.map_cons, List.forall_mem_cons] at ready
      obtain ⟨output, present⟩ := Table.contains_iff_exists.mp ready.1
      obtain ⟨bound, gathered, sameKeys, shows⟩ := inductionHypothesis ready.2
      refine ⟨(inlet, output) :: bound, ?_, ?_, fun shown => ?_⟩
      · simp [gather, present, gathered, Except.map]
      · exact congrArg (inlet :: ·) sameKeys
      · rw [Entries.get?, Entries.get?]
        split
        · exact present.symm
        · exact shows shown

omit alike in
/-- A node whose sources have outputs is run on them. -/
theorem exists_runNode {graph : Graph} {environment : Environment} {outputs : Table Output}
    {name : String} {operation : Operation} (holds : graph.operation? name = some operation)
    (ready : ∀ source, DependsOn graph.nodes name source → outputs.contains source = true) :
    ∃ bound : Table Output,
      (∀ inlet, bound.get? inlet = (graph.source? name inlet).bind outputs.get?) ∧
      graph.runNode environment outputs name =
        operation.run ⟨graph.qualified name, bound⟩ environment := by
  obtain ⟨node, found, rfl⟩ := exists_of_operation? holds
  obtain ⟨bound, gathered, sameKeys, shows⟩ :=
    exists_gather fun source member => ready source ⟨node, found, member⟩
  have distinct : (Entries.keys bound).Nodup := by
    rw [sameKeys]
    exact node.sources.distinct
  refine ⟨Table.ofList bound, fun inlet => ?_, ?_⟩
  · rw [Table.get?, Table.entries_ofList distinct, shows, source?_of_get? found]
    rfl
  · rw [runNode, found]
    simp only [gathered, bind, Except.bind]

theorem Alike.runNode {environment : Environment} {outputs : Table Output} {name : String}
    (member : name ∈ first.nodes.keys)
    (ready : ∀ source, DependsOn first.nodes name source → outputs.contains source = true) :
    first.runNode environment outputs name = second.runNode environment outputs name := by
  obtain ⟨operation, holds⟩ := Graph.mem_keys_iff.mp member
  obtain ⟨firstBound, firstShows, firstRuns⟩ := exists_runNode holds ready
  obtain ⟨secondBound, secondShows, secondRuns⟩ :=
    exists_runNode ((alike.operation? name).symm.trans holds)
      fun source depends => ready source (alike.dependsOn_iff.mpr depends)
  have sameBound : ∀ inlet, firstBound.get? inlet = secondBound.get? inlet := by
    intro inlet
    rw [firstShows, secondShows, alike.source?]
  have sameInputs : Inputs.Alike (operation.inlets.map Inlet.name)
      ⟨first.qualified name, firstBound⟩ ⟨second.qualified name, secondBound⟩ := by
    refine ⟨alike.qualified name, fun inlet _ => ?_, fun inlet _ => ?_⟩
    · rw [Inputs.get?, Inputs.get?, sameBound]
    · rw [Inputs.origin?, Inputs.origin?, sameBound]
  rw [firstRuns, secondRuns, Operation.run_congr sameInputs]

theorem Alike.record (environment : Environment) (symbols : Symbols) (name : String)
    (output : Output) :
    first.record environment symbols name output =
      second.record environment symbols name output := by
  rw [Graph.record, Graph.record, alike.qualified]

/-- The nodes of a schedule run alike, as long as all nodes that are done have outputs. -/
theorem Alike.runNodes {environment : Environment} {done names : List String}
    (scheduled : first.Scheduled done names) {outputs : Table Output}
    (ready : ∀ name ∈ done, outputs.contains name = true) (symbols : Symbols) :
    first.runNodes environment names outputs symbols =
      second.runNodes environment names outputs symbols := by
  induction names generalizing done outputs symbols with
  | nil =>
      rfl
  | cons name rest inductionHypothesis =>
      have sourcesReady : ∀ source, DependsOn first.nodes name source →
          outputs.contains source = true := by
        intro source depends
        have isDone := scheduled.2 [] name rest rfl source depends
        exact ready source (by simpa using isDone)
      have sameRun : first.runNode environment outputs name =
          second.runNode environment outputs name :=
        alike.runNode (scheduled.1 name List.mem_cons_self) sourcesReady
      rw [Graph.runNodes, Graph.runNodes, sameRun]
      cases second.runNode environment outputs name with
      | error fault =>
          rfl
      | ok output =>
          have nextReady : ∀ other ∈ done ++ [name],
              (outputs.insert name output).contains other = true := by
            intro other member
            rw [Table.contains_iff_mem_keys, Table.mem_keys_insert]
            rcases List.mem_append.mp member with earlier | this
            · exact Or.inl (Table.contains_iff_mem_keys.mp (ready other earlier))
            · exact Or.inr (List.mem_singleton.mp this)
          simp only [alike.record, inductionHypothesis scheduled.tail nextReady]

theorem Alike.outputValue (outputs : Table Output) :
    first.outputValue outputs = second.outputValue outputs := by
  rw [Graph.outputValue, Graph.outputValue, alike.output, alike.name]

theorem Alike.evaluate {levels : List (List String)} (accepted : first.verify = .ok levels)
    (environment : Environment) (symbols : Symbols) :
    first.evaluate environment symbols = second.evaluate environment symbols := by
  obtain ⟨_, _, sourcesKnown, layering⟩ := verify_eq_ok_iff.mp accepted
  have sameRun : first.runNodes environment levels.flatten Table.empty symbols =
      second.runNodes environment levels.flatten Table.empty symbols :=
    alike.runNodes (layering.scheduled sourcesKnown) (by simp) symbols
  have sameValue : first.outputValue = second.outputValue :=
    funext alike.outputValue
  rw [Graph.evaluate, Graph.evaluate, accepted, alike.verify accepted]
  simp only [sameRun, sameValue]

/-- The order in which a graph is written does not matter: of two graphs that hold the same, both
are refused or both have the same layers, and then both give the same value or the same fault and
record the same. -/
theorem Alike.verify_and_evaluate :
    (∀ levels, first.verify = .ok levels ↔ second.verify = .ok levels) ∧
      ∀ levels, first.verify = .ok levels → ∀ environment symbols,
        first.evaluate environment symbols = second.evaluate environment symbols := by
  constructor
  · intro levels
    exact ⟨alike.verify, alike.symm.verify⟩
  · intro levels accepted environment symbols
    exact alike.evaluate accepted environment symbols

omit alike

/-! ## Graphs written in another order -/

/-- The same calls in another order, if all of them succeed in either order and the same output is
chosen in the end, lead to graphs that hold the same. -/
theorem alike_of_perm_edits {name : String} {edits others : List Edit}
    (reordered : edits.Perm others)
    (built : edits.foldlM perform (Graph.empty name) = .ok first)
    (rebuilt : others.foldlM perform (Graph.empty name) = .ok second)
    (sameOutput : first.output = second.output) : Alike first second := by
  refine ⟨(name_foldlM built).trans (name_foldlM rebuilt).symm, fun node => ?_,
    fun node inlet => ?_, sameOutput⟩
  · apply Option.ext
    intro operation
    rw [operation?_foldlM_iff built, operation?_foldlM_iff rebuilt, reordered.mem_iff]
  · apply Option.ext
    intro source
    rw [source?_foldlM_iff built, source?_foldlM_iff rebuilt, reordered.mem_iff]

/-- One half, its nodes and inlets written in one order. -/
def half : Graph where
  name := "half"
  nodes :=
    ⟨[("one", ⟨.literal .int (.int 1), Table.empty⟩),
      ("two", ⟨.literal .int (.int 2), Table.empty⟩),
      ("ratio", ⟨.operator (.math .div), ⟨[("lhs", "one"), ("rhs", "two")], by decide⟩⟩)],
      by decide⟩
  output := some "ratio"

/-- One half, its nodes and inlets written in the reverse order. -/
def halfReversed : Graph where
  name := "half"
  nodes :=
    ⟨[("ratio", ⟨.operator (.math .div), ⟨[("rhs", "two"), ("lhs", "one")], by decide⟩⟩),
      ("two", ⟨.literal .int (.int 2), Table.empty⟩),
      ("one", ⟨.literal .int (.int 1), Table.empty⟩)],
      by decide⟩
  output := some "ratio"

/-- The nodes of one half. -/
def halfNodes : List Edit :=
  [.add "one" (.literal .int (.int 1)), .add "two" (.literal .int (.int 2)),
    .add "ratio" (.operator (.math .div))]

/-- What is divided, and by what. -/
def halfConnections : List Edit :=
  [.connect "one" "ratio" "lhs", .connect "two" "ratio" "rhs"]

/-- What is asked for in the end. -/
def halfOutput : List Edit := [.setOutput "ratio"]

theorem half_alike_halfReversed :
    Alike half halfReversed ∧ half.verify = .ok [["one", "two"], ["ratio"]] ∧
      halfReversed.verify = .ok [["one", "two"], ["ratio"]] ∧
      half.evaluate bareEnvironment Table.empty =
        halfReversed.evaluate bareEnvironment Table.empty := by
  have built : (halfNodes ++ (halfConnections ++ halfOutput)).foldlM perform
      (Graph.empty "half") = .ok half :=
    rfl
  have rebuilt : (halfNodes.reverse ++ (halfConnections.reverse ++ halfOutput)).foldlM perform
      (Graph.empty "half") = .ok halfReversed :=
    rfl
  have reordered := (List.reverse_perm halfNodes).symm.append
    ((List.reverse_perm halfConnections).symm.append_right halfOutput)
  have alike : Alike half halfReversed := alike_of_perm_edits reordered built rebuilt rfl
  have accepted : half.verify = .ok [["one", "two"], ["ratio"]] := by
    cbv
  obtain ⟨sameLayers, sameAnswer⟩ := alike.verify_and_evaluate
  exact ⟨alike, accepted, (sameLayers _).mp accepted, sameAnswer _ accepted _ _⟩

end InSitu.Graph
