import InSitu.Proofs.Graph.Dependency

/-!
# Graphs that were built

Nodes are added under new names, inlets are connected to nodes that exist, and
the output is chosen among the nodes.  No step takes a node away, so every
source and the output of a graph that was built this way are nodes of it.
-/

namespace InSitu.Graph

/-- The graphs that come about by adding nodes, connecting inlets and choosing
an output.  A step that fails leaves no graph. -/
inductive Built : Graph → Prop
  | empty (name : String) : Built (Graph.empty name)
  | add {graph added : Graph} {name : String} {operation : Operation} :
      Built graph → graph.add name operation = .ok added → Built added
  | connect {graph connected : Graph} {source target inlet : String} :
      Built graph → graph.connect source target inlet = .ok connected →
        Built connected
  | setOutput {graph chosen : Graph} {name : String} :
      Built graph → graph.setOutput name = .ok chosen → Built chosen

/-- What a graph that was built refers to is there. -/
structure WellFormed (graph : Graph) : Prop where
  sourcesKnown : SourcesKnown graph.nodes
  output_mem : ∀ name, graph.output = some name → name ∈ graph.nodes.keys

theorem add_eq_ok_iff {graph added : Graph} {name : String}
    {operation : Operation} :
    graph.add name operation = .ok added ↔
      name ∉ graph.nodes.keys ∧
        added = { graph with
          nodes := graph.nodes.insert name ⟨operation, Table.empty⟩ } := by
  rw [add, ← Table.contains_iff_mem_keys]
  by_cases repeated : graph.nodes.contains name = true
  · simp [repeated]
  · simp [repeated, eq_comm]

theorem connect_eq_ok_iff {graph connected : Graph}
    {source target inlet : String} :
    graph.connect source target inlet = .ok connected ↔
      source ∈ graph.nodes.keys ∧
        ∃ node, graph.nodes.get? target = some node ∧
          inlet ∈ node.operation.inlets.map Inlet.name ∧
          inlet ∉ node.sources.keys ∧
            connected = { graph with
              nodes := graph.nodes.insert target
                { node with sources := node.sources.insert inlet source } } := by
  rw [connect, ← Table.contains_iff_mem_keys]
  by_cases known : graph.nodes.contains source = true
  · cases found : graph.nodes.get? target with
    | none =>
        simp [known]
    | some node =>
        by_cases declared : inlet ∈ node.operation.inlets.map Inlet.name
        · by_cases taken : node.sources.contains inlet = true
          · have takenMember := Table.contains_iff_mem_keys.mp taken
            simp [known, declared, taken, takenMember, -List.mem_map]
          · have free : inlet ∉ node.sources.keys :=
              fun member => taken (Table.contains_iff_mem_keys.mpr member)
            simp [known, declared, taken, free, eq_comm, -List.mem_map]
        · simp [known, declared, -List.mem_map]
  · simp [known]

theorem setOutput_eq_ok_iff {graph chosen : Graph} {name : String} :
    graph.setOutput name = .ok chosen ↔
      name ∈ graph.nodes.keys ∧ chosen = { graph with output := some name } := by
  rw [setOutput, ← Table.contains_iff_mem_keys]
  by_cases known : graph.nodes.contains name = true
  · simp [known, eq_comm]
  · simp [known]

variable {nodes : Table GraphNode}

/-- Entering a node changes the dependencies of that node alone. -/
theorem dependsOn_insert_iff {entered name source : String}
    {node : GraphNode} :
    DependsOn (nodes.insert entered node) name source ↔
      if name = entered then source ∈ node.sources.values
      else DependsOn nodes name source := by
  by_cases same : name = entered
  · simp [DependsOn, same]
  · simp [DependsOn, Table.get?_insert_of_ne same, same]

theorem SourcesKnown.insert (sourcesKnown : SourcesKnown nodes)
    {entered : String} {node : GraphNode}
    (nodeSources : ∀ source ∈ node.sources.values, source ∈ nodes.keys) :
    SourcesKnown (nodes.insert entered node) := by
  intro name source depends
  rw [dependsOn_insert_iff] at depends
  rw [Table.mem_keys_insert]
  split at depends
  · exact Or.inl (nodeSources source depends)
  · exact Or.inl (sourcesKnown name source depends)

theorem WellFormed.add {graph added : Graph} {name : String}
    {operation : Operation} (wellFormed : graph.WellFormed)
    (result : graph.add name operation = .ok added) : added.WellFormed := by
  obtain ⟨_, rfl⟩ := add_eq_ok_iff.mp result
  refine ⟨wellFormed.sourcesKnown.insert (by simp [Table.empty, Table.values]), ?_⟩
  intro output chosen
  exact Table.mem_keys_insert.mpr (Or.inl (wellFormed.output_mem output chosen))

theorem WellFormed.connect {graph connected : Graph}
    {source target inlet : String} (wellFormed : graph.WellFormed)
    (result : graph.connect source target inlet = .ok connected) :
    connected.WellFormed := by
  obtain ⟨known, node, found, _, _, rfl⟩ := connect_eq_ok_iff.mp result
  refine ⟨wellFormed.sourcesKnown.insert ?_, ?_⟩
  · intro other member
    obtain ⟨key, present⟩ := Table.mem_values_iff.mp member
    rw [Table.get?_insert] at present
    split at present
    · cases present
      exact known
    · exact wellFormed.sourcesKnown target other
        ⟨node, found, Table.mem_values_iff.mpr ⟨key, present⟩⟩
  · intro output chosen
    exact Table.mem_keys_insert.mpr (Or.inl (wellFormed.output_mem output chosen))

theorem WellFormed.setOutput {graph chosen : Graph} {name : String}
    (wellFormed : graph.WellFormed)
    (result : graph.setOutput name = .ok chosen) : chosen.WellFormed := by
  obtain ⟨known, rfl⟩ := setOutput_eq_ok_iff.mp result
  refine ⟨wellFormed.sourcesKnown, ?_⟩
  rintro output equality
  cases equality
  exact known

/-- A graph that was built is well formed. -/
theorem Built.wellFormed {graph : Graph} (built : graph.Built) :
    graph.WellFormed := by
  induction built with
  | empty name =>
      refine ⟨?_, ?_⟩
      · rintro other source ⟨node, found, _⟩
        simp [Graph.empty] at found
      · rintro output equality
        cases equality
  | add _ result inductionHypothesis =>
      exact inductionHypothesis.add result
  | connect _ result inductionHypothesis =>
      exact inductionHypothesis.connect result
  | setOutput _ result inductionHypothesis =>
      exact inductionHypothesis.setOutput result

end InSitu.Graph
