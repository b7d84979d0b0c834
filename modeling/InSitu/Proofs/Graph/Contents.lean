import InSitu.Proofs.Graph.Building

/-!
# What a graph holds

The contents of a graph are the operation of each of its nodes, the source of each connected inlet,
and the output.  Nodes are entered in some order, and so are the inlets of a node; the contents do
not show it.
-/

namespace InSitu.Graph

variable {graph : Graph}

/-- The operation of a node. -/
def operation? (graph : Graph) (name : String) : Option Operation :=
  (graph.nodes.get? name).map GraphNode.operation

/-- The source that feeds an inlet of a node. -/
def source? (graph : Graph) (name inlet : String) : Option String :=
  (graph.nodes.get? name).bind fun node => node.sources.get? inlet

section Node

variable {name : String} {node : GraphNode} (found : graph.nodes.get? name = some node)

include found

theorem operation?_of_get? : graph.operation? name = some node.operation := by
  rw [operation?, found, Option.map_some]

theorem source?_of_get? (inlet : String) : graph.source? name inlet = node.sources.get? inlet := by
  rw [source?, found, Option.bind_some]

end Node

theorem exists_of_operation? {name : String} {operation : Operation}
    (holds : graph.operation? name = some operation) :
    ∃ node, graph.nodes.get? name = some node ∧ node.operation = operation :=
  Option.map_eq_some_iff.mp holds

theorem exists_of_source? {name inlet source : String}
    (fed : graph.source? name inlet = some source) :
    ∃ node, graph.nodes.get? name = some node ∧ node.sources.get? inlet = some source :=
  Option.bind_eq_some_iff.mp fed

theorem mem_keys_iff {name : String} :
    name ∈ graph.nodes.keys ↔ ∃ operation, graph.operation? name = some operation := by
  rw [Table.mem_keys_iff_exists]
  constructor
  · intro ⟨node, found⟩
    exact ⟨node.operation, operation?_of_get? found⟩
  · intro ⟨operation, holds⟩
    obtain ⟨node, found, _⟩ := exists_of_operation? holds
    exact ⟨node, found⟩

/-- A node depends on the sources of its inlets. -/
theorem dependsOn_iff {name source : String} :
    DependsOn graph.nodes name source ↔ ∃ inlet, graph.source? name inlet = some source := by
  constructor
  · intro ⟨node, found, member⟩
    obtain ⟨inlet, fed⟩ := Table.mem_values_iff.mp member
    exact ⟨inlet, (source?_of_get? found inlet).trans fed⟩
  · intro ⟨inlet, fed⟩
    obtain ⟨node, found, feeds⟩ := exists_of_source? fed
    exact ⟨node, found, Table.mem_values_iff.mpr ⟨inlet, feeds⟩⟩

theorem exists_add_iff {name : String} {operation : Operation} :
    (∃ added, graph.add name operation = .ok added) ↔ graph.operation? name = none := by
  have isNew : name ∉ graph.nodes.keys ↔ graph.operation? name = none := by
    rw [mem_keys_iff, Option.eq_none_iff_forall_ne_some, not_exists]
  simp only [add_eq_ok_iff, isNew, exists_and_left, exists_eq, and_true]

theorem operation?_add {added : Graph} {name : String} {operation : Operation}
    (result : graph.add name operation = .ok added) (other : String) :
    added.operation? other = if other = name then some operation else graph.operation? other := by
  obtain ⟨_, rfl⟩ := add_eq_ok_iff.mp result
  rw [operation?, Table.get?_insert]
  split
  · rfl
  · rfl

theorem source?_add {added : Graph} {name : String} {operation : Operation}
    (result : graph.add name operation = .ok added) (other inlet : String) :
    added.source? other inlet = graph.source? other inlet := by
  obtain ⟨isNew, rfl⟩ := add_eq_ok_iff.mp result
  rw [source?, source?, Table.get?_insert]
  split
  · rename_i same
    rw [same, Table.get?_eq_none_iff.mpr isNew]
    rfl
  · rfl

theorem exists_connect_iff {source target inlet : String} :
    (∃ connected, graph.connect source target inlet = .ok connected) ↔
      source ∈ graph.nodes.keys ∧
        (∃ operation, graph.operation? target = some operation ∧
          inlet ∈ operation.inlets.map Inlet.name) ∧
        graph.source? target inlet = none := by
  constructor
  · intro ⟨connected, result⟩
    obtain ⟨known, node, found, declared, free, _⟩ := connect_eq_ok_iff.mp result
    have isOpen := (source?_of_get? found inlet).trans (Table.get?_eq_none_iff.mpr free)
    exact ⟨known, ⟨node.operation, operation?_of_get? found, declared⟩, isOpen⟩
  · intro ⟨known, ⟨operation, holds, declared⟩, isOpen⟩
    obtain ⟨node, found, rfl⟩ := exists_of_operation? holds
    rw [source?_of_get? found] at isOpen
    exact ⟨_, connect_eq_ok_iff.mpr
      ⟨known, node, found, declared, Table.get?_eq_none_iff.mp isOpen, rfl⟩⟩

section Connect

variable {connected : Graph} {source target inlet : String}
  (result : graph.connect source target inlet = .ok connected)

include result

theorem operation?_connect (other : String) :
    connected.operation? other = graph.operation? other := by
  obtain ⟨_, node, found, _, _, rfl⟩ := connect_eq_ok_iff.mp result
  rw [operation?, operation?, Table.get?_insert]
  split
  · rename_i same
    rw [same, found]
    rfl
  · rfl

theorem source?_connect (other port : String) :
    connected.source? other port =
      if other = target ∧ port = inlet then some source else graph.source? other port := by
  obtain ⟨_, node, found, _, _, rfl⟩ := connect_eq_ok_iff.mp result
  by_cases same : other = target
  · subst same
    rw [source?, Table.get?_insert_self, source?_of_get? found]
    simp only [Option.bind_some, Table.get?_insert, true_and]
  · rw [source?, source?, Table.get?_insert_of_ne same, if_neg fun both => same both.1]

theorem name_connect : connected.name = graph.name := by
  obtain ⟨_, node, _, _, _, rfl⟩ := connect_eq_ok_iff.mp result
  rfl

end Connect

end InSitu.Graph
