import InSitu.Proofs.Graph.Contents
import InSitu.Proofs.Graph.Layering
import InSitu.Proofs.Sequence

/-!
# Verification

A graph is verified if it has an output, every node passes its own check, and there are layers.
Whether it is depends on the contents of the graph alone, and so do the layers: a row of layers is
told by the levels of the nodes, and the names within a layer are in order.
-/

namespace InSitu.Graph

variable {graph : Graph}

/-- Of two layerings with the same levels, each has the layers of the other. -/
theorem IsLayering.getElem?_of_isLevel_iff {nodes others : Table GraphNode}
    {first second : List (List String)} (firstLayering : IsLayering nodes first)
    (secondLayering : IsLayering others second)
    (sameLevels : ∀ name level, IsLevel nodes name level ↔ IsLevel others name level)
    {index : Nat} {layer : List String} (isLayer : first[index]? = some layer) :
    second[index]? = some layer := by
  have member := List.mem_of_getElem? isLayer
  obtain ⟨name, inLayer⟩ := List.exists_mem_of_ne_nil layer (firstLayering.ne_nil layer member)
  have isLevel := (firstLayering.mem_iff index name).mp ⟨layer, isLayer, inLayer⟩
  obtain ⟨other, isOther, _⟩ :=
    (secondLayering.mem_iff index name).mpr ((sameLevels name index).mp isLevel)
  have sameNames : ∀ shown, shown ∈ layer ↔ shown ∈ other := by
    intro shown
    have inFirst := firstLayering.mem_iff index shown
    have inSecond := secondLayering.mem_iff index shown
    simp only [isLayer, Option.some.injEq, exists_eq_left'] at inFirst
    simp only [isOther, Option.some.injEq, exists_eq_left'] at inSecond
    rw [inFirst, inSecond, sameLevels shown index]
  have same : layer = other :=
    List.Pairwise.eq_of_mem_iff (firstLayering.pairwise_lt layer member)
      (secondLayering.pairwise_lt other (List.mem_of_getElem? isOther)) sameNames
  rw [same, isOther]

/-- The levels of the nodes tell the layers. -/
theorem IsLayering.eq_of_isLevel_iff {nodes others : Table GraphNode}
    {first second : List (List String)} (firstLayering : IsLayering nodes first)
    (secondLayering : IsLayering others second)
    (sameLevels : ∀ name level, IsLevel nodes name level ↔ IsLevel others name level) :
    first = second := by
  apply List.ext_getElem?
  intro index
  apply Option.ext
  intro layer
  constructor
  · intro isLayer
    exact firstLayering.getElem?_of_isLevel_iff secondLayering sameLevels isLayer
  · intro isLayer
    exact secondLayering.getElem?_of_isLevel_iff firstLayering
      (fun name level => (sameLevels name level).symm) isLayer

theorem sourcesKnown_of_layers {nodes : Table GraphNode} {levels : List (List String)}
    (finished : layers nodes = .ok levels) : SourcesKnown nodes := by
  rw [← unknownSource?_eq_none_iff]
  rw [layers] at finished
  split at finished
  · cases finished
  · assumption

theorem layers_eq_ok_iff {nodes : Table GraphNode} {levels : List (List String)} :
    layers nodes = .ok levels ↔ SourcesKnown nodes ∧ IsLayering nodes levels := by
  constructor
  · intro finished
    have sourcesKnown := sourcesKnown_of_layers finished
    exact ⟨sourcesKnown, (layers_eq_ok sourcesKnown finished).1⟩
  · intro ⟨sourcesKnown, layering⟩
    cases computed : layers nodes with
    | ok found =>
        have isLayering := (layers_eq_ok sourcesKnown computed).1
        rw [isLayering.eq_of_isLevel_iff layering fun _ _ => Iff.rfl]
    | error fault =>
        -- A fault would name a node that leads to a cycle, but layered nodes lie on none.
        obtain ⟨names, _, notEmpty, _, leads⟩ := layers_eq_error sourcesKnown computed
        obtain ⟨name, member⟩ := List.exists_mem_of_ne_nil names notEmpty
        obtain ⟨other, _, cycle⟩ := (leads name).mp member
        exact absurd cycle (layering.not_onCycle other)

/-- A node passes its check: its operation accepts its parameters, and each inlet that the operation
needs is connected. -/
structure Passes (graph : Graph) (name : String) (operation : Operation) : Prop where
  parameters : operation.check (graph.qualified name) = .ok ()
  connected : ∀ inlet ∈ operation.inlets, inlet.required = true →
    graph.source? name inlet.name ≠ none

/-- The first open inlet is one that is needed and not connected. -/
theorem openInlet?_spec {name : String} {node : GraphNode}
    (found : graph.nodes.get? name = some node) {inlet : Inlet}
    (isOpen : openInlet? node = some inlet) :
    inlet ∈ node.operation.inlets ∧ inlet.required = true ∧
      graph.source? name inlet.name = none := by
  have needed := List.find?_some isOpen
  rw [Bool.and_eq_true, Bool.not_eq_true', Table.contains, Option.isSome_eq_false_iff,
    Option.isNone_iff_eq_none] at needed
  exact ⟨List.mem_of_find?_eq_some isOpen, needed.1, (source?_of_get? found _).trans needed.2⟩

theorem openInlet?_eq_none_iff {name : String} {node : GraphNode}
    (found : graph.nodes.get? name = some node) :
    openInlet? node = none ↔ ∀ inlet ∈ node.operation.inlets, inlet.required = true →
      graph.source? name inlet.name ≠ none := by
  rw [openInlet?, List.find?_eq_none]
  refine forall₂_congr fun inlet _ => ?_
  rw [source?_of_get? found, Bool.and_eq_true, Bool.not_eq_true', Table.contains,
    Option.isSome_eq_false_iff, Option.isNone_iff_eq_none, not_and]

theorem checkNode_eq_ok_iff {name : String} {node : GraphNode}
    (found : graph.nodes.get? name = some node) :
    graph.checkNode name node = .ok () ↔ graph.Passes name node.operation := by
  have unfolded : graph.Passes name node.operation ↔
      node.operation.check (graph.qualified name) = .ok () ∧ openInlet? node = none := by
    rw [openInlet?_eq_none_iff found]
    exact ⟨fun passes => ⟨passes.parameters, passes.connected⟩, fun both => ⟨both.1, both.2⟩⟩
  rw [unfolded, checkNode]
  cases node.operation.check (graph.qualified name) with
  | error fault =>
      simp [bind, Except.bind]
  | ok checked =>
      cases openInlet? node with
      | none =>
          simp [bind, Except.bind]
      | some inlet =>
          simp [bind, Except.bind]

theorem checkNode_eq_error {name : String} {node : GraphNode} {fault : Fault}
    (failed : graph.checkNode name node = .error fault) :
    node.operation.check (graph.qualified name) = .error fault ∨
      ∃ inlet, openInlet? node = some inlet ∧
        fault = .missingInput (graph.qualified name) inlet.name := by
  rw [checkNode] at failed
  cases checked : node.operation.check (graph.qualified name) with
  | error other =>
      rw [checked] at failed
      cases failed
      exact Or.inl rfl
  | ok passed =>
      rw [checked] at failed
      cases isOpen : openInlet? node with
      | none =>
          simp [isOpen, bind, Except.bind] at failed
      | some inlet =>
          simp only [isOpen, bind, Except.bind, Except.error.injEq] at failed
          exact Or.inr ⟨inlet, rfl, failed.symm⟩

/-- Checks the nodes in order. -/
def checkNodes (graph : Graph) : Except Fault Unit :=
  graph.nodes.entries.forM fun entry => graph.checkNode entry.1 entry.2

theorem checkNodes_eq_ok_iff :
    graph.checkNodes = .ok () ↔ ∀ name operation, graph.operation? name = some operation →
      graph.Passes name operation := by
  rw [checkNodes, forM_eq_ok_iff]
  constructor
  · intro passes name operation holds
    obtain ⟨node, found, rfl⟩ := exists_of_operation? holds
    exact (checkNode_eq_ok_iff found).mp (passes (name, node) (Table.get?_eq_some_iff.mp found))
  · intro passes entry member
    have found := Table.get?_eq_some_iff.mpr member
    exact (checkNode_eq_ok_iff found).mpr (passes entry.1 _ (operation?_of_get? found))

theorem exists_of_checkNodes_eq_error {fault : Fault} (failed : graph.checkNodes = .error fault) :
    ∃ name node, graph.nodes.get? name = some node ∧
      graph.checkNode name node = .error fault := by
  obtain ⟨entry, member, fails⟩ := exists_of_forM_eq_error failed
  exact ⟨entry.1, entry.2, Table.get?_eq_some_iff.mpr member, fails⟩

theorem verify_eq_of_output {name : String} (chosen : graph.output = some name) :
    graph.verify = graph.checkNodes.bind fun _ => layers graph.nodes := by
  rw [verify, chosen]
  rfl

theorem verify_eq_of_no_output (noOutput : graph.output = none) :
    graph.verify = .error (.misuse graph.name .noOutput) := by
  rw [verify, noOutput]
  rfl

theorem verify_eq_ok_iff {levels : List (List String)} :
    graph.verify = .ok levels ↔
      graph.output ≠ none ∧
        (∀ name operation, graph.operation? name = some operation →
          graph.Passes name operation) ∧
        SourcesKnown graph.nodes ∧ IsLayering graph.nodes levels := by
  rw [← checkNodes_eq_ok_iff, ← layers_eq_ok_iff]
  cases chosen : graph.output with
  | none =>
      rw [verify_eq_of_no_output chosen]
      simp
  | some name =>
      rw [verify_eq_of_output chosen]
      cases graph.checkNodes with
      | error fault =>
          simp [Except.bind]
      | ok checked =>
          simp [Except.bind]

end InSitu.Graph
