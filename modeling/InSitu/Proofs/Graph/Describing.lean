import InSitu.Graph.Description
import InSitu.Proofs.Graph.Editing

/-!
# Graphs from descriptions

A described graph is built in three stages: all nodes, all connections, the output.  As the names in
a description are distinct, no node is added twice and no inlet is connected twice.  So the building
fails only if a node has no operation, or if something is named that is not there.
-/

namespace InSitu

/-- The operation of a described node, built from its decoded parameters. -/
def NodeDescription.operation (node : NodeDescription) : Except Fault Operation := do
  let parameters ← parameterValues node.parameters
  Operation.build node.type parameters

theorem NodeDescription.operation_eq_ok_iff {node : NodeDescription} {operation : Operation} :
    node.operation = .ok operation ↔
      ∃ parameters, parameterValues node.parameters = .ok parameters ∧
        Operation.build node.type parameters = .ok operation :=
  bind_eq_ok_iff

/-- A connection as it is written: the node and its inlet that are fed, and the node that feeds. -/
structure Connection where
  target : String
  inlet : String
  source : String

/-- The call that makes a connection. -/
def Connection.edit (connection : Connection) : Graph.Edit :=
  .connect connection.source connection.target connection.inlet

/-- The connections of described nodes, in the order of the nodes and of their inlets. -/
def connections (nodes : List (String × NodeDescription)) : List Connection :=
  nodes.flatMap fun (name, node) =>
    node.sources.entries.map fun (inlet, source) => ⟨name, inlet, source⟩

theorem mem_connections_iff {nodes : List (String × NodeDescription)} {connection : Connection} :
    connection ∈ connections nodes ↔ ∃ node, (connection.target, node) ∈ nodes ∧
      node.sources.get? connection.inlet = some connection.source := by
  obtain ⟨target, inlet, source⟩ := connection
  simp only [connections, List.mem_flatMap, List.mem_map, Prod.exists, Connection.mk.injEq,
    Table.get?_eq_some_iff]
  constructor
  · intro ⟨name, node, member, port, feeding, written, sameTarget, sameInlet, sameSource⟩
    rw [sameTarget] at member
    rw [sameInlet, sameSource] at written
    exact ⟨node, member, written⟩
  · intro ⟨node, member, written⟩
    exact ⟨target, node, member, inlet, source, written, rfl, rfl, rfl⟩

/-- No inlet is written twice. -/
theorem nodup_connections {nodes : List (String × NodeDescription)}
    (distinct : (Entries.keys nodes).Nodup) :
    ((connections nodes).map fun connection =>
      (connection.target, connection.inlet)).Nodup := by
  induction nodes with
  | nil =>
      exact List.nodup_nil
  | cons entry rest inductionHypothesis =>
      obtain ⟨name, node⟩ := entry
      obtain ⟨fresh, restDistinct⟩ := List.nodup_cons.mp distinct
      have inlets : (node.sources.entries.map fun entry => (name, entry.1)).Nodup := by
        have sameInlets : (node.sources.entries.map fun entry => (name, entry.1)) =
            node.sources.keys.map (Prod.mk name) := by
          rw [Table.keys, Entries.keys, List.map_map]
          rfl
        rw [sameInlets]
        exact node.sources.distinct.map (Prod.mk_right_injective name)
      rw [connections, List.flatMap_cons, List.map_append, List.map_map]
      apply List.Nodup.append inlets (inductionHypothesis restDistinct)
      intro written here later
      obtain ⟨entry, _, rfl⟩ := List.mem_map.mp here
      obtain ⟨connection, isLater, same⟩ := List.mem_map.mp later
      obtain ⟨other, member, _⟩ := mem_connections_iff.mp isLater
      rw [(Prod.mk.inj same).1] at member
      exact fresh (Entries.mem_keys_of_mem member)

namespace Graph

variable {graph added connected : Graph}

theorem addDescribed_eq_ok_iff {name : String} {node : NodeDescription} :
    graph.addDescribed (name, node) = .ok added ↔
      ∃ operation, node.operation = .ok operation ∧ graph.add name operation = .ok added := by
  simp only [addDescribed, bind_eq_ok_iff, NodeDescription.operation_eq_ok_iff]
  constructor
  · intro ⟨parameters, decoded, operation, isBuilt, isAdded⟩
    exact ⟨operation, ⟨parameters, decoded, isBuilt⟩, isAdded⟩
  · intro ⟨operation, ⟨parameters, decoded, isBuilt⟩, isAdded⟩
    exact ⟨parameters, decoded, operation, isBuilt, isAdded⟩

/-- The nodes of a list are added if each has an operation and no name is taken. -/
theorem exists_foldlM_addDescribed {nodes : List (String × NodeDescription)}
    (distinct : (Entries.keys nodes).Nodup)
    (areNew : ∀ name ∈ Entries.keys nodes, graph.operation? name = none)
    (built : ∀ entry ∈ nodes, ∃ operation, entry.2.operation = .ok operation) :
    ∃ added, nodes.foldlM addDescribed graph = .ok added := by
  induction nodes generalizing graph with
  | nil =>
      exact ⟨graph, rfl⟩
  | cons entry rest inductionHypothesis =>
      obtain ⟨name, node⟩ := entry
      obtain ⟨fresh, restDistinct⟩ := List.nodup_cons.mp distinct
      obtain ⟨operation, isBuilt⟩ := built (name, node) List.mem_cons_self
      obtain ⟨next, isAdded⟩ := exists_add_iff.mpr (areNew name List.mem_cons_self)
      have restNew : ∀ other ∈ Entries.keys rest, next.operation? other = none := by
        intro other member
        rw [operation?_add isAdded, if_neg]
        · exact areNew other (List.mem_cons_of_mem name member)
        · rintro rfl
          exact fresh member
      obtain ⟨added, restAdded⟩ := inductionHypothesis restDistinct restNew
        fun other member => built other (List.mem_cons_of_mem _ member)
      refine ⟨added, ?_⟩
      rw [List.foldlM_cons, bind_eq_ok_iff]
      exact ⟨next, addDescribed_eq_ok_iff.mpr ⟨operation, isBuilt, isAdded⟩, restAdded⟩

/-- What is held after nodes were added: what was held before, and the operations of the nodes. -/
structure Adds (nodes : List (String × NodeDescription)) (graph added : Graph) : Prop where
  name : added.name = graph.name
  built : ∀ entry ∈ nodes, ∃ operation, entry.2.operation = .ok operation
  operation?_iff : ∀ name operation, added.operation? name = some operation ↔
    graph.operation? name = some operation ∨
      ∃ node, (name, node) ∈ nodes ∧ node.operation = .ok operation
  source? : ∀ name inlet, added.source? name inlet = graph.source? name inlet

theorem adds_of_foldlM_addDescribed {nodes : List (String × NodeDescription)}
    (finished : nodes.foldlM addDescribed graph = .ok added) : Adds nodes graph added := by
  induction nodes generalizing graph with
  | nil =>
      cases finished
      exact ⟨rfl, by simp, by simp, fun _ _ => rfl⟩
  | cons entry rest inductionHypothesis =>
      obtain ⟨name, node⟩ := entry
      rw [List.foldlM_cons, bind_eq_ok_iff] at finished
      obtain ⟨next, isDescribed, restFinished⟩ := finished
      obtain ⟨operation, isBuilt, isAdded⟩ := addDescribed_eq_ok_iff.mp isDescribed
      have isNew := exists_add_iff.mp ⟨next, isAdded⟩
      have rest := inductionHypothesis restFinished
      refine ⟨?_, ?_, fun other found => ?_, fun other inlet => ?_⟩
      · rw [rest.name, (add_eq_ok_iff.mp isAdded).2]
      · exact List.forall_mem_cons.mpr ⟨⟨operation, isBuilt⟩, rest.built⟩
      · rw [rest.operation?_iff, operation?_add isAdded]
        by_cases same : other = name
        · subst same
          simp [isNew, isBuilt, or_and_right, exists_or]
        · simp [same]
      · rw [rest.source?, source?_add isAdded]

/-- The nodes are connected as by one call for each connection. -/
theorem foldlM_connectDescribed (nodes : List (String × NodeDescription)) :
    nodes.foldlM connectDescribed graph =
      ((connections nodes).map Connection.edit).foldlM perform graph := by
  induction nodes generalizing graph with
  | nil =>
      rfl
  | cons entry rest inductionHypothesis =>
      obtain ⟨name, node⟩ := entry
      rw [List.foldlM_cons, connections, List.flatMap_cons, List.map_append, List.foldlM_append,
        List.map_map, List.foldlM_map]
      exact bind_congr fun next => inductionHypothesis

/-- A connection names what is there: a node as its source, and an inlet that the operation of its
target declares. -/
def Names (graph : Graph) (connection : Connection) : Prop :=
  connection.source ∈ graph.nodes.keys ∧
    ∃ operation, graph.operation? connection.target = some operation ∧
      connection.inlet ∈ operation.inlets.map Inlet.name

theorem names_congr {first second : Graph}
    (same : ∀ name, first.operation? name = second.operation? name) (connection : Connection) :
    first.Names connection ↔ second.Names connection := by
  rw [Names, Names, mem_keys_iff, mem_keys_iff, same, same]

theorem exists_perform_edit_iff {connection : Connection} :
    (∃ connected, graph.perform connection.edit = .ok connected) ↔
      graph.Names connection ∧ graph.source? connection.target connection.inlet = none := by
  rw [Names, and_assoc]
  exact exists_connect_iff

/-- The inlets of a list are connected if what is named is there, and no inlet is taken. -/
theorem exists_foldlM_edit {connections : List Connection}
    (distinct : (connections.map fun connection =>
      (connection.target, connection.inlet)).Nodup)
    (areOpen : ∀ connection ∈ connections,
      graph.source? connection.target connection.inlet = none)
    (named : ∀ connection ∈ connections, graph.Names connection) :
    ∃ connected, (connections.map Connection.edit).foldlM perform graph = .ok connected := by
  induction connections generalizing graph with
  | nil =>
      exact ⟨graph, rfl⟩
  | cons connection rest inductionHypothesis =>
      obtain ⟨fresh, restDistinct⟩ := List.nodup_cons.mp distinct
      obtain ⟨isNamed, restNamed⟩ := List.forall_mem_cons.mp named
      obtain ⟨isOpen, restOpen⟩ := List.forall_mem_cons.mp areOpen
      obtain ⟨next, isConnected⟩ := exists_perform_edit_iff.mpr ⟨isNamed, isOpen⟩
      have nextOpen : ∀ other ∈ rest, next.source? other.target other.inlet = none := by
        intro other member
        rw [source?_connect isConnected, if_neg]
        · exact restOpen other member
        · intro ⟨sameTarget, sameInlet⟩
          exact fresh (List.mem_map.mpr ⟨other, member, by rw [sameTarget, sameInlet]⟩)
      have nextNamed : ∀ other ∈ rest, next.Names other := fun other member =>
        (names_congr (operation?_connect isConnected) other).mpr (restNamed other member)
      obtain ⟨connected, restConnected⟩ := inductionHypothesis restDistinct nextOpen nextNamed
      exact ⟨connected, bind_eq_ok_iff.mpr ⟨next, isConnected, restConnected⟩⟩

section Connected

variable {connections : List Connection}
  (finished : (connections.map Connection.edit).foldlM perform graph = .ok connected)

include finished

theorem names_of_foldlM_edit : ∀ connection ∈ connections, graph.Names connection := by
  induction connections generalizing graph with
  | nil =>
      exact List.forall_mem_nil _
  | cons connection rest inductionHypothesis =>
      obtain ⟨next, isConnected, restFinished⟩ := bind_eq_ok_iff.mp finished
      obtain ⟨isNamed, _⟩ := exists_perform_edit_iff.mp ⟨next, isConnected⟩
      refine List.forall_mem_cons.mpr ⟨isNamed, fun other member => ?_⟩
      exact (names_congr (operation?_connect isConnected) other).mp
        (inductionHypothesis restFinished other member)

theorem operation?_foldlM_edit (name : String) :
    connected.operation? name = graph.operation? name := by
  apply Option.ext
  intro operation
  rw [operation?_foldlM_iff finished]
  simp [Connection.edit]

theorem source?_foldlM_edit_iff {name inlet source : String} :
    connected.source? name inlet = some source ↔
      graph.source? name inlet = some source ∨ ⟨name, inlet, source⟩ ∈ connections := by
  rw [source?_foldlM_iff finished, List.mem_map]
  refine or_congr_right ⟨fun ⟨connection, member, same⟩ => ?_, fun member => ⟨_, member, rfl⟩⟩
  cases same
  exact member

end Connected

/-! ## The whole description -/

end Graph

/-- A description of which a graph can be built: the parameters of every node are decoded and an
operation is built from them, every inlet that is fed is declared by it, and every source and the
output are nodes. -/
structure GraphDescription.Buildable (description : GraphDescription) : Prop where
  nodes : ∀ name node, description.nodes.get? name = some node →
    ∃ parameters operation, parameterValues node.parameters = .ok parameters ∧
      Operation.build node.type parameters = .ok operation ∧
      ∀ inlet ∈ node.sources.keys, inlet ∈ operation.inlets.map Inlet.name
  sources : ∀ name node, description.nodes.get? name = some node →
    ∀ source ∈ node.sources.values, source ∈ description.nodes.keys
  output : description.output ∈ description.nodes.keys

/-- The graph has a name and holds what is described. -/
structure GraphDescription.Describes (description : GraphDescription) (name : String)
    (graph : Graph) : Prop where
  name : graph.name = name
  operation?_iff : ∀ name operation, graph.operation? name = some operation ↔
    ∃ node, description.nodes.get? name = some node ∧ node.operation = .ok operation
  source?_iff : ∀ name inlet source, graph.source? name inlet = some source ↔
    ∃ node, description.nodes.get? name = some node ∧ node.sources.get? inlet = some source
  output : graph.output = some description.output

namespace Graph

variable {graph : Graph} {name : String} {description : GraphDescription}

theorem ofDescription_eq_ok_iff :
    ofDescription name description = .ok graph ↔
      ∃ added, description.nodes.entries.foldlM addDescribed (Graph.empty name) = .ok added ∧
        ∃ connected, ((connections description.nodes.entries).map Connection.edit).foldlM perform
            added = .ok connected ∧
          connected.setOutput description.output = .ok graph := by
  simp only [ofDescription, bind_eq_ok_iff, foldlM_connectDescribed]

section Added

variable {added : Graph} (adds : Adds description.nodes.entries (Graph.empty name) added)

include adds

theorem operation?_added_iff {node : String} {operation : Operation} :
    added.operation? node = some operation ↔
      ∃ described, description.nodes.get? node = some described ∧
        described.operation = .ok operation := by
  have nothing : (Graph.empty name).operation? node ≠ some operation := by
    intro holds
    cases holds
  simp only [adds.operation?_iff, nothing, false_or, Table.get?_eq_some_iff]

theorem mem_keys_added_iff {node : String} :
    node ∈ added.nodes.keys ↔ node ∈ description.nodes.keys := by
  rw [mem_keys_iff, Table.mem_keys_iff_exists]
  constructor
  · intro ⟨operation, holds⟩
    obtain ⟨described, found, _⟩ := (operation?_added_iff adds).mp holds
    exact ⟨described, found⟩
  · intro ⟨described, found⟩
    obtain ⟨operation, isBuilt⟩ := adds.built (node, described) (Table.get?_eq_some_iff.mp found)
    exact ⟨operation, (operation?_added_iff adds).mpr ⟨described, found, isBuilt⟩⟩

theorem source?_added (node inlet : String) : added.source? node inlet = none :=
  adds.source? node inlet

end Added

theorem buildable_of_ofDescription (built : ofDescription name description = .ok graph) :
    description.Buildable := by
  obtain ⟨added, isAdded, connected, isConnected, isChosen⟩ := ofDescription_eq_ok_iff.mp built
  have adds := adds_of_foldlM_addDescribed isAdded
  have named : ∀ target node, description.nodes.get? target = some node →
      ∀ inlet source, node.sources.get? inlet = some source →
        added.Names ⟨target, inlet, source⟩ := by
    intro target node found inlet source fed
    apply names_of_foldlM_edit isConnected
    exact mem_connections_iff.mpr ⟨node, Table.get?_eq_some_iff.mp found, fed⟩
  refine ⟨fun target node found => ?_, fun target node found source member => ?_, ?_⟩
  · obtain ⟨operation, isBuilt⟩ := adds.built (target, node) (Table.get?_eq_some_iff.mp found)
    have holds := (operation?_added_iff adds).mpr ⟨node, found, isBuilt⟩
    obtain ⟨parameters, decoded, fromParameters⟩ :=
      NodeDescription.operation_eq_ok_iff.mp isBuilt
    refine ⟨parameters, operation, decoded, fromParameters, fun inlet member => ?_⟩
    obtain ⟨source, fed⟩ := Table.mem_keys_iff_exists.mp member
    obtain ⟨_, other, otherHolds, declared⟩ := named target node found inlet source fed
    rw [holds] at otherHolds
    cases otherHolds
    exact declared
  · obtain ⟨inlet, fed⟩ := Table.mem_values_iff.mp member
    exact (mem_keys_added_iff adds).mp (named target node found inlet source fed).1
  · have known := (setOutput_eq_ok_iff.mp isChosen).1
    rw [mem_keys_iff] at known
    simp only [operation?_foldlM_edit isConnected, ← mem_keys_iff] at known
    exact (mem_keys_added_iff adds).mp known

theorem exists_ofDescription (buildable : description.Buildable) (name : String) :
    ∃ graph, ofDescription name description = .ok graph := by
  have operations : ∀ entry ∈ description.nodes.entries,
      ∃ operation, entry.2.operation = .ok operation := by
    intro (target, node) member
    obtain ⟨parameters, operation, decoded, fromParameters, _⟩ :=
      buildable.nodes target node (Table.get?_eq_some_iff.mpr member)
    exact ⟨operation, NodeDescription.operation_eq_ok_iff.mpr ⟨parameters, decoded, fromParameters⟩⟩
  have nodesAdded : ∃ added,
      description.nodes.entries.foldlM addDescribed (Graph.empty name) = .ok added :=
    exists_foldlM_addDescribed description.nodes.distinct (fun _ _ => rfl) operations
  obtain ⟨added, isAdded⟩ := nodesAdded
  have adds := adds_of_foldlM_addDescribed isAdded
  have named : ∀ connection ∈ connections description.nodes.entries, added.Names connection := by
    intro (.mk target inlet source) member
    obtain ⟨node, nodeMember, fed⟩ := mem_connections_iff.mp member
    have found := Table.get?_eq_some_iff.mpr nodeMember
    obtain ⟨parameters, operation, decoded, fromParameters, declared⟩ :=
      buildable.nodes target node found
    have isBuilt : node.operation = .ok operation :=
      NodeDescription.operation_eq_ok_iff.mpr ⟨parameters, decoded, fromParameters⟩
    refine ⟨?_, operation, (operation?_added_iff adds).mpr ⟨node, found, isBuilt⟩, ?_⟩
    · apply (mem_keys_added_iff adds).mpr
      exact buildable.sources target node found source (Table.mem_values_iff.mpr ⟨inlet, fed⟩)
    · apply declared
      exact Table.mem_keys_iff_exists.mpr ⟨source, fed⟩
  obtain ⟨connected, isConnected⟩ := exists_foldlM_edit
    (nodup_connections description.nodes.distinct)
    (fun connection _ => source?_added adds connection.target connection.inlet) named
  have known : description.output ∈ connected.nodes.keys := by
    rw [mem_keys_iff]
    simp only [operation?_foldlM_edit isConnected, ← mem_keys_iff]
    exact (mem_keys_added_iff adds).mpr buildable.output
  exact ⟨_, ofDescription_eq_ok_iff.mpr
    ⟨added, isAdded, connected, isConnected, setOutput_eq_ok_iff.mpr ⟨known, rfl⟩⟩⟩

/-- A graph that was built from a description holds what is described, and nothing else. -/
theorem describes_of_ofDescription (built : ofDescription name description = .ok graph) :
    description.Describes name graph := by
  obtain ⟨added, isAdded, connected, isConnected, isChosen⟩ := ofDescription_eq_ok_iff.mp built
  have adds := adds_of_foldlM_addDescribed isAdded
  obtain ⟨_, rfl⟩ := setOutput_eq_ok_iff.mp isChosen
  refine ⟨(name_foldlM isConnected).trans adds.name, fun node operation => ?_,
    fun node inlet source => ?_, rfl⟩
  · have sameOperation := operation?_foldlM_edit isConnected node
    exact (Eq.congr_left sameOperation).trans (operation?_added_iff adds)
  · have fed : connected.source? node inlet = some source ↔ _ :=
      source?_foldlM_edit_iff isConnected
    rw [source?_added adds, mem_connections_iff] at fed
    simp only [reduceCtorEq, false_or, ← Table.get?_eq_some_iff] at fed
    exact fed

theorem Built.foldlM_addDescribed {nodes : List (String × NodeDescription)} {before : Graph}
    (built : before.Built) (finished : nodes.foldlM addDescribed before = .ok graph) :
    graph.Built := by
  induction nodes generalizing before with
  | nil =>
      cases finished
      exact built
  | cons entry rest inductionHypothesis =>
      obtain ⟨next, isDescribed, restFinished⟩ := bind_eq_ok_iff.mp finished
      obtain ⟨operation, _, isAdded⟩ := addDescribed_eq_ok_iff.mp isDescribed
      exact inductionHypothesis (built.add isAdded) restFinished

/-- A graph from a description is one that was built by calls, so it is sound. -/
theorem built_of_ofDescription (built : ofDescription name description = .ok graph) :
    graph.Built := by
  obtain ⟨added, isAdded, connected, isConnected, isChosen⟩ := ofDescription_eq_ok_iff.mp built
  have addedBuilt : added.Built := (Built.empty name).foldlM_addDescribed isAdded
  exact (addedBuilt.foldlM isConnected).setOutput isChosen

theorem exists_ofDescription_iff :
    (∃ described, ofDescription name description = .ok described) ↔ description.Buildable := by
  constructor
  · intro ⟨described, built⟩
    exact buildable_of_ofDescription built
  · intro buildable
    exact exists_ofDescription buildable name

/-! ## Graphs of either kind -/

/-- Calls that are made on an empty graph, in whatever mixture of success and failure, leave a sound
graph: what the calls that succeed build alone.  A call that fails changes nothing, and one that
succeeds changes no connection.  The graph is refused only for want of an output, for the parameters
or an open inlet of a node, or for a cycle, and never because a node is not there.  And a
description is built exactly if all that it names is there, into a sound graph that holds what is
described. -/
theorem edited_graph_is_sound {edits : List Edit}
    (edited : (Graph.empty name).editAll edits = graph) :
    (∀ edit fault, (graph.edit edit).2 = some fault → (graph.edit edit).1 = graph) ∧
    ((Graph.empty name).accepted edits).foldlM perform (Graph.empty name) = .ok graph ∧
    graph.Sound ∧
    (∀ edit changed, graph.perform edit = .ok changed → ∀ node inlet source,
      graph.source? node inlet = some source → changed.source? node inlet = some source) ∧
    (∀ fault, graph.verify = .error fault →
      graph.Refusal fault ∧ ∀ node, fault ≠ .unknownNode node) ∧
    ∀ description : GraphDescription,
      ((∃ described, ofDescription name description = .ok described) ↔ description.Buildable) ∧
      ∀ described, ofDescription name description = .ok described →
        described.Sound ∧ description.Describes name described := by
  subst edited
  have sound := sound_editAll name edits
  refine ⟨?_, foldlM_accepted edits, sound, ?_, ?_, ?_⟩
  · intro edit fault reports
    exact edit_eq_self reports
  · intro edit changed performed node inlet source fed
    exact (source?_perform_iff performed).mpr (Or.inl fed)
  · intro fault refused
    have refusal := refusal_of_verify sound.sourcesKnown refused
    exact ⟨refusal, refusal.ne_unknownNode⟩
  · intro description
    refine ⟨exists_ofDescription_iff, fun described built => ⟨?_, ?_⟩⟩
    · exact (built_of_ofDescription built).sound
    · exact describes_of_ofDescription built

/-- Calls of which some fail: a name or an inlet is taken already, and a source, an inlet or an
output is not there. -/
def mixedEdits : List Edit :=
  [.add "one" (.literal .int (.int 1)), .add "one" (.literal .int (.int 2)),
    .add "ratio" (.operator (.math .div)), .connect "two" "ratio" "rhs",
    .connect "one" "ratio" "middle", .connect "one" "ratio" "lhs", .connect "one" "ratio" "lhs",
    .setOutput "two", .setOutput "ratio"]

/-- A ratio without a denominator. -/
def openRatio : Graph where
  name := "open"
  nodes :=
    ⟨[("one", ⟨.literal .int (.int 1), Table.empty⟩),
      ("ratio", ⟨.operator (.math .div), ⟨[("lhs", "one")], by decide⟩⟩)], by decide⟩
  output := some "ratio"

/-- The negation of a truth value. -/
def negationDescription : GraphDescription where
  nodes := Table.ofList
    [("truth", ⟨"bool", Table.ofList [("value", .bool true)], Table.empty⟩),
      ("negation", ⟨"binary_op", Table.ofList [("op_string", .string "not")],
        Table.ofList [("rhs", "truth")]⟩)]
  output := "negation"

theorem openRatio_is_sound :
    (Graph.empty "open").editAll mixedEdits = openRatio ∧ openRatio.Sound ∧
      openRatio.verify = .error (.missingInput "open.ratio" "rhs") ∧
      openRatio.Refusal (.missingInput "open.ratio" "rhs") ∧ negationDescription.Buildable := by
  have edited : (Graph.empty "open").editAll mixedEdits = openRatio := rfl
  have refused : openRatio.verify = .error (.missingInput "open.ratio" "rhs") := by
    cbv
  obtain ⟨_, _, sound, _, reasons, descriptions⟩ := edited_graph_is_sound edited
  have built : ∃ described, ofDescription "open" negationDescription = .ok described :=
    ⟨_, rfl⟩
  exact ⟨edited, sound, refused, (reasons _ refused).1,
    (descriptions negationDescription).1.mp built⟩

end Graph

end InSitu
