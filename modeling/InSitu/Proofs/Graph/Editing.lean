import InSitu.Proofs.Graph.Verifying

/-!
# Graphs under edits

A graph is edited in place, one call after the other, and a call that fails leaves it as it was.
So the graph is what the calls that succeed build alone.  Each of them keeps the graph sound: what
feeds an inlet is a node, a connected inlet is declared and keeps its source, and the output is a
node.  Hence the check of such a graph never meets a node that is not there.
-/

namespace InSitu.Graph

variable {graph edited : Graph}

/-- A call that changes a graph. -/
inductive Edit where
  | add (name : String) (operation : Operation)
  | connect (source target inlet : String)
  | setOutput (name : String)

def perform (graph : Graph) : Edit → Except Fault Graph
  | .add name operation => graph.add name operation
  | .connect source target inlet => graph.connect source target inlet
  | .setOutput name => graph.setOutput name

/-- The graph after a call, and the fault of the call if it fails. -/
def edit (graph : Graph) (edit : Edit) : Graph × Option Fault :=
  match graph.perform edit with
  | .ok edited => (edited, none)
  | .error fault => (graph, some fault)

/-- The graph after calls that may all fail. -/
def editAll (graph : Graph) (edits : List Edit) : Graph :=
  edits.foldl (fun graph edit => (graph.edit edit).1) graph

/-- The calls that succeed. -/
def accepted (graph : Graph) : List Edit → List Edit
  | [] => []
  | edit :: rest =>
    match graph.perform edit with
    | .ok edited => edit :: accepted edited rest
    | .error _ => accepted graph rest

theorem edit_of_ok {edit : Edit} (performed : graph.perform edit = .ok edited) :
    graph.edit edit = (edited, none) := by
  rw [Graph.edit, performed]

theorem edit_of_error {edit : Edit} {fault : Fault} (failed : graph.perform edit = .error fault) :
    graph.edit edit = (graph, some fault) := by
  rw [Graph.edit, failed]

/-- A call that reports a fault has changed nothing. -/
theorem edit_eq_self {edit : Edit} {fault : Fault} (reports : (graph.edit edit).2 = some fault) :
    (graph.edit edit).1 = graph := by
  cases performed : graph.perform edit with
  | ok edited =>
      rw [edit_of_ok performed] at reports
      cases reports
  | error other =>
      rw [edit_of_error performed]

theorem editAll_cons (edit : Edit) (rest : List Edit) :
    graph.editAll (edit :: rest) = (graph.edit edit).1.editAll rest :=
  rfl

/-- The calls that succeed lead to the same graph by themselves, and none of them fails then. -/
theorem foldlM_accepted (edits : List Edit) :
    (graph.accepted edits).foldlM perform graph = .ok (graph.editAll edits) := by
  induction edits generalizing graph with
  | nil =>
      rfl
  | cons edit rest inductionHypothesis =>
      rw [accepted, editAll_cons]
      cases performed : graph.perform edit with
      | ok edited =>
          rw [edit_of_ok performed]
          simp only [List.foldlM_cons, performed]
          exact inductionHypothesis
      | error fault =>
          rw [edit_of_error performed]
          exact inductionHypothesis

/-- What the calls keep that succeed, all calls keep. -/
theorem editAll_keeps {P : Graph → Prop} (start : P graph)
    (keeps : ∀ before after edit, P before → before.perform edit = .ok after → P after)
    (edits : List Edit) : P (graph.editAll edits) := by
  induction edits generalizing graph with
  | nil =>
      exact start
  | cons edit rest inductionHypothesis =>
      rw [editAll_cons]
      cases performed : graph.perform edit with
      | ok edited =>
          rw [edit_of_ok performed]
          exact inductionHypothesis (keeps graph edited edit start performed)
      | error fault =>
          rw [edit_of_error performed]
          exact inductionHypothesis start

theorem Built.perform {edit : Edit} (built : graph.Built)
    (performed : graph.perform edit = .ok edited) : edited.Built := by
  cases edit with
  | add name operation =>
      exact built.add performed
  | connect source target inlet =>
      exact built.connect performed
  | setOutput name =>
      exact built.setOutput performed

theorem Built.editAll (built : graph.Built) (edits : List Edit) : (graph.editAll edits).Built :=
  editAll_keeps built (fun _ _ _ before performed => before.perform performed) edits

theorem Built.foldlM {edits : List Edit} (built : graph.Built)
    (performed : edits.foldlM Graph.perform graph = .ok edited) : edited.Built := by
  induction edits generalizing graph with
  | nil =>
      cases performed
      exact built
  | cons edit rest inductionHypothesis =>
      obtain ⟨next, first, others⟩ := bind_eq_ok_iff.mp performed
      exact inductionHypothesis (built.perform first) others

theorem editAll_append_of_ok {edits : List Edit} (edit : Edit)
    (performed : (graph.editAll edits).perform edit = .ok edited) :
    graph.editAll (edits ++ [edit]) = edited := by
  rw [Graph.editAll, List.foldl_append]
  exact congrArg Prod.fst (edit_of_ok performed)

/-- The graphs that come about by calls on an empty graph are those that were built. -/
theorem built_iff_exists_editAll :
    graph.Built ↔ ∃ name edits, (Graph.empty name).editAll edits = graph := by
  constructor
  · intro built
    induction built with
    | empty name =>
        exact ⟨name, [], rfl⟩
    | @add _ _ node operation _ result inductionHypothesis =>
        obtain ⟨name, edits, rfl⟩ := inductionHypothesis
        exact ⟨name, edits ++ [.add node operation],
          editAll_append_of_ok (.add node operation) result⟩
    | @connect _ _ source target inlet _ result inductionHypothesis =>
        obtain ⟨name, edits, rfl⟩ := inductionHypothesis
        exact ⟨name, edits ++ [.connect source target inlet],
          editAll_append_of_ok (.connect source target inlet) result⟩
    | @setOutput _ _ output _ result inductionHypothesis =>
        obtain ⟨name, edits, rfl⟩ := inductionHypothesis
        exact ⟨name, edits ++ [.setOutput output],
          editAll_append_of_ok (.setOutput output) result⟩
  · intro ⟨name, edits, reached⟩
    rw [← reached]
    exact (Built.empty name).editAll edits

theorem name_perform {edit : Edit} (performed : graph.perform edit = .ok edited) :
    edited.name = graph.name := by
  cases edit with
  | add added operation =>
      rw [(add_eq_ok_iff.mp performed).2]
  | connect source target inlet =>
      exact name_connect performed
  | setOutput chosen =>
      rw [(setOutput_eq_ok_iff.mp performed).2]

/-- The operations after a call are those before it, and that of the node that it adds. -/
theorem operation?_perform_iff {edit : Edit} (performed : graph.perform edit = .ok edited)
    {name : String} {operation : Operation} :
    edited.operation? name = some operation ↔
      graph.operation? name = some operation ∨ edit = .add name operation := by
  cases edit with
  | add added other =>
      have isNew := exists_add_iff.mp ⟨edited, performed⟩
      rw [operation?_add performed]
      by_cases same : name = added
      · subst same
        simp [isNew]
      · simp [same, Ne.symm same]
  | connect source target inlet =>
      simp [operation?_connect performed]
  | setOutput chosen =>
      obtain ⟨_, rfl⟩ := setOutput_eq_ok_iff.mp performed
      simp [operation?]

/-- The connections after a call are those before it, and the one that it makes. -/
theorem source?_perform_iff {edit : Edit} (performed : graph.perform edit = .ok edited)
    {name inlet source : String} :
    edited.source? name inlet = some source ↔
      graph.source? name inlet = some source ∨ edit = .connect source name inlet := by
  cases edit with
  | add added operation =>
      simp [source?_add performed]
  | connect other target port =>
      obtain ⟨_, _, isOpen⟩ := exists_connect_iff.mp ⟨edited, performed⟩
      rw [source?_connect performed]
      by_cases same : name = target ∧ inlet = port
      · obtain ⟨rfl, rfl⟩ := same
        simp [isOpen]
      · have different : Edit.connect other target port ≠ .connect source name inlet := by
          intro equal
          cases equal
          exact same ⟨rfl, rfl⟩
        simp [same, different]
  | setOutput chosen =>
      obtain ⟨_, rfl⟩ := setOutput_eq_ok_iff.mp performed
      simp [source?]

section Run

variable {edits : List Edit} (performed : edits.foldlM perform graph = .ok edited)

include performed

theorem name_foldlM : edited.name = graph.name := by
  induction edits generalizing graph with
  | nil =>
      cases performed
      rfl
  | cons edit rest inductionHypothesis =>
      obtain ⟨next, first, others⟩ := bind_eq_ok_iff.mp performed
      rw [inductionHypothesis others, name_perform first]

theorem operation?_foldlM_iff {name : String} {operation : Operation} :
    edited.operation? name = some operation ↔
      graph.operation? name = some operation ∨ .add name operation ∈ edits := by
  induction edits generalizing graph with
  | nil =>
      cases performed
      simp
  | cons edit rest inductionHypothesis =>
      obtain ⟨next, first, others⟩ := bind_eq_ok_iff.mp performed
      rw [inductionHypothesis others, operation?_perform_iff first, List.mem_cons, or_assoc,
        eq_comm (a := edit)]

theorem source?_foldlM_iff {name inlet source : String} :
    edited.source? name inlet = some source ↔
      graph.source? name inlet = some source ∨ .connect source name inlet ∈ edits := by
  induction edits generalizing graph with
  | nil =>
      cases performed
      simp
  | cons edit rest inductionHypothesis =>
      obtain ⟨next, first, others⟩ := bind_eq_ok_iff.mp performed
      rw [inductionHypothesis others, source?_perform_iff first, List.mem_cons, or_assoc,
        eq_comm (a := edit)]

end Run

/-! ## Soundness -/

/-- Every connected inlet is declared by the operation of its node. -/
def InletsDeclared (graph : Graph) : Prop :=
  ∀ name inlet source, graph.source? name inlet = some source →
    ∃ operation, graph.operation? name = some operation ∧ inlet ∈ operation.inlets.map Inlet.name

/-- What a graph refers to is there: nodes as sources and as the output, and declared inlets, each
connected once. -/
structure Sound (graph : Graph) : Prop extends WellFormed graph where
  inletsDeclared : graph.InletsDeclared
  connected_once : ∀ name node inlet, graph.nodes.get? name = some node →
    inlet ∈ node.sources.keys → node.sources.keys.count inlet = 1

theorem InletsDeclared.perform {edit : Edit} (inletsDeclared : graph.InletsDeclared)
    (performed : graph.perform edit = .ok edited) : edited.InletsDeclared := by
  intro name inlet source fed
  have operations : ∀ operation, graph.operation? name = some operation →
      edited.operation? name = some operation :=
    fun operation holds => (operation?_perform_iff performed).mpr (Or.inl holds)
  -- The connection is an old one, or the one that the call has made.
  rcases (source?_perform_iff performed).mp fed with fedBefore | rfl
  · obtain ⟨operation, holds, declared⟩ := inletsDeclared name inlet source fedBefore
    exact ⟨operation, operations operation holds, declared⟩
  · obtain ⟨_, ⟨operation, holds, declared⟩, _⟩ := exists_connect_iff.mp ⟨edited, performed⟩
    exact ⟨operation, operations operation holds, declared⟩

/-- Whatever calls are made on an empty graph, in whatever mixture of success and failure, the graph
stays sound. -/
theorem sound_editAll (name : String) (edits : List Edit) :
    ((Graph.empty name).editAll edits).Sound where
  toWellFormed := ((Built.empty name).editAll edits).wellFormed
  inletsDeclared := by
    have nothing : (Graph.empty name).InletsDeclared := by
      intro node inlet source fed
      cases fed
    exact editAll_keeps nothing (fun _ _ _ before performed => before.perform performed) edits
  connected_once _ node _ _ member := List.count_eq_one_of_mem node.sources.distinct member

theorem Built.sound (built : graph.Built) : graph.Sound := by
  obtain ⟨name, edits, rfl⟩ := built_iff_exists_editAll.mp built
  exact sound_editAll name edits

/-- The faults for which a graph is refused. -/
inductive Refusal (graph : Graph) : Fault → Prop
  | noOutput : graph.output = none → Refusal graph (.misuse graph.name .noOutput)
  | parameters {name : String} {operation : Operation} {fault : Fault} :
      graph.operation? name = some operation →
        operation.check (graph.qualified name) = .error fault → Refusal graph fault
  | missingInput {name : String} {operation : Operation} {inlet : Inlet} :
      graph.operation? name = some operation → inlet ∈ operation.inlets →
        inlet.required = true → graph.source? name inlet.name = none →
          Refusal graph (.missingInput (graph.qualified name) inlet.name)
  | cycle {names : List String} : names ≠ [] →
      (∀ name, name ∈ names ↔ LeadsToCycle graph.nodes name) →
        Refusal graph (.dependencyCycle names)

/-- The parameters of an operation are refused as a misuse of its node. -/
theorem exists_misuse_of_check {operation : Operation} {node : String} {fault : Fault}
    (refused : operation.check node = .error fault) : ∃ cause, fault = .misuse node cause := by
  have refusal {condition : Prop} [Decidable condition] {cause : Misuse}
      (failed : (if condition then .error (.misuse node cause) else .ok () : Except Fault Unit) =
        .error fault) : ∃ cause, fault = .misuse node cause := by
    split at failed
    · cases failed
      exact ⟨cause, rfl⟩
    · cases failed
  cases operation with
  | literal type value =>
      rw [Operation.check] at refused
      split at refused
      · split at refused
        · cases refused
        · cases refused
          exact ⟨_, rfl⟩
      · cases refused
  | identifier name =>
      exact refusal refused
  | «attribute» name =>
      exact refusal refused
  | axisList arity =>
      exact refusal refused
  | _ =>
      cases refused

theorem refusal_of_checkNode {name : String} {node : GraphNode} {fault : Fault}
    (found : graph.nodes.get? name = some node)
    (failed : graph.checkNode name node = .error fault) : graph.Refusal fault := by
  have holds := operation?_of_get? found
  rcases checkNode_eq_error failed with refused | ⟨inlet, isOpen, rfl⟩
  · exact .parameters holds refused
  · obtain ⟨member, required, nothing⟩ := openInlet?_spec found isOpen
    exact .missingInput holds member required nothing

/-- A graph whose sources are nodes is refused for want of an output, for the parameters or an open
inlet of a node, or for a cycle. -/
theorem refusal_of_verify (sourcesKnown : SourcesKnown graph.nodes) {fault : Fault}
    (refused : graph.verify = .error fault) : graph.Refusal fault := by
  cases chosen : graph.output with
  | none =>
      rw [verify_eq_of_no_output chosen] at refused
      cases refused
      exact .noOutput chosen
  | some name =>
      rw [verify_eq_of_output chosen] at refused
      cases checked : graph.checkNodes with
      | error other =>
          rw [checked] at refused
          cases refused
          obtain ⟨name, node, found, failed⟩ := exists_of_checkNodes_eq_error checked
          exact refusal_of_checkNode found failed
      | ok passed =>
          rw [checked] at refused
          obtain ⟨names, rfl, notEmpty, _, leads⟩ := layers_eq_error sourcesKnown refused
          exact .cycle notEmpty leads

theorem Refusal.ne_unknownNode {fault : Fault} (refusal : graph.Refusal fault) (name : String) :
    fault ≠ .unknownNode name := by
  cases refusal with
  | parameters _ refused =>
      obtain ⟨cause, rfl⟩ := exists_misuse_of_check refused
      exact Fault.noConfusion
  | _ =>
      exact Fault.noConfusion

end InSitu.Graph
