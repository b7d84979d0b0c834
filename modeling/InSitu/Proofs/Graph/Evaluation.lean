import InSitu.Mesh.PointMesh
import InSitu.Proofs.Graph.Outcome
import InSitu.Proofs.Graph.Verifying

/-!
# Evaluation agrees with recursion

Evaluating a graph runs its nodes one after the other and keeps their outputs.
This agrees with the recursive outcomes because, in the order of levels and
names, every source has been run before it is read.
-/

namespace InSitu.Graph

variable {graph : Graph} {environment : Environment}

/-- `runNodes` with a log: the names of the nodes whose operations were run. -/
def runNodesLogged (graph : Graph) (environment : Environment) :
    List String → Table Output → Symbols → List String →
      List String × Symbols × Except Fault (Table Output)
  | [], outputs, symbols, ran => (ran, symbols, .ok outputs)
  | name :: rest, outputs, symbols, ran =>
    match graph.nodes.get? name with
    | none => (ran, symbols, .error (.unknownNode name))
    | some node =>
      match gather outputs node.sources.entries with
      | .error fault => (ran, symbols, .error fault)
      | .ok bound =>
        match node.operation.run ⟨graph.qualified name, Table.ofList bound⟩
            environment with
        | .error fault => (ran ++ [name], symbols, .error fault)
        | .ok output =>
          runNodesLogged graph environment rest (outputs.insert name output)
            (graph.record environment symbols name output) (ran ++ [name])

/-- `evaluate` with a log: the names of the nodes whose operations were run. -/
def evaluateLogged (graph : Graph) (environment : Environment)
    (symbols : Symbols) : List String × Symbols × Except Fault Value :=
  match graph.verify with
  | .error fault => ([], symbols, .error fault)
  | .ok layers =>
    let (ran, symbols, outputs) :=
      graph.runNodesLogged environment layers.flatten Table.empty symbols []
    (ran, symbols, outputs.bind graph.outputValue)

/-- The log changes nothing of what is computed. -/
theorem runNodesLogged_snd (names : List String) (outputs : Table Output)
    (symbols : Symbols) (ran : List String) :
    (graph.runNodesLogged environment names outputs symbols ran).2 =
      graph.runNodes environment names outputs symbols := by
  induction names generalizing outputs symbols ran with
  | nil =>
      rfl
  | cons name rest inductionHypothesis =>
      rw [runNodesLogged, runNodes, runNode]
      cases graph.nodes.get? name with
      | none =>
          rfl
      | some node =>
          dsimp only [bind, Except.bind]
          cases gather outputs node.sources.entries with
          | error fault =>
              rfl
          | ok bound =>
              dsimp only
              cases node.operation.run ⟨graph.qualified name, Table.ofList bound⟩
                  environment with
              | error fault =>
                  rfl
              | ok output =>
                  exact inductionHypothesis _ _ _

theorem evaluateLogged_snd (symbols : Symbols) :
    (graph.evaluateLogged environment symbols).2 =
      graph.evaluate environment symbols := by
  rw [evaluateLogged, evaluate]
  cases graph.verify with
  | error fault =>
      rfl
  | ok layers =>
      have same : (graph.runNodesLogged environment layers.flatten Table.empty
          symbols []).2 =
          graph.runNodes environment layers.flatten Table.empty symbols :=
        runNodesLogged_snd layers.flatten Table.empty symbols []
      simp only [← same]

/-- The outputs so far are the outcomes of the nodes that have been run. -/
def Holds (graph : Graph) (environment : Environment) (outputs : Table Output)
    (done : List String) : Prop :=
  ∀ name ∈ done, ∃ output, outputs.get? name = some output ∧
    graph.outcome environment name = .ok output

theorem Holds.gather {outputs : Table Output} {done : List String}
    (holds : graph.Holds environment outputs done) :
    ∀ {sources : List (String × String)},
      (∀ source ∈ sources.map Prod.snd, source ∈ done) →
      ∃ bound, gather outputs sources = .ok bound ∧
        gatherOutcomes (graph.outcome environment) sources = .ok bound
  | [], _ => ⟨[], rfl, rfl⟩
  | (inlet, source) :: rest, ready => by
      simp only [List.map_cons, List.mem_cons, forall_eq_or_imp] at ready
      obtain ⟨output, present, outcome⟩ := holds source ready.1
      obtain ⟨bound, gathered, mapped⟩ := holds.gather ready.2
      refine ⟨(inlet, output) :: bound, ?_, gatherOutcomes_cons outcome mapped⟩
      simp [Graph.gather, present, gathered, Except.map]

theorem Holds.empty (graph : Graph) (environment : Environment) :
    graph.Holds environment Table.empty [] := by
  intro name member
  exact False.elim (List.not_mem_nil member)

theorem Holds.insert {outputs : Table Output} {done : List String}
    (holds : graph.Holds environment outputs done)
    {name : String} {output : Output}
    (outcome : graph.outcome environment name = .ok output) :
    graph.Holds environment (outputs.insert name output) (done ++ [name]) := by
  intro other member
  rw [Table.get?_insert]
  by_cases same : other = name
  · exact ⟨output, by rw [if_pos same], same ▸ outcome⟩
  · rw [if_neg same]
    have earlier : other ∈ done := by
      simpa [same] using member
    exact holds other earlier

/-- A node whose sources have been run is run on their outcomes. -/
theorem Holds.run {outputs : Table Output} {done : List String}
    (holds : graph.Holds environment outputs done)
    {levels : List (List String)}
    (sourcesKnown : SourcesKnown graph.nodes)
    (layering : IsLayering graph.nodes levels)
    {name : String} (member : name ∈ graph.nodes.keys)
    (ready : ∀ source, DependsOn graph.nodes name source → source ∈ done) :
    ∃ node bound, graph.nodes.get? name = some node ∧
      Graph.gather outputs node.sources.entries = .ok bound ∧
      graph.outcome environment name =
        node.operation.run ⟨graph.qualified name, Table.ofList bound⟩
          environment := by
  obtain ⟨node, found⟩ := Table.mem_keys_iff_exists.mp member
  obtain ⟨bound, gathered, mapped⟩ :=
    holds.gather fun source sourceMember => ready source ⟨node, found, sourceMember⟩
  refine ⟨node, bound, found, gathered, ?_⟩
  rw [outcome_eq sourcesKnown layering member, outcomeFrom, found]
  simp only [mapped]
  rfl

/-! ## A run of nodes -/

/-- Exactly the values of some nodes have been recorded, each under the name of
its graph and its own, unless nothing is recorded at all. -/
structure Recorded (graph : Graph) (environment : Environment)
    (completed : String → Prop) (before after : Symbols) : Prop where
  gained : environment.config.recordSymbols = true →
    ∀ name output, completed name →
      graph.outcome environment name = .ok output →
        after.get? (graph.name ++ "." ++ name) = some output.value
  unchanged : ∀ key,
    (∀ name, completed name → key ≠ graph.name ++ "." ++ name) →
      after.get? key = before.get? key
  off : environment.config.recordSymbols = false → after = before

theorem qualified_injective {first second : String}
    (same : graph.name ++ "." ++ first = graph.name ++ "." ++ second) :
    first = second :=
  String.append_right_inj _ |>.mp same

theorem Recorded.nil (graph : Graph) (environment : Environment)
    (symbols : Symbols) :
    graph.Recorded environment (· ∈ []) symbols symbols := by
  refine ⟨?_, fun _ _ => rfl, fun _ => rfl⟩
  intro _ name output member
  exact False.elim (List.not_mem_nil member)

/-- Recording one more node. -/
theorem Recorded.record {completed : String → Prop} {before after : Symbols}
    (recorded : graph.Recorded environment completed before after)
    {name : String} {output : Output}
    (outcome : graph.outcome environment name = .ok output) :
    graph.Recorded environment (fun other => completed other ∨ other = name)
      before (graph.record environment after name output) := by
  refine ⟨?_, ?_, ?_⟩
  · intro on other otherOutput member otherOutcome
    rw [Graph.record, if_pos on, qualified, Table.get?_insert]
    by_cases same : other = name
    · rw [same, outcome] at otherOutcome
      cases otherOutcome
      rw [if_pos (by rw [same])]
    · rw [if_neg fun equal => same (qualified_injective equal)]
      exact recorded.gained on other otherOutput
        (member.resolve_right same) otherOutcome
  · intro key fresh
    have keyNew := fresh name (Or.inr rfl)
    have kept := recorded.unchanged key fun other member =>
      fresh other (Or.inl member)
    rw [Graph.record]
    split
    · rw [qualified, Table.get?_insert_of_ne keyNew, kept]
    · exact kept
  · intro off
    rw [Graph.record, if_neg (by simp [off]), recorded.off off]

theorem Recorded.congr {first second : String → Prop} {before after : Symbols}
    (recorded : graph.Recorded environment first before after)
    (same : ∀ name, first name ↔ second name) :
    graph.Recorded environment second before after :=
  ⟨fun on name output member =>
      recorded.gained on name output ((same name).mpr member),
    fun key fresh => recorded.unchanged key fun name member =>
      fresh name ((same name).mp member),
    recorded.off⟩

/-- In a list of nodes every source of a node has been run before it. -/
def Scheduled (graph : Graph) (done names : List String) : Prop :=
  (∀ name ∈ names, name ∈ graph.nodes.keys) ∧
    ∀ front name back, names = front ++ name :: back →
      ∀ source, DependsOn graph.nodes name source → source ∈ done ++ front

theorem Scheduled.tail {done names : List String} {name : String}
    (scheduled : graph.Scheduled done (name :: names)) :
    graph.Scheduled (done ++ [name]) names := by
  refine ⟨fun other member =>
    scheduled.1 other (List.mem_cons_of_mem name member), ?_⟩
  rintro front other back rfl source depends
  have ready := scheduled.2 (name :: front) other back rfl source depends
  simpa using ready

theorem IsLayering.scheduled {levels : List (List String)}
    (layering : IsLayering graph.nodes levels)
    (sourcesKnown : SourcesKnown graph.nodes) :
    graph.Scheduled [] levels.flatten := by
  have members : ∀ name, name ∈ levels.flatten ↔ name ∈ graph.nodes.keys :=
    fun name => layering.perm_keys.mem_iff
  refine ⟨fun name => (members name).mp, ?_⟩
  intro front name back split source depends
  have ordered := flatten_pairwise_comesBefore
    layering.pairwise_lt layering.mem_iff
  have nameMember : name ∈ graph.nodes.keys := depends.mem_keys
  have sourceMember : source ∈ front ++ name :: back := by
    rw [← split]
    exact (members source).mpr (sourcesKnown name source depends)
  obtain ⟨level, isLevel, _⟩ := layering.exists_level_lt_size nameMember
  have before := ComesBefore.of_dependsOn isLevel sourcesKnown depends
  rw [split] at ordered
  rcases List.mem_append.mp sourceMember with inFront | later
  · simpa using inFront
  · rcases List.mem_cons.mp later with same | inBack
    · rw [same] at before
      exact False.elim (ComesBefore.irrefl name before)
    · have after : ComesBefore graph.nodes name source :=
        (List.pairwise_cons.mp (List.pairwise_append.mp ordered).2.1).1
          source inBack
      exact False.elim (ComesBefore.irrefl name (after.trans before))

section Run

variable {levels : List (List String)}
  (sourcesKnown : SourcesKnown graph.nodes)
  (layering : IsLayering graph.nodes levels)
  {done rest : List String} {outputs : Table Output} {symbols : Symbols}

include sourcesKnown layering

/-- A node with an output is run and the walk goes on. -/
theorem runNodesLogged_of_ok {name : String}
    (scheduled : graph.Scheduled done (name :: rest))
    (holds : graph.Holds environment outputs done)
    {output : Output} (outcome : graph.outcome environment name = .ok output) :
    graph.runNodesLogged environment (name :: rest) outputs symbols done =
      graph.runNodesLogged environment rest (outputs.insert name output)
        (graph.record environment symbols name output) (done ++ [name]) := by
  have member := scheduled.1 name (List.mem_cons_self ..)
  have ready : ∀ source, DependsOn graph.nodes name source → source ∈ done := by
    intro source depends
    simpa using scheduled.2 [] name rest rfl source depends
  obtain ⟨node, bound, found, gathered, run⟩ :=
    holds.run sourcesKnown layering member ready
  rw [outcome] at run
  rw [runNodesLogged, found]
  simp only [gathered, ← run]

/-- A node with a fault is run and ends the walk. -/
theorem runNodesLogged_of_error {name : String}
    (scheduled : graph.Scheduled done (name :: rest))
    (holds : graph.Holds environment outputs done)
    {fault : Fault} (outcome : graph.outcome environment name = .error fault) :
    graph.runNodesLogged environment (name :: rest) outputs symbols done =
      (done ++ [name], symbols, .error fault) := by
  have member := scheduled.1 name (List.mem_cons_self ..)
  have ready : ∀ source, DependsOn graph.nodes name source → source ∈ done := by
    intro source depends
    simpa using scheduled.2 [] name rest rfl source depends
  obtain ⟨node, bound, found, gathered, run⟩ :=
    holds.run sourcesKnown layering member ready
  rw [outcome] at run
  rw [runNodesLogged, found]
  simp only [gathered, ← run]

/-- The walk over nodes that have outputs keeps the invariant. -/
theorem runNodesLogged_append {front : List String} {before : Symbols}
    (scheduled : graph.Scheduled done (front ++ rest))
    (succeeds : ∀ name ∈ front,
      ∃ output, graph.outcome environment name = .ok output)
    (holds : graph.Holds environment outputs done)
    (recorded : graph.Recorded environment (· ∈ done) before symbols) :
    ∃ laterOutputs laterSymbols,
      graph.runNodesLogged environment (front ++ rest) outputs symbols done =
        graph.runNodesLogged environment rest laterOutputs laterSymbols
          (done ++ front) ∧
      graph.Holds environment laterOutputs (done ++ front) ∧
      graph.Recorded environment (· ∈ done ++ front) before laterSymbols ∧
      graph.Scheduled (done ++ front) rest := by
  induction front generalizing done outputs symbols with
  | nil =>
      refine ⟨outputs, symbols, ?_⟩
      simp only [List.nil_append, List.append_nil] at scheduled ⊢
      exact ⟨trivial, holds, recorded, scheduled⟩
  | cons name others inductionHypothesis =>
      obtain ⟨output, outcome⟩ := succeeds name (List.mem_cons_self ..)
      have stepRecorded : graph.Recorded environment (· ∈ done ++ [name])
          before (graph.record environment symbols name output) :=
        (recorded.record outcome).congr (by simp)
      obtain ⟨laterOutputs, laterSymbols, runs, kept⟩ :=
        inductionHypothesis scheduled.tail
          (fun other member => succeeds other (List.mem_cons_of_mem name member))
          (holds.insert outcome) stepRecorded
      refine ⟨laterOutputs, laterSymbols, ?_, ?_⟩
      · rw [List.cons_append] at scheduled ⊢
        rw [runNodesLogged_of_ok sourcesKnown layering scheduled holds outcome,
          runs, List.append_assoc, List.singleton_append]
      · simpa only [List.append_assoc, List.singleton_append] using kept

end Run

/-! ## The evaluation of a graph -/

theorem verify_eq_ok {levels : List (List String)}
    (accepted : graph.verify = .ok levels) :
    (∃ name, graph.output = some name) ∧ layers graph.nodes = .ok levels := by
  obtain ⟨hasOutput, _, layered⟩ := verify_eq_ok_iff.mp accepted
  exact ⟨Option.ne_none_iff_exists'.mp hasOutput, layers_eq_ok_iff.mpr layered⟩

/-- Without a failing node every node is run, and the output node has a value. -/
theorem evaluateLogged_of_no_failure {levels : List (List String)}
    (wellFormed : graph.WellFormed)
    (accepted : graph.verify = .ok levels)
    (layering : IsLayering graph.nodes levels)
    (noFailure : ∀ name, ¬ graph.Fails environment name) (symbols : Symbols) :
    ∃ name output laterSymbols, graph.output = some name ∧
      graph.outcome environment name = .ok output ∧
      graph.evaluateLogged environment symbols =
        (levels.flatten, laterSymbols, .ok output.value) ∧
      (∀ other, other ∈ levels.flatten ↔
        graph.Completed environment other ∨
          graph.FirstFailure environment other) ∧
      graph.Recorded environment (graph.Completed environment) symbols
        laterSymbols := by
  have sourcesKnown := wellFormed.sourcesKnown
  have completed : ∀ other,
      other ∈ levels.flatten ↔ graph.Completed environment other := by
    intro other
    rw [layering.perm_keys.mem_iff]
    exact ⟨fun member => ⟨member, fun failing fails =>
      False.elim (noFailure failing fails)⟩, And.left⟩
  have succeeds : ∀ name ∈ levels.flatten,
      ∃ output, graph.outcome environment name = .ok output := by
    intro name member
    cases outcome : graph.outcome environment name with
    | ok output =>
        exact ⟨output, rfl⟩
    | error fault =>
        exact False.elim <| noFailure name
          ⟨layering.perm_keys.mem_iff.mp member, fault, outcome⟩
  have scheduled := layering.scheduled sourcesKnown
  rw [← List.append_nil levels.flatten] at scheduled
  obtain ⟨outputs, laterSymbols, runs, holds, recorded, _⟩ :=
    runNodesLogged_append sourcesKnown layering scheduled succeeds
      (Holds.empty graph environment)
      (Recorded.nil graph environment symbols)
  obtain ⟨name, chosen⟩ := (verify_eq_ok accepted).1
  have member : name ∈ levels.flatten :=
    layering.perm_keys.mem_iff.mpr (wellFormed.output_mem name chosen)
  obtain ⟨output, present, outcome⟩ := holds name (by simpa using member)
  rw [List.nil_append] at recorded
  refine ⟨name, output, laterSymbols, chosen, outcome, ?_, ?_,
    recorded.congr completed⟩
  · rw [List.append_nil] at runs
    rw [evaluateLogged, accepted]
    simp only [runs, runNodesLogged, List.nil_append]
    simp [Except.bind, outputValue, chosen, present]
  · intro other
    rw [completed]
    exact ⟨Or.inl, fun either => either.resolve_right fun first =>
      noFailure other first.1⟩

/-- With a failing node the nodes are run up to the first that fails, whose
fault is the answer. -/
theorem evaluateLogged_of_failure {levels : List (List String)}
    (wellFormed : graph.WellFormed)
    (accepted : graph.verify = .ok levels)
    (layering : IsLayering graph.nodes levels)
    (failure : ∃ name, graph.Fails environment name) (symbols : Symbols) :
    ∃ ran name fault laterSymbols,
      graph.FirstFailure environment name ∧
      graph.outcome environment name = .error fault ∧
      graph.evaluateLogged environment symbols =
        (ran, laterSymbols, .error fault) ∧
      ran.Pairwise (ComesBefore graph.nodes) ∧
      (∀ other, other ∈ ran ↔
        graph.Completed environment other ∨
          graph.FirstFailure environment other) ∧
      graph.Recorded environment (graph.Completed environment) symbols
        laterSymbols := by
  have sourcesKnown := wellFormed.sourcesKnown
  have members : ∀ other, other ∈ levels.flatten ↔ other ∈ graph.nodes.keys :=
    fun other => layering.perm_keys.mem_iff
  obtain ⟨failing, member, failingFault, failingOutcome⟩ := failure
  obtain ⟨front, name, back, fault, split, succeeds, outcome⟩ :=
    exists_first_error
      ⟨failing, (members failing).mpr member, failingFault, failingOutcome⟩
  have ordered := flatten_pairwise_comesBefore
    layering.pairwise_lt layering.mem_iff
  have scheduled := layering.scheduled sourcesKnown
  rw [split] at ordered members scheduled
  have nameMember := (members name).mp (by simp)
  obtain ⟨first, completed⟩ := completed_iff_mem_front
    ordered members succeeds ⟨nameMember, fault, outcome⟩
  obtain ⟨outputs, laterSymbols, runs, holds, recorded, restScheduled⟩ :=
    runNodesLogged_append sourcesKnown layering scheduled succeeds
      (Holds.empty graph environment)
      (Recorded.nil graph environment symbols)
  have ends : graph.runNodesLogged environment (name :: back) outputs
      laterSymbols ([] ++ front) =
      ([] ++ front ++ [name], laterSymbols, .error fault) :=
    runNodesLogged_of_error sourcesKnown layering restScheduled holds outcome
  rw [List.nil_append] at runs ends recorded
  refine ⟨front ++ [name], name, fault, laterSymbols, first, outcome,
    ?_, ordered.sublist (by simp), ?_, recorded.congr completed⟩
  · rw [evaluateLogged, accepted]
    simp only [split, runs, ends]
    rfl
  · intro other
    rw [List.mem_append, completed, List.mem_singleton, first.iff_eq]

/-- Evaluating a graph that was built and passes its check agrees with recursion.
The outcomes are the one solution of the equation of the recursion.  If no node
fails, the value of the output node is the answer; otherwise the fault of the
first failing node is, which its own operation raised on the outputs of its
sources.  The operations that run are those of the nodes before every failing
one and of the first failing one, in order and each once, and the values of the
former are what is recorded. -/
theorem evaluate_agrees_with_outcome
    {levels : List (List String)} (built : graph.Built)
    (accepted : graph.verify = .ok levels)
    (environment : Environment) (symbols : Symbols) :
    (∀ name ∈ graph.nodes.keys, graph.outcome environment name =
      graph.outcomeFrom environment (graph.outcome environment) name) ∧
    (∀ solution : String → Except Fault Output,
      (∀ name ∈ graph.nodes.keys,
        solution name = graph.outcomeFrom environment solution name) →
      ∀ name ∈ graph.nodes.keys,
        solution name = graph.outcome environment name) ∧
    ((∀ name, ¬ graph.Fails environment name) →
      ∃ name output, graph.output = some name ∧
        graph.outcome environment name = .ok output ∧
        (graph.evaluate environment symbols).2 = .ok output.value) ∧
    ((∃ name, graph.Fails environment name) →
      ∃ name node bound fault, graph.FirstFailure environment name ∧
        graph.nodes.get? name = some node ∧
        gatherOutcomes (graph.outcome environment) node.sources.entries =
          .ok bound ∧
        node.operation.run ⟨graph.name ++ "." ++ name, Table.ofList bound⟩
          environment = .error fault ∧
        (graph.evaluate environment symbols).2 = .error fault) ∧
    (∃ ran, graph.evaluateLogged environment symbols =
        (ran, graph.evaluate environment symbols) ∧
      ran.Nodup ∧ ran.Pairwise (ComesBefore graph.nodes) ∧
      ∀ name, name ∈ ran ↔
        graph.Completed environment name ∨
          graph.FirstFailure environment name) ∧
    graph.Recorded environment (graph.Completed environment) symbols
      (graph.evaluate environment symbols).1 := by
  have wellFormed := built.wellFormed
  have sourcesKnown := wellFormed.sourcesKnown
  have layering := (layers_eq_ok sourcesKnown (verify_eq_ok accepted).2).1
  have logged : (graph.evaluateLogged environment symbols).2 =
      graph.evaluate environment symbols := evaluateLogged_snd symbols
  refine ⟨fun name => outcome_eq sourcesKnown layering,
    fun solution solves name => eq_outcome_of_eq sourcesKnown layering solves, ?_⟩
  by_cases failure : ∃ name, graph.Fails environment name
  · obtain ⟨ran, name, fault, laterSymbols, first, outcome, run, ordered, members,
      recorded⟩ := evaluateLogged_of_failure wellFormed accepted layering
        failure symbols
    have evaluated : graph.evaluate environment symbols =
        (laterSymbols, .error fault) := by
      rw [← logged, run]
    rw [evaluated]
    refine ⟨fun noFailure => ?_, fun _ => ?_,
      ⟨ran, run, nodup_of_pairwise_comesBefore ordered, ordered, members⟩,
      recorded⟩
    · exact False.elim (noFailure name first.1)
    · obtain ⟨node, bound, found, mapped, raised⟩ :=
        exists_run_of_firstFailure sourcesKnown layering first outcome
      exact ⟨name, node, bound, fault, first, found, mapped, raised, rfl⟩
  · have noFailure : ∀ name, ¬ graph.Fails environment name :=
      fun name fails => failure ⟨name, fails⟩
    obtain ⟨name, output, laterSymbols, chosen, outcome, run, members, recorded⟩ :=
      evaluateLogged_of_no_failure wellFormed accepted layering noFailure symbols
    have evaluated : graph.evaluate environment symbols =
        (laterSymbols, .ok output.value) := by
      rw [← logged, run]
    have ordered := flatten_pairwise_comesBefore
      layering.pairwise_lt layering.mem_iff
    rw [evaluated]
    exact ⟨fun _ => ⟨name, output, chosen, outcome, rfl⟩,
      fun fails => False.elim (failure fails),
      ⟨levels.flatten, run, nodup_of_pairwise_comesBefore ordered, ordered, members⟩,
      recorded⟩

/-- A number that is divided by itself, with some inlets connected and perhaps
an output. -/
def unitGraph (sources : Table String) (output : Option String) : Graph where
  name := "unit"
  nodes :=
    ⟨[("zero", ⟨.literal .int (.int 0), Table.empty⟩),
      ("ratio", ⟨.operator (.math .div), sources⟩)], by simp [Entries.keys]⟩
  output := output

/-- Zero divided by itself. -/
def zeroRatio : Graph :=
  unitGraph (Table.ofList [("lhs", "zero"), ("rhs", "zero")]) (some "ratio")

/-- A cycle without points, fields and history. -/
def bareEnvironment : Environment :=
  ⟨History.empty none, PointMesh.toDataset ⟨0, none, "mesh", [], Table.empty⟩, {}⟩

theorem evaluate_zeroRatio :
    zeroRatio.Built ∧ zeroRatio.verify = .ok [["zero"], ["ratio"]] ∧
      zeroRatio.Fails bareEnvironment "ratio" ∧
      ∃ name fault, zeroRatio.FirstFailure bareEnvironment name ∧
        (zeroRatio.evaluate bareEnvironment Table.empty).2 = .error fault := by
  have addZero : (Graph.empty "unit").add "zero" (.literal .int (.int 0)) =
      .ok { Graph.empty "unit" with
        nodes := Table.ofList [("zero", ⟨.literal .int (.int 0), Table.empty⟩)] } :=
    rfl
  have addRatio : Graph.add { Graph.empty "unit" with
        nodes := Table.ofList [("zero", ⟨.literal .int (.int 0), Table.empty⟩)] }
      "ratio" (.operator (.math .div)) = .ok (unitGraph Table.empty none) :=
    rfl
  have connectLeft : (unitGraph Table.empty none).connect "zero" "ratio" "lhs" =
      .ok (unitGraph (Table.ofList [("lhs", "zero")]) none) :=
    rfl
  have connectRight :
      (unitGraph (Table.ofList [("lhs", "zero")]) none).connect
        "zero" "ratio" "rhs" =
      .ok (unitGraph (Table.ofList [("lhs", "zero"), ("rhs", "zero")]) none) :=
    rfl
  have chooseRatio :
      (unitGraph (Table.ofList [("lhs", "zero"), ("rhs", "zero")]) none).setOutput
        "ratio" = .ok zeroRatio :=
    rfl
  have built : zeroRatio.Built :=
    .setOutput (.connect (.connect (.add (.add (.empty "unit") addZero) addRatio)
      connectLeft) connectRight) chooseRatio
  have accepted : zeroRatio.verify = .ok [["zero"], ["ratio"]] := by
    cbv
  have fault : zeroRatio.outcome bareEnvironment "ratio" =
      .error (.badArgument "unit.ratio" (.divisionByZero "/")) := by
    cbv
  have fails : zeroRatio.Fails bareEnvironment "ratio" :=
    ⟨by decide, _, fault⟩
  obtain ⟨name, _, _, firstFault, first, _, _, _, answer⟩ :=
    (evaluate_agrees_with_outcome built accepted bareEnvironment
      Table.empty).2.2.2.1 ⟨"ratio", fails⟩
  exact ⟨built, accepted, fails, name, firstFault, first, answer⟩

end InSitu.Graph
