import InSitu.Graph.Evaluation
import InSitu.Proofs.Graph.Layering

/-!
# Recursive outcomes

The meaning of a graph is recursive: the outcome of a node is its operation run
on the outcomes of its sources.  Without a cycle this recursion has exactly one
solution.  The first node that fails, in the order of levels and names, fails by
itself, because its sources come before it.
-/

namespace InSitu.Graph

/-- The outputs of sources by inlet, or the first fault of one. -/
def gatherOutcomes (sourceOutcome : String → Except Fault Output)
    (sources : List (String × String)) : Except Fault (List (String × Output)) :=
  sources.mapM fun (inlet, source) =>
    (sourceOutcome source).map fun output => (inlet, output)

/-- The outcome of a node, given the outcomes of its sources: the first fault of
a source, or else the operation run on the outputs of all of them. -/
def outcomeFrom (graph : Graph) (environment : Environment)
    (sourceOutcome : String → Except Fault Output) (name : String) :
    Except Fault Output :=
  match graph.nodes.get? name with
  | none => .error (.unknownNode name)
  | some node => do
    let bound ← gatherOutcomes sourceOutcome node.sources.entries
    node.operation.run ⟨graph.qualified name, Table.ofList bound⟩ environment

/-- The outcome of a node by recursion over its sources, down to a depth. -/
def outcomeWithin (graph : Graph) (environment : Environment) :
    Nat → String → Except Fault Output
  | 0, name => .error (.dependencyCycle [name])
  | depth + 1, name =>
    graph.outcomeFrom environment (graph.outcomeWithin environment depth) name

/-- The outcome of a node by recursion over its sources.  Without a cycle no
chain of sources is as long as there are nodes. -/
def outcome (graph : Graph) (environment : Environment) (name : String) :
    Except Fault Output :=
  graph.outcomeWithin environment graph.nodes.size name

/-- The outcome of a node is a fault. -/
def Fails (graph : Graph) (environment : Environment) (name : String) : Prop :=
  name ∈ graph.nodes.keys ∧
    ∃ fault, graph.outcome environment name = .error fault

/-- A node fails, and every other node that fails comes later. -/
def FirstFailure (graph : Graph) (environment : Environment)
    (name : String) : Prop :=
  graph.Fails environment name ∧
    ∀ other, graph.Fails environment other →
      other = name ∨ ComesBefore graph.nodes name other

/-- A node comes before all nodes that fail. -/
def Completed (graph : Graph) (environment : Environment)
    (name : String) : Prop :=
  name ∈ graph.nodes.keys ∧
    ∀ other, graph.Fails environment other →
      ComesBefore graph.nodes name other

variable {graph : Graph} {environment : Environment}

/-- The outcome of a node depends on the outcomes of its sources alone. -/
theorem outcomeFrom_congr
    {first second : String → Except Fault Output} {name : String}
    (same : ∀ source, DependsOn graph.nodes name source →
      first source = second source) :
    graph.outcomeFrom environment first name =
      graph.outcomeFrom environment second name := by
  cases found : graph.nodes.get? name with
  | none =>
      simp [outcomeFrom, found]
  | some node =>
      have sameBound : ∀ sources : List (String × String),
          (∀ source ∈ sources.map Prod.snd, first source = second source) →
          gatherOutcomes first sources = gatherOutcomes second sources := by
        intro sources agree
        induction sources with
        | nil =>
            rfl
        | cons entry rest inductionHypothesis =>
            simp only [List.map_cons, List.mem_cons, forall_eq_or_imp] at agree
            have sameRest := inductionHypothesis agree.2
            simp only [gatherOutcomes] at sameRest
            simp only [gatherOutcomes, List.mapM_cons, agree.1, sameRest]
      have agree : ∀ source ∈ node.sources.entries.map Prod.snd,
          first source = second source :=
        fun source member => same source ⟨node, found, member⟩
      simp only [outcomeFrom, found, sameBound node.sources.entries agree]

/-- More depth than the level of a node changes nothing. -/
theorem outcomeWithin_succ (sourcesKnown : SourcesKnown graph.nodes)
    {name : String} {level depth : Nat}
    (isLevel : IsLevel graph.nodes name level) (deep : level < depth) :
    graph.outcomeWithin environment (depth + 1) name =
      graph.outcomeWithin environment depth name := by
  induction depth generalizing name level with
  | zero =>
      omega
  | succ shallower inductionHypothesis =>
      refine outcomeFrom_congr fun source depends => ?_
      obtain ⟨sourceLevel, sourceIsLevel⟩ :=
        isLevel.exists_source_level sourcesKnown depends
      have lower := isLevel.source_lt depends sourceIsLevel
      exact inductionHypothesis sourceIsLevel (by omega)

/-- Outcomes satisfy the equation of the recursion. -/
theorem outcome_eq {levels : List (List String)}
    (sourcesKnown : SourcesKnown graph.nodes)
    (layering : IsLayering graph.nodes levels)
    {name : String} (member : name ∈ graph.nodes.keys) :
    graph.outcome environment name =
      graph.outcomeFrom environment (graph.outcome environment) name := by
  obtain ⟨level, isLevel, shallow⟩ := layering.exists_level_lt_size member
  exact (outcomeWithin_succ sourcesKnown isLevel shallow).symm

/-- The equation of the recursion has one solution. -/
theorem eq_outcome_of_eq {levels : List (List String)}
    (sourcesKnown : SourcesKnown graph.nodes)
    (layering : IsLayering graph.nodes levels)
    {solution : String → Except Fault Output}
    (solves : ∀ name ∈ graph.nodes.keys,
      solution name = graph.outcomeFrom environment solution name)
    {name : String} (member : name ∈ graph.nodes.keys) :
    solution name = graph.outcome environment name := by
  obtain ⟨level, isLevel, -⟩ := layering.exists_level_lt_size member
  induction level using Nat.strongRecOn generalizing name with
  | ind level inductionHypothesis =>
      rw [solves name member, outcome_eq sourcesKnown layering member]
      refine outcomeFrom_congr fun source depends => ?_
      obtain ⟨sourceLevel, sourceIsLevel⟩ :=
        isLevel.exists_source_level sourcesKnown depends
      exact inductionHypothesis sourceLevel
        (isLevel.source_lt depends sourceIsLevel)
        (sourcesKnown name source depends) sourceIsLevel

theorem gatherOutcomes_cons
    {sourceOutcome : String → Except Fault Output}
    {inlet source : String} {rest : List (String × String)}
    {output : Output} {bound : List (String × Output)}
    (outcome : sourceOutcome source = .ok output)
    (gathered : gatherOutcomes sourceOutcome rest = .ok bound) :
    gatherOutcomes sourceOutcome ((inlet, source) :: rest) =
      .ok ((inlet, output) :: bound) := by
  rw [gatherOutcomes] at gathered ⊢
  simp only [List.mapM_cons, gathered, outcome]
  rfl

theorem exists_gatherOutcomes_eq_ok {sourceOutcome : String → Except Fault Output} :
    ∀ {sources : List (String × String)},
      (∀ source ∈ sources.map Prod.snd,
        ∃ output, sourceOutcome source = .ok output) →
      ∃ bound, gatherOutcomes sourceOutcome sources = .ok bound
  | [], _ => ⟨[], rfl⟩
  | (inlet, source) :: rest, succeed => by
      simp only [List.map_cons, List.mem_cons, forall_eq_or_imp] at succeed
      obtain ⟨output, outcome⟩ := succeed.1
      obtain ⟨bound, mapped⟩ := exists_gatherOutcomes_eq_ok succeed.2
      exact ⟨(inlet, output) :: bound, gatherOutcomes_cons outcome mapped⟩

/-! ## Which nodes complete -/

/-- A list with an error is cut at its first error. -/
theorem exists_first_error {outcomeOf : String → Except Fault Output}
    {names : List String}
    (failure : ∃ name ∈ names, ∃ fault, outcomeOf name = .error fault) :
    ∃ front name back fault, names = front ++ name :: back ∧
      (∀ other ∈ front, ∃ output, outcomeOf other = .ok output) ∧
      outcomeOf name = .error fault := by
  induction names with
  | nil =>
      obtain ⟨_, member, _⟩ := failure
      exact False.elim (List.not_mem_nil member)
  | cons name rest inductionHypothesis =>
      cases outcome : outcomeOf name with
      | error fault =>
          exact ⟨[], name, rest, fault, rfl,
            fun _ member => False.elim (List.not_mem_nil member), outcome⟩
      | ok output =>
          obtain ⟨failing, member, failingFault, failingOutcome⟩ := failure
          have inRest : failing ∈ rest := by
            rcases List.mem_cons.mp member with rfl | inRest
            · rw [outcome] at failingOutcome
              cases failingOutcome
            · exact inRest
          obtain ⟨front, first, back, fault, split, succeed, raised⟩ :=
            inductionHypothesis ⟨failing, inRest, failingFault, failingOutcome⟩
          refine ⟨name :: front, first, back, fault,
            by rw [split, List.cons_append], ?_, raised⟩
          intro other otherMember
          rcases List.mem_cons.mp otherMember with rfl | inFront
          · exact ⟨output, outcome⟩
          · exact succeed other inFront

/-- A list of all nodes in order, cut at the first that fails. -/
theorem completed_iff_mem_front {front back : List String} {name : String}
    (ordered : (front ++ name :: back).Pairwise (ComesBefore graph.nodes))
    (members : ∀ other, other ∈ front ++ name :: back ↔ other ∈ graph.nodes.keys)
    (succeeds : ∀ other ∈ front,
      ∃ output, graph.outcome environment other = .ok output)
    (fails : graph.Fails environment name) :
    graph.FirstFailure environment name ∧
      ∀ other, other ∈ front ↔ graph.Completed environment other := by
  obtain ⟨_, tailOrdered, across⟩ := List.pairwise_append.mp ordered
  have laterFails : ∀ other, graph.Fails environment other →
      other ∈ name :: back := by
    rintro other ⟨member, fault, outcome⟩
    rcases List.mem_append.mp ((members other).mpr member) with inFront | later
    · obtain ⟨output, ok⟩ := succeeds other inFront
      rw [outcome] at ok
      cases ok
    · exact later
  refine ⟨⟨fails, ?_⟩, ?_⟩
  · intro other otherFails
    rcases List.mem_cons.mp (laterFails other otherFails) with same | inBack
    · exact Or.inl same
    · exact Or.inr ((List.pairwise_cons.mp tailOrdered).1 other inBack)
  · intro other
    constructor
    · intro inFront
      refine ⟨(members other).mp (List.mem_append_left _ inFront), ?_⟩
      intro failing failingFails
      exact across other inFront failing (laterFails failing failingFails)
    · rintro ⟨member, earlier⟩
      have before := earlier name fails
      rcases List.mem_append.mp ((members other).mpr member) with inFront | later
      · exact inFront
      · rcases List.mem_cons.mp later with same | inBack
        · rw [same] at before
          exact False.elim (ComesBefore.irrefl name before)
        · have after := (List.pairwise_cons.mp tailOrdered).1 other inBack
          exact False.elim (ComesBefore.irrefl other (before.trans after))

theorem FirstFailure.iff_eq {name other : String}
    (first : graph.FirstFailure environment name) :
    graph.FirstFailure environment other ↔ other = name := by
  constructor
  · intro otherFirst
    rcases otherFirst.2 name first.1 with same | later
    · exact same.symm
    · rcases first.2 other otherFirst.1 with same | earlier
      · exact same
      · exact False.elim (ComesBefore.irrefl name (earlier.trans later))
  · rintro rfl
    exact first

/-- The fault of the first failing node is raised by its operation: its sources
come before it and have outputs. -/
theorem exists_run_of_firstFailure {levels : List (List String)}
    (sourcesKnown : SourcesKnown graph.nodes)
    (layering : IsLayering graph.nodes levels)
    {name : String} {fault : Fault}
    (first : graph.FirstFailure environment name)
    (outcome : graph.outcome environment name = .error fault) :
    ∃ node bound, graph.nodes.get? name = some node ∧
      gatherOutcomes (graph.outcome environment) node.sources.entries =
        .ok bound ∧
      node.operation.run ⟨graph.name ++ "." ++ name, Table.ofList bound⟩
        environment = .error fault := by
  have member := first.1.1
  obtain ⟨node, found⟩ := Table.mem_keys_iff_exists.mp member
  obtain ⟨level, isLevel, _⟩ := layering.exists_level_lt_size member
  have sourceOutputs : ∀ source ∈ node.sources.entries.map Prod.snd,
      ∃ output, graph.outcome environment source = .ok output := by
    intro source sourceMember
    have depends : DependsOn graph.nodes name source :=
      ⟨node, found, sourceMember⟩
    cases sourceOutcome : graph.outcome environment source with
    | ok output =>
        exact ⟨output, rfl⟩
    | error sourceFault =>
        have before := ComesBefore.of_dependsOn isLevel sourcesKnown depends
        rcases first.2 source
            ⟨sourcesKnown name source depends, sourceFault, sourceOutcome⟩ with
          same | after
        · rw [same] at before
          exact False.elim (ComesBefore.irrefl name before)
        · exact False.elim (ComesBefore.irrefl name (after.trans before))
  obtain ⟨bound, mapped⟩ := exists_gatherOutcomes_eq_ok sourceOutputs
  refine ⟨node, bound, found, mapped, ?_⟩
  rw [outcome_eq sourcesKnown layering member, outcomeFrom, found] at outcome
  simp only [mapped] at outcome
  exact outcome

end InSitu.Graph
