import InSitu.Graph.Basic
import InSitu.Proofs.Table
import Mathlib.Data.Fintype.Pigeonhole
import Mathlib.Logic.Relation

/-!
# Dependencies between the nodes of a graph

A node depends on the sources of its inlets.  Its level is the number of edges
of the longest chain of dependencies that ends at it; it has one exactly if no
chain from it runs into a cycle.

Nothing here mentions how layers are computed.
-/

namespace InSitu.Graph

open Relation

variable {nodes : Table GraphNode}

/-- `DependsOn nodes name source` means that some inlet of the node `name` is
fed by `source`. -/
def DependsOn (nodes : Table GraphNode) (name source : String) : Prop :=
  ∃ node, nodes.get? name = some node ∧ source ∈ node.sources.values

/-- Every source is a node. -/
def SourcesKnown (nodes : Table GraphNode) : Prop :=
  ∀ name source, DependsOn nodes name source → source ∈ nodes.keys

/-- `Chain nodes length name` means that a chain of dependencies with `length`
edges ends at the node `name`. -/
inductive Chain (nodes : Table GraphNode) : Nat → String → Prop
  | start {name : String} :
      name ∈ nodes.keys → Chain nodes 0 name
  | next {length : Nat} {name source : String} :
      Chain nodes length source →
      DependsOn nodes name source →
      Chain nodes (length + 1) name

/-- The longest chain that ends at a node has `level` edges. -/
def IsLevel (nodes : Table GraphNode) (name : String) (level : Nat) : Prop :=
  Chain nodes level name ∧
    ∀ length, Chain nodes length name → length ≤ level

/-- A node depends on itself, directly or through other nodes. -/
def OnCycle (nodes : Table GraphNode) (name : String) : Prop :=
  TransGen (DependsOn nodes) name name

/-- A node lies on a cycle or depends, directly or through other nodes, on one
that does. -/
def LeadsToCycle (nodes : Table GraphNode) (name : String) : Prop :=
  ∃ other, ReflTransGen (DependsOn nodes) name other ∧ OnCycle nodes other

/-- The order of levels, and of names within a level. -/
def ComesBefore (nodes : Table GraphNode) (first second : String) : Prop :=
  ∃ firstLevel secondLevel,
    IsLevel nodes first firstLevel ∧
      IsLevel nodes second secondLevel ∧
        (firstLevel < secondLevel ∨
          firstLevel = secondLevel ∧ first < second)

theorem DependsOn.mem_keys {name source : String}
    (depends : DependsOn nodes name source) : name ∈ nodes.keys := by
  obtain ⟨node, found, _⟩ := depends
  exact Table.mem_keys_iff_exists.mpr ⟨node, found⟩

theorem Chain.mem_keys {length : Nat} {name : String}
    (chain : Chain nodes length name) : name ∈ nodes.keys := by
  cases chain with
  | start member =>
      exact member
  | next _ depends =>
      exact depends.mem_keys

/-- A chain without its first node. -/
theorem Chain.tail {length : Nat} {name : String}
    (chain : Chain nodes (length + 1) name) : Chain nodes length name := by
  induction length generalizing name with
  | zero =>
      exact Chain.start chain.mem_keys
  | succ shorter inductionHypothesis =>
      cases chain with
      | next sourceChain depends =>
          exact Chain.next (inductionHypothesis sourceChain) depends

theorem Chain.of_le {shorter longer : Nat} {name : String}
    (chain : Chain nodes longer name) (bound : shorter ≤ longer) :
    Chain nodes shorter name := by
  induction bound with
  | refl =>
      exact chain
  | step _ inductionHypothesis =>
      exact inductionHypothesis chain.tail

/-- A level is the last length for which there is a chain. -/
theorem isLevel_iff {name : String} {level : Nat} :
    IsLevel nodes name level ↔
      Chain nodes level name ∧ ¬ Chain nodes (level + 1) name := by
  constructor
  · rintro ⟨chain, longest⟩
    refine ⟨chain, fun longer => ?_⟩
    have bound := longest (level + 1) longer
    omega
  · rintro ⟨chain, noLonger⟩
    refine ⟨chain, fun length other => ?_⟩
    by_contra beyond
    exact noLonger (other.of_le (by omega))

theorem IsLevel.unique {name : String} {first second : Nat}
    (firstLevel : IsLevel nodes name first)
    (secondLevel : IsLevel nodes name second) : first = second :=
  Nat.le_antisymm
    (secondLevel.2 first firstLevel.1) (firstLevel.2 second secondLevel.1)

/-- The sources of a node stand on lower levels. -/
theorem IsLevel.source_lt {name source : String} {level sourceLevel : Nat}
    (nameLevel : IsLevel nodes name level)
    (depends : DependsOn nodes name source)
    (known : IsLevel nodes source sourceLevel) : sourceLevel < level :=
  nameLevel.2 (sourceLevel + 1) (Chain.next known.1 depends)

/-- A node without arbitrarily long chains has a level. -/
theorem exists_level {name : String} (member : name ∈ nodes.keys)
    {bound : Nat} (noLongChain : ¬ Chain nodes bound name) :
    ∃ level, IsLevel nodes name level := by
  induction bound with
  | zero =>
      exact False.elim (noLongChain (Chain.start member))
  | succ shorter inductionHypothesis =>
      by_cases chain : Chain nodes shorter name
      · exact ⟨shorter, isLevel_iff.mpr ⟨chain, noLongChain⟩⟩
      · exact inductionHypothesis chain

/-- A source of a node with a level has a level. -/
theorem IsLevel.exists_source_level {name source : String} {level : Nat}
    (nameLevel : IsLevel nodes name level)
    (sourcesKnown : SourcesKnown nodes)
    (depends : DependsOn nodes name source) :
    ∃ sourceLevel, IsLevel nodes source sourceLevel := by
  have noLongChain : ¬ Chain nodes level source := by
    intro chain
    exact (isLevel_iff.mp nameLevel).2 (Chain.next chain depends)
  exact exists_level (sourcesKnown name source depends) noLongChain

theorem ComesBefore.irrefl (name : String) :
    ¬ ComesBefore nodes name name := by
  rintro ⟨first, second, firstLevel, secondLevel, lower | ⟨_, smaller⟩⟩
  · have same := firstLevel.unique secondLevel
    omega
  · exact String.lt_irrefl name smaller

theorem ComesBefore.trans {first second third : String}
    (lower : ComesBefore nodes first second)
    (upper : ComesBefore nodes second third) :
    ComesBefore nodes first third := by
  obtain ⟨bottom, middle, bottomLevel, middleLevel, lowerOrder⟩ := lower
  obtain ⟨between, top, betweenLevel, topLevel, upperOrder⟩ := upper
  have same : middle = between := middleLevel.unique betweenLevel
  subst between
  refine ⟨bottom, top, bottomLevel, topLevel, ?_⟩
  rcases lowerOrder with below | ⟨sameLower, nameLower⟩
  · rcases upperOrder with above | ⟨sameUpper, _⟩
    · exact Or.inl (below.trans above)
    · exact Or.inl (sameUpper ▸ below)
  · rcases upperOrder with above | ⟨sameUpper, nameUpper⟩
    · exact Or.inl (sameLower ▸ above)
    · exact Or.inr ⟨sameLower.trans sameUpper,
        String.lt_trans nameLower nameUpper⟩

/-- A source comes before the node that it feeds. -/
theorem ComesBefore.of_dependsOn {name source : String} {level : Nat}
    (nameLevel : IsLevel nodes name level)
    (sourcesKnown : SourcesKnown nodes)
    (depends : DependsOn nodes name source) :
    ComesBefore nodes source name := by
  obtain ⟨sourceLevel, known⟩ :=
    nameLevel.exists_source_level sourcesKnown depends
  exact ⟨sourceLevel, level, known, nameLevel,
    Or.inl (nameLevel.source_lt depends known)⟩

/-! ## Cycles -/

theorem OnCycle.leadsToCycle {name : String}
    (cycle : OnCycle nodes name) : LeadsToCycle nodes name :=
  ⟨name, ReflTransGen.refl, cycle⟩

/-- A node that leads to a cycle has a source that does. -/
theorem LeadsToCycle.exists_source {name : String}
    (leads : LeadsToCycle nodes name) :
    ∃ source, DependsOn nodes name source ∧ LeadsToCycle nodes source := by
  obtain ⟨other, path, cycle⟩ := leads
  rcases ReflTransGen.cases_head path with rfl | ⟨source, depends, rest⟩
  · obtain ⟨source, depends, back⟩ := TransGen.head'_iff.mp cycle
    exact ⟨source, depends, name, back, cycle⟩
  · exact ⟨source, depends, other, rest, cycle⟩

/-- A cycle can be walked around, so it leads to chains of any length. -/
theorem LeadsToCycle.chain {name : String}
    (leads : LeadsToCycle nodes name) (length : Nat) :
    Chain nodes length name := by
  induction length generalizing name with
  | zero =>
      obtain ⟨source, depends, _⟩ := leads.exists_source
      exact Chain.start depends.mem_keys
  | succ shorter inductionHypothesis =>
      obtain ⟨source, depends, sourceLeads⟩ := leads.exists_source
      exact Chain.next (inductionHypothesis sourceLeads) depends

/-- Going on from source to source within finitely many names comes back to a
name that was passed before. -/
theorem leadsToCycle_of_closed {names : List String}
    (closed : ∀ name ∈ names, ∃ source ∈ names, DependsOn nodes name source)
    {name : String} (member : name ∈ names) : LeadsToCycle nodes name := by
  choose! source sourceMember depends using closed
  have stepMember : ∀ steps, source^[steps] name ∈ names := by
    intro steps
    induction steps with
    | zero =>
        exact member
    | succ earlier inductionHypothesis =>
        rw [Function.iterate_succ_apply']
        exact sourceMember _ inductionHypothesis
  have stepDepends : ∀ steps,
      DependsOn nodes (source^[steps] name) (source^[steps + 1] name) := by
    intro steps
    rw [Function.iterate_succ_apply']
    exact depends _ (stepMember steps)
  have path : ∀ first more, ReflTransGen (DependsOn nodes)
      (source^[first] name) (source^[first + more] name) := by
    intro first more
    induction more with
    | zero =>
        exact ReflTransGen.refl
    | succ earlier inductionHypothesis =>
        exact inductionHypothesis.tail (stepDepends (first + earlier))
  let walk : Nat → { passed // passed ∈ names } :=
    fun steps => ⟨source^[steps] name, stepMember steps⟩
  obtain ⟨first, second, different, same⟩ :=
    Finite.exists_ne_map_eq_of_infinite walk
  have returns : source^[first] name = source^[second] name :=
    congrArg Subtype.val same
  rcases Nat.lt_or_gt_of_ne different with earlier | later
  · refine ⟨source^[first] name, by simpa using path 0 first, ?_⟩
    have around := TransGen.head' (stepDepends first)
      (path (first + 1) (second - (first + 1)))
    rw [Nat.add_sub_cancel' earlier, ← returns] at around
    exact around
  · refine ⟨source^[second] name, by simpa using path 0 second, ?_⟩
    have around := TransGen.head' (stepDepends second)
      (path (second + 1) (first - (second + 1)))
    rw [Nat.add_sub_cancel' later, returns] at around
    exact around

end InSitu.Graph
