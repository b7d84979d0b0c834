import InSitu.Proofs.Graph.Dependency
import Mathlib

/-!
# The layers are the levels

Each round takes away the nodes that wait for nothing.  The invariant of the
rounds is that after `round` of them exactly the nodes with a chain of `round`
edges are left, and that each of these waits for as many edges as come from
nodes that are left.  So a node gets its layer in the round of its level, and a
node that never gets one leads to a cycle.
-/

namespace InSitu

theorem sortNames_perm (names : List String) :
    (sortNames names).Perm names :=
  List.mergeSort_perm names _

/-- Distinct names in order rise strictly. -/
theorem sortNames_pairwise_lt {names : List String}
    (distinct : names.Nodup) : (sortNames names).Pairwise (· < ·) := by
  have sorted : (sortNames names).Pairwise
      fun first second => (!decide (second < first)) = true := by
    apply List.pairwise_mergeSort
    · intro first second third lower upper
      simp only [Bool.not_eq_true', decide_eq_false_iff_not,
        String.not_lt] at lower upper ⊢
      exact String.le_trans lower upper
    · intro first second
      rcases String.le_total first second with lower | upper
      · simp [String.not_lt.mpr lower]
      · simp [String.not_lt.mpr upper]
  have sortedDistinct : (sortNames names).Nodup :=
    (sortNames_perm names).nodup_iff.mpr distinct
  refine (sorted.and sortedDistinct).imp ?_
  rintro first second ⟨notAbove, different⟩
  simp only [Bool.not_eq_true', decide_eq_false_iff_not] at notAbove
  by_contra notBelow
  exact different <|
    String.le_antisymm (String.not_lt.mp notAbove) (String.not_lt.mp notBelow)

theorem mem_namesOf_iff {pending : List Pending} {name : String} :
    name ∈ namesOf pending ↔ name ∈ pending.map Pending.name :=
  (sortNames_perm _).mem_iff

theorem namesOf_eq_nil_iff {pending : List Pending} :
    namesOf pending = [] ↔ pending = [] := by
  rw [namesOf, ← List.map_eq_nil_iff (f := Pending.name)]
  constructor
  · intro empty
    have permuted := sortNames_perm (pending.map Pending.name)
    rw [empty] at permuted
    exact List.nil_perm.mp permuted
  · intro empty
    rw [empty]
    exact List.mergeSort_nil

/-- What a round leaves: the blocked nodes, with the edges from the layer of
the round taken off. -/
def nextRound (pending : List Pending) : List Pending :=
  (blockedNodes pending).map (Pending.settle (namesOf (readyNodes pending)))

theorem blockedNodes_eq_self {pending : List Pending}
    (stuck : readyNodes pending = []) : blockedNodes pending = pending := by
  apply List.filter_eq_self.mpr
  intro node member
  have notReady := List.filter_eq_nil_iff.mp stuck node member
  simpa using notReady

/-- What is computed when every node gets a layer: the rounds run until nothing
is left, and each has taken a layer that is not empty. -/
theorem layersOf?_eq_ok {pending : List Pending} {levels : List (List String)}
    (finished : layersOf? pending = .ok levels) :
    nextRound^[levels.length] pending = [] ∧
      ∀ index level, levels[index]? = some level →
        level = namesOf (readyNodes (nextRound^[index] pending)) ∧
          level ≠ [] := by
  fun_induction layersOf? pending generalizing levels with
  | case1 =>
      cases finished
      exact ⟨rfl, by simp⟩
  | case2 pending notDone stuck =>
      cases finished
  | case3 pending notDone notStuck layer rest later =>
      rename_i inductionHypothesis
      cases finished
      obtain ⟨nothingLeft, restLayers⟩ := inductionHypothesis later
      refine ⟨nothingLeft, ?_⟩
      intro index level found
      cases index with
      | zero =>
          cases found
          exact ⟨rfl, fun empty => notStuck (namesOf_eq_nil_iff.mp empty)⟩
      | succ earlier =>
          exact restLayers earlier level found
  | case4 pending notDone notStuck layer names later =>
      cases finished

/-- What is computed when some node never gets a layer: a round is reached that
has nodes left of which none is ready, and their names are the answer. -/
theorem layersOf?_eq_error {pending : List Pending} {names : List String}
    (failed : layersOf? pending = .error names) :
    ∃ round, nextRound^[round] pending ≠ [] ∧
      readyNodes (nextRound^[round] pending) = [] ∧
        names = namesOf (nextRound^[round] pending) := by
  fun_induction layersOf? pending generalizing names with
  | case1 =>
      cases failed
  | case2 pending notDone stuck =>
      cases failed
      exact ⟨0, notDone, stuck, by rw [blockedNodes_eq_self stuck]; rfl⟩
  | case3 pending notDone notStuck layer rest later =>
      cases failed
  | case4 pending notDone notStuck layer others later =>
      rename_i inductionHypothesis
      cases failed
      obtain ⟨round, left, stuck, listed⟩ := inductionHypothesis later
      exact ⟨round + 1, left, stuck, listed⟩

end InSitu

namespace InSitu.Graph

variable {nodes : Table GraphNode}

/-- The nodes that have no layer after a number of rounds. -/
def unlayered (nodes : Table GraphNode) (round : Nat) : List Pending :=
  nextRound^[round] <|
    nodes.entries.map fun (name, node) => .start name node.sources.values

/-- The layer that a round takes. -/
def layerAt (nodes : Table GraphNode) (round : Nat) : List String :=
  namesOf (readyNodes (unlayered nodes round))

theorem unlayered_succ (nodes : Table GraphNode) (round : Nat) :
    unlayered nodes (round + 1) = nextRound (unlayered nodes round) :=
  Function.iterate_succ_apply' _ _ _

/-! ## The invariant of the rounds -/

/-- What the pending nodes are after a number of rounds: those with a chain of
that many edges, each waiting for the edges that come from one of them. -/
structure Awaits (nodes : Table GraphNode) (round : Nat)
    (pending : List Pending) : Prop where
  distinct : (pending.map Pending.name).Nodup
  mem_iff : ∀ name,
    name ∈ pending.map Pending.name ↔ Chain nodes round name
  mem_sources_iff : ∀ node ∈ pending, ∀ source,
    source ∈ node.sources ↔ DependsOn nodes node.name source
  waiting_eq : ∀ node ∈ pending,
    node.waiting =
      node.sources.countP fun source => source ∈ pending.map Pending.name

/-- Splitting what is counted splits the count. -/
private theorem countP_split {α : Type} {whole first second : α → Bool}
    (splits : ∀ item, whole item = (first item || second item))
    (disjoint : ∀ item, first item = true → second item = false)
    (items : List α) :
    items.countP whole = items.countP first + items.countP second := by
  induction items with
  | nil =>
      rfl
  | cons item rest inductionHypothesis =>
      simp only [List.countP_cons, inductionHypothesis, splits item]
      cases inFirst : first item with
      | false =>
          simp [Nat.add_assoc]
      | true =>
          simp [disjoint item inFirst]
          omega

theorem Awaits.start (sourcesKnown : SourcesKnown nodes) :
    Awaits nodes 0 (unlayered nodes 0) := by
  have names : (unlayered nodes 0).map Pending.name = nodes.keys := by
    simp [unlayered, Table.keys, Entries.keys, Pending.start]
  have mem_sources_iff : ∀ node ∈ unlayered nodes 0, ∀ source,
      source ∈ node.sources ↔ DependsOn nodes node.name source := by
    intro node member source
    obtain ⟨⟨name, graphNode⟩, entry, rfl⟩ := List.mem_map.mp member
    have found : nodes.get? name = some graphNode :=
      Table.get?_eq_some_iff.mpr entry
    simp [Pending.start, DependsOn, found]
  refine ⟨names ▸ nodes.distinct, ?_, mem_sources_iff, ?_⟩
  · intro name
    rw [names]
    exact ⟨Chain.start, Chain.mem_keys⟩
  · intro node member
    have allKnown : ∀ source ∈ node.sources,
        source ∈ (unlayered nodes 0).map Pending.name := by
      intro source sourceMember
      rw [names]
      exact sourcesKnown node.name source
        ((mem_sources_iff node member source).mp sourceMember)
    have allCounted := List.countP_eq_length
      (p := fun source => decide (source ∈ (unlayered nodes 0).map Pending.name))
      (l := node.sources) |>.mpr fun source sourceMember =>
        decide_eq_true (allKnown source sourceMember)
    obtain ⟨entry, _, rfl⟩ := List.mem_map.mp member
    exact allCounted.symm

/-- A pending node is in the layer of the round or among the blocked nodes, and
never in both. -/
theorem Awaits.mem_layer_iff {round : Nat} {pending : List Pending}
    (awaits : Awaits nodes round pending) (name : String) :
    name ∈ namesOf (readyNodes pending) ↔
      name ∈ pending.map Pending.name ∧
        name ∉ (blockedNodes pending).map Pending.name := by
  rw [mem_namesOf_iff]
  constructor
  · rintro member
    obtain ⟨node, readyMember, rfl⟩ := List.mem_map.mp member
    obtain ⟨pendingMember, ready⟩ := List.mem_filter.mp readyMember
    refine ⟨List.mem_map_of_mem pendingMember, fun blockedMember => ?_⟩
    obtain ⟨other, otherBlocked, sameName⟩ := List.mem_map.mp blockedMember
    obtain ⟨otherMember, notReady⟩ := List.mem_filter.mp otherBlocked
    have same : other = node :=
      List.inj_on_of_nodup_map awaits.distinct otherMember pendingMember sameName
    simp [same, ready] at notReady
  · rintro ⟨member, notBlocked⟩
    obtain ⟨node, pendingMember, rfl⟩ := List.mem_map.mp member
    refine List.mem_map_of_mem (List.mem_filter.mpr ⟨pendingMember, ?_⟩)
    by_contra notReady
    exact notBlocked <| List.mem_map_of_mem <|
      List.mem_filter.mpr ⟨pendingMember, by simpa using notReady⟩

/-- The edges for which a node waits are those from the layer of the round and
those from the nodes that stay blocked. -/
theorem Awaits.waiting_eq_add {round : Nat} {pending : List Pending}
    (awaits : Awaits nodes round pending)
    {node : Pending} (member : node ∈ pending) :
    node.waiting =
      node.edgesFrom (namesOf (readyNodes pending)) +
        node.sources.countP fun source =>
          source ∈ (blockedNodes pending).map Pending.name := by
  rw [awaits.waiting_eq node member, Pending.edgesFrom]
  apply countP_split
  · intro source
    have layered := awaits.mem_layer_iff source
    have blockedPending : source ∈ (blockedNodes pending).map Pending.name →
        source ∈ pending.map Pending.name :=
      fun blocked => (List.filter_sublist.map Pending.name).subset blocked
    simp only [List.contains_eq_mem]
    grind
  · intro source layered
    simp only [List.contains_eq_mem, decide_eq_true_eq] at layered
    exact decide_eq_false ((awaits.mem_layer_iff source).mp layered).2

theorem Awaits.isReady_eq_false_iff {round : Nat} {pending : List Pending}
    (awaits : Awaits nodes round pending)
    {node : Pending} (member : node ∈ pending) :
    node.isReady = false ↔ Chain nodes (round + 1) node.name := by
  have waits : node.isReady = false ↔ 0 < node.waiting := by
    simp [Pending.isReady, Nat.pos_iff_ne_zero]
  rw [waits, awaits.waiting_eq node member, List.countP_pos_iff]
  constructor
  · rintro ⟨source, sourceMember, pendingSource⟩
    have chain := (awaits.mem_iff source).mp (of_decide_eq_true pendingSource)
    exact Chain.next chain
      ((awaits.mem_sources_iff node member source).mp sourceMember)
  · intro chain
    cases chain with
    | @next _ _ source sourceChain depends =>
        exact ⟨source, (awaits.mem_sources_iff node member source).mpr depends,
          decide_eq_true ((awaits.mem_iff source).mpr sourceChain)⟩

theorem names_nextRound (pending : List Pending) :
    (nextRound pending).map Pending.name =
      (blockedNodes pending).map Pending.name := by
  simp [nextRound, Pending.settle]

/-- A round keeps the invariant. -/
theorem Awaits.next {round : Nat} {pending : List Pending}
    (awaits : Awaits nodes round pending) :
    Awaits nodes (round + 1) (nextRound pending) := by
  refine ⟨?_, ?_, ?_, ?_⟩
  · rw [names_nextRound]
    exact (List.filter_sublist.map Pending.name).nodup awaits.distinct
  · intro name
    rw [names_nextRound]
    constructor
    · intro member
      obtain ⟨node, blocked, rfl⟩ := List.mem_map.mp member
      obtain ⟨pendingMember, notReady⟩ := List.mem_filter.mp blocked
      exact (awaits.isReady_eq_false_iff pendingMember).mp (by simpa using notReady)
    · intro chain
      obtain ⟨node, pendingMember, rfl⟩ :=
        List.mem_map.mp ((awaits.mem_iff name).mpr chain.tail)
      have notReady := (awaits.isReady_eq_false_iff pendingMember).mpr chain
      exact List.mem_map_of_mem <|
        List.mem_filter.mpr ⟨pendingMember, by simp [notReady]⟩
  · intro node member source
    obtain ⟨before, blocked, rfl⟩ := List.mem_map.mp member
    exact awaits.mem_sources_iff before (List.mem_filter.mp blocked).1 source
  · intro node member
    obtain ⟨before, blocked, rfl⟩ := List.mem_map.mp member
    have counted := awaits.waiting_eq_add (List.mem_filter.mp blocked).1
    rw [names_nextRound]
    simp only [Pending.settle]
    omega

theorem awaits_unlayered (sourcesKnown : SourcesKnown nodes) (round : Nat) :
    Awaits nodes round (unlayered nodes round) := by
  induction round with
  | zero =>
      exact Awaits.start sourcesKnown
  | succ earlier inductionHypothesis =>
      rw [unlayered_succ]
      exact inductionHypothesis.next

/-! ## Layers and levels -/

/-- The layer that a round takes is the level of that number. -/
theorem mem_layerAt_iff (sourcesKnown : SourcesKnown nodes)
    {round : Nat} {name : String} :
    name ∈ layerAt nodes round ↔ IsLevel nodes name round := by
  have awaits := awaits_unlayered sourcesKnown round
  have later := awaits.next.mem_iff name
  rw [names_nextRound] at later
  rw [layerAt, awaits.mem_layer_iff, awaits.mem_iff, later, isLevel_iff]

theorem layerAt_pairwise_lt (sourcesKnown : SourcesKnown nodes) (round : Nat) :
    (layerAt nodes round).Pairwise (· < ·) := by
  apply sortNames_pairwise_lt
  exact (List.filter_sublist.map Pending.name).nodup
    (awaits_unlayered sourcesKnown round).distinct

theorem not_chain_of_unlayered_eq_nil (sourcesKnown : SourcesKnown nodes)
    {round : Nat} (nothingLeft : unlayered nodes round = []) (name : String) :
    ¬ Chain nodes round name := by
  intro chain
  have member :=
    ((awaits_unlayered sourcesKnown round).mem_iff name).mpr chain
  rw [nothingLeft] at member
  exact List.not_mem_nil member

/-- The layers of nodes: a list of the levels in order. -/
structure IsLayering (nodes : Table GraphNode)
    (levels : List (List String)) : Prop where
  perm_keys : levels.flatten.Perm nodes.keys
  ne_nil : ∀ level ∈ levels, level ≠ []
  pairwise_lt : ∀ level ∈ levels, level.Pairwise (· < ·)
  mem_iff : ∀ index name,
    (∃ level, levels[index]? = some level ∧ name ∈ level) ↔
      IsLevel nodes name index
  source_earlier : ∀ (index : Nat) (level : List String),
    levels[index]? = some level →
    ∀ name ∈ level, ∀ source, DependsOn nodes name source →
      ∃ earlier sourceLevel, earlier < index ∧
        levels[earlier]? = some sourceLevel ∧ source ∈ sourceLevel

/-- A list of levels in order lists the nodes by level and name. -/
theorem flatten_pairwise_comesBefore {levels : List (List String)}
    (sorted : ∀ level ∈ levels, level.Pairwise (· < ·))
    (mem_iff : ∀ index name,
      (∃ level, levels[index]? = some level ∧ name ∈ level) ↔
        IsLevel nodes name index) :
    levels.flatten.Pairwise (ComesBefore nodes) := by
  have levelOf : ∀ (index : Nat) (bound : index < levels.length),
      ∀ name ∈ levels[index], IsLevel nodes name index := by
    intro index bound name member
    exact (mem_iff index name).mp
      ⟨levels[index], List.getElem?_eq_getElem bound, member⟩
  rw [List.pairwise_flatten]
  constructor
  · intro level levelMember
    obtain ⟨index, bound, rfl⟩ := List.getElem_of_mem levelMember
    refine (List.Pairwise.imp_of_mem ?_) (sorted _ levelMember)
    intro first second firstMember secondMember smaller
    exact ⟨index, index, levelOf index bound first firstMember,
      levelOf index bound second secondMember, Or.inr ⟨rfl, smaller⟩⟩
  · rw [List.pairwise_iff_getElem]
    intro lower upper lowerBound upperBound below first firstMember
      second secondMember
    exact ⟨lower, upper, levelOf lower lowerBound first firstMember,
      levelOf upper upperBound second secondMember, Or.inl below⟩

theorem nodup_of_pairwise_comesBefore {names : List String}
    (ordered : names.Pairwise (ComesBefore nodes)) : names.Nodup := by
  refine ordered.imp ?_
  rintro first second before rfl
  exact ComesBefore.irrefl first before

theorem mem_flatten_iff {levels : List (List String)}
    (mem_iff : ∀ index name,
      (∃ level, levels[index]? = some level ∧ name ∈ level) ↔
        IsLevel nodes name index)
    {name : String} :
    name ∈ levels.flatten ↔ ∃ index, IsLevel nodes name index := by
  constructor
  · intro member
    obtain ⟨level, levelMember, nameMember⟩ := List.mem_flatten.mp member
    obtain ⟨index, found⟩ := List.getElem?_of_mem levelMember
    exact ⟨index, (mem_iff index name).mp ⟨level, found, nameMember⟩⟩
  · rintro ⟨index, isLevel⟩
    obtain ⟨level, found, nameMember⟩ := (mem_iff index name).mpr isLevel
    exact List.mem_flatten.mpr ⟨level, List.mem_of_getElem? found, nameMember⟩

theorem IsLayering.of_levels (sourcesKnown : SourcesKnown nodes)
    {levels : List (List String)}
    (nothingLeft : unlayered nodes levels.length = [])
    (taken : ∀ index level, levels[index]? = some level →
      level = layerAt nodes index ∧ level ≠ []) :
    IsLayering nodes levels := by
  have sorted : ∀ level ∈ levels, level.Pairwise (· < ·) := by
    intro level member
    obtain ⟨index, found⟩ := List.getElem?_of_mem member
    rw [(taken index level found).1]
    exact layerAt_pairwise_lt sourcesKnown index
  have mem_iff : ∀ index name,
      (∃ level, levels[index]? = some level ∧ name ∈ level) ↔
        IsLevel nodes name index := by
    intro index name
    constructor
    · rintro ⟨level, found, member⟩
      rw [(taken index level found).1] at member
      exact (mem_layerAt_iff sourcesKnown).mp member
    · intro isLevel
      have inside : index < levels.length := by
        by_contra beyond
        exact not_chain_of_unlayered_eq_nil sourcesKnown nothingLeft name
          (isLevel.1.of_le (Nat.le_of_not_lt beyond))
      have found := List.getElem?_eq_getElem inside
      refine ⟨levels[index], found, ?_⟩
      rw [(taken index _ found).1]
      exact (mem_layerAt_iff sourcesKnown).mpr isLevel
  refine ⟨?_, ?_, sorted, mem_iff, ?_⟩
  · have distinct : levels.flatten.Nodup :=
      nodup_of_pairwise_comesBefore (flatten_pairwise_comesBefore sorted mem_iff)
    apply (List.perm_ext_iff_of_nodup distinct nodes.distinct).mpr
    intro name
    rw [mem_flatten_iff mem_iff]
    constructor
    · rintro ⟨index, isLevel⟩
      exact isLevel.1.mem_keys
    · intro member
      exact exists_level member
        (not_chain_of_unlayered_eq_nil sourcesKnown nothingLeft name)
  · intro level member
    obtain ⟨index, found⟩ := List.getElem?_of_mem member
    exact (taken index level found).2
  · intro index level found name member source depends
    have nameLevel := (mem_iff index name).mp ⟨level, found, member⟩
    obtain ⟨earlier, sourceLevel⟩ :=
      nameLevel.exists_source_level sourcesKnown depends
    obtain ⟨lower, lowerFound, sourceMember⟩ :=
      (mem_iff earlier source).mpr sourceLevel
    exact ⟨earlier, lower, nameLevel.source_lt depends sourceLevel,
      lowerFound, sourceMember⟩

/-- Every node has a level, and as no level is empty it is less than the number
of nodes. -/
theorem IsLayering.exists_level_lt_size {levels : List (List String)}
    (layering : IsLayering nodes levels) {name : String}
    (member : name ∈ nodes.keys) :
    ∃ level, IsLevel nodes name level ∧ level < nodes.size := by
  have listed : name ∈ levels.flatten :=
    layering.perm_keys.mem_iff.mpr member
  obtain ⟨level, levelMember, nameMember⟩ := List.mem_flatten.mp listed
  obtain ⟨index, found⟩ := List.getElem?_of_mem levelMember
  obtain ⟨inside, _⟩ := List.getElem?_eq_some_iff.mp found
  have lengths : ∀ layers : List (List String),
      (∀ layer ∈ layers, layer ≠ []) →
        layers.length ≤ layers.flatten.length := by
    intro layers nonempty
    induction layers with
    | nil =>
        simp
    | cons layer rest inductionHypothesis =>
        have layerLength := List.length_pos_iff.mpr
          (nonempty layer (List.mem_cons_self ..))
        have restLength := inductionHypothesis fun other otherMember =>
          nonempty other (List.mem_cons_of_mem layer otherMember)
        simp only [List.length_cons, List.flatten_cons, List.length_append]
        omega
  have size : levels.flatten.length = nodes.size := by
    rw [layering.perm_keys.length_eq, Table.keys, Entries.keys, Table.size,
      List.length_map]
  have bound := lengths levels layering.ne_nil
  exact ⟨index, (layering.mem_iff index name).mp ⟨level, found, nameMember⟩,
    by omega⟩

/-- When no pending node is ready, each of them waits for another of them, so
they are the nodes that lead to a cycle. -/
theorem mem_unlayered_iff_leadsToCycle (sourcesKnown : SourcesKnown nodes)
    {round : Nat} (stuck : readyNodes (unlayered nodes round) = [])
    (name : String) :
    name ∈ (unlayered nodes round).map Pending.name ↔
      LeadsToCycle nodes name := by
  have awaits := awaits_unlayered sourcesKnown round
  constructor
  · apply leadsToCycle_of_closed
    intro waiting member
    obtain ⟨node, pendingMember, rfl⟩ := List.mem_map.mp member
    have notReady : node.isReady = false := by
      simpa using List.filter_eq_nil_iff.mp stuck node pendingMember
    cases (awaits.isReady_eq_false_iff pendingMember).mp notReady with
    | @next _ _ source sourceChain depends =>
        exact ⟨source, (awaits.mem_iff source).mpr sourceChain, depends⟩
  · intro leads
    exact (awaits.mem_iff name).mpr (leads.chain round)

/-- The rounds end, at the latest when there has been one for each node. -/
theorem exists_readyNodes_eq_nil (nodes : Table GraphNode) :
    ∃ round ≤ nodes.size, readyNodes (unlayered nodes round) = [] := by
  by_contra endless
  push Not at endless
  have shrinks : ∀ round ≤ nodes.size + 1,
      (unlayered nodes round).length + round ≤ nodes.size := by
    intro round bound
    induction round with
    | zero =>
        simp [unlayered, Table.size]
    | succ earlier inductionHypothesis =>
        have before := inductionHypothesis (by omega)
        have fewer := length_blockedNodes_lt (endless earlier (by omega))
        rw [unlayered_succ, nextRound, List.length_map]
        omega
  have tooMany := shrinks (nodes.size + 1) (Nat.le_refl _)
  omega

theorem unknownSource?_eq_none_iff :
    unknownSource? nodes = none ↔ SourcesKnown nodes := by
  rw [unknownSource?, List.find?_eq_none]
  constructor
  · rintro none name source ⟨node, found, member⟩
    have known := none source <| List.mem_flatMap.mpr
      ⟨node, Table.mem_values_iff.mpr ⟨name, found⟩, member⟩
    exact Table.contains_iff_mem_keys.mp (by simpa using known)
  · intro sourcesKnown source member
    obtain ⟨node, nodeMember, sourceMember⟩ := List.mem_flatMap.mp member
    obtain ⟨name, found⟩ := Table.mem_values_iff.mp nodeMember
    have known := sourcesKnown name source ⟨node, found, sourceMember⟩
    simpa using Table.contains_iff_mem_keys.mpr known

theorem layers_eq_of_sourcesKnown (sourcesKnown : SourcesKnown nodes) :
    layers nodes =
      (layersOf? (unlayered nodes 0)).mapError Fault.dependencyCycle := by
  rw [layers, unknownSource?_eq_none_iff.mpr sourcesKnown]
  rfl

theorem layers_eq_ok (sourcesKnown : SourcesKnown nodes)
    {levels : List (List String)} (finished : layers nodes = .ok levels) :
    IsLayering nodes levels ∧
      ∀ index level, levels[index]? = some level →
        level = layerAt nodes index := by
  rw [layers_eq_of_sourcesKnown sourcesKnown] at finished
  cases computed : layersOf? (unlayered nodes 0) with
  | error names =>
      rw [computed] at finished
      cases finished
  | ok found =>
      rw [computed] at finished
      cases finished
      obtain ⟨nothingLeft, taken⟩ := layersOf?_eq_ok computed
      exact ⟨IsLayering.of_levels sourcesKnown nothingLeft taken,
        fun index level present => (taken index level present).1⟩

theorem layers_eq_error (sourcesKnown : SourcesKnown nodes)
    {fault : Fault} (failed : layers nodes = .error fault) :
    ∃ names, fault = .dependencyCycle names ∧ names ≠ [] ∧
      names.Pairwise (· < ·) ∧
        ∀ name, name ∈ names ↔ LeadsToCycle nodes name := by
  rw [layers_eq_of_sourcesKnown sourcesKnown] at failed
  cases computed : layersOf? (unlayered nodes 0) with
  | ok levels =>
      rw [computed] at failed
      cases failed
  | error names =>
      rw [computed] at failed
      cases failed
      obtain ⟨round, left, stuck, rfl⟩ := layersOf?_eq_error computed
      change unlayered nodes round ≠ [] at left
      refine ⟨_, rfl, fun empty => left (namesOf_eq_nil_iff.mp empty),
        sortNames_pairwise_lt (awaits_unlayered sourcesKnown round).distinct, ?_⟩
      intro name
      rw [mem_namesOf_iff]
      exact mem_unlayered_iff_leadsToCycle sourcesKnown stuck name

/-- A node with a level is on no cycle. -/
theorem IsLevel.not_onCycle {name : String} {level : Nat}
    (isLevel : IsLevel nodes name level) : ¬ OnCycle nodes name := by
  intro cycle
  have bound := isLevel.2 (level + 1) (cycle.leadsToCycle.chain (level + 1))
  omega

theorem IsLayering.not_onCycle {levels : List (List String)}
    (layering : IsLayering nodes levels) (name : String) :
    ¬ OnCycle nodes name := by
  intro cycle
  have member : name ∈ levels.flatten :=
    layering.perm_keys.mem_iff.mpr (cycle.leadsToCycle.chain 0).mem_keys
  obtain ⟨level, levelMember, nameMember⟩ := List.mem_flatten.mp member
  obtain ⟨index, found⟩ := List.getElem?_of_mem levelMember
  have isLevel := (layering.mem_iff index name).mp ⟨level, found, nameMember⟩
  exact isLevel.not_onCycle cycle

/-- Of nodes whose sources are all known the layers exist exactly when there is
no cycle, and then they are the levels in order.  Otherwise the fault lists, in
order, the nodes that lead to a cycle.  In no round is more taken off than a
node waits for, a node with a layer has no edge from a later one, and some
round finds no node ready. -/
theorem layers_are_levels (sourcesKnown : SourcesKnown nodes) :
    ((∃ levels, layers nodes = .ok levels) ↔ ∀ name, ¬ OnCycle nodes name) ∧
    (∀ levels, layers nodes = .ok levels →
      IsLayering nodes levels ∧
        ∀ index level, levels[index]? = some level →
          level = layerAt nodes index) ∧
    (∀ fault, layers nodes = .error fault →
      ∃ names, fault = .dependencyCycle names ∧ names.Pairwise (· < ·) ∧
        ∀ name, name ∈ names ↔ LeadsToCycle nodes name) ∧
    (∀ round, ∀ node ∈ unlayered nodes round,
      node.edgesFrom (layerAt nodes round) ≤ node.waiting ∧
        node.waiting = node.sources.countP fun source =>
          source ∈ (unlayered nodes round).map Pending.name) ∧
    (∀ round name source, DependsOn nodes name source →
      name ∉ (unlayered nodes round).map Pending.name →
        source ∉ layerAt nodes round) ∧
    ∃ round ≤ nodes.size, readyNodes (unlayered nodes round) = [] := by
  refine ⟨⟨?_, ?_⟩, fun levels => layers_eq_ok sourcesKnown, ?_, ?_, ?_,
    exists_readyNodes_eq_nil nodes⟩
  · rintro ⟨levels, finished⟩
    exact (layers_eq_ok sourcesKnown finished).1.not_onCycle
  · intro noCycle
    cases computed : layers nodes with
    | ok levels =>
        exact ⟨levels, rfl⟩
    | error fault =>
        obtain ⟨names, _, nonempty, _, leads⟩ :=
          layers_eq_error sourcesKnown computed
        obtain ⟨name, member⟩ := List.exists_mem_of_ne_nil names nonempty
        obtain ⟨other, _, cycle⟩ := (leads name).mp member
        exact False.elim (noCycle other cycle)
  · intro fault failed
    obtain ⟨names, listed, _, sorted, leads⟩ :=
      layers_eq_error sourcesKnown failed
    exact ⟨names, listed, sorted, leads⟩
  · intro round node member
    have awaits := awaits_unlayered sourcesKnown round
    have counted := awaits.waiting_eq_add member
    exact ⟨by rw [counted]; exact Nat.le_add_right _ _,
      awaits.waiting_eq node member⟩
  · intro round name source depends layered inLayer
    have awaits := awaits_unlayered sourcesKnown round
    have sourceLevel := (mem_layerAt_iff sourcesKnown).mp inLayer
    exact layered <|
      (awaits.mem_iff name).mpr (Chain.next sourceLevel.1 depends).tail

/-- A number, its double, which reads it at both inlets, and the double of
that. -/
def doublings : Table GraphNode :=
  Table.ofList
    [("four", ⟨.operator (.math .add),
        Table.ofList [("lhs", "two"), ("rhs", "two")]⟩),
      ("one", ⟨.literal .int (.int 1), Table.empty⟩),
      ("two", ⟨.operator (.math .add),
        Table.ofList [("lhs", "one"), ("rhs", "one")]⟩)]

theorem isLayering_doublings :
    SourcesKnown doublings ∧
      layers doublings = .ok [["one"], ["two"], ["four"]] ∧
        IsLayering doublings [["one"], ["two"], ["four"]] := by
  have sourcesKnown : SourcesKnown doublings := by
    rw [← unknownSource?_eq_none_iff]
    decide
  have computed : layers doublings = .ok [["one"], ["two"], ["four"]] := by
    cbv
  exact ⟨sourcesKnown, computed,
    ((layers_are_levels sourcesKnown).2.1 _ computed).1⟩

end InSitu.Graph
