/-!
Dependency layers: every node stands one layer after the last of its sources.

A node waits for as many edges as come from nodes without a layer. Each round gives a layer to
the nodes that wait for none, and takes their edges off what the others wait for.
-/

namespace InSitu

/-- A node without a layer. -/
structure Pending where
  name : String
  /-- The nodes it depends on, one for each edge. -/
  sources : List String
  /-- The number of edges that come from nodes without a layer. -/
  waiting : Nat

namespace Pending

def start (name : String) (sources : List String) : Pending := ⟨name, sources, sources.length⟩

def isReady (pending : Pending) : Bool := pending.waiting == 0

def edgesFrom (pending : Pending) (layer : List String) : Nat :=
  pending.sources.countP fun source => layer.contains source

def settle (layer : List String) (pending : Pending) : Pending :=
  { pending with waiting := pending.waiting - pending.edgesFrom layer }

end Pending

def sortNames (names : List String) : List String :=
  names.mergeSort fun first second => !(second < first)

def readyNodes (pending : List Pending) : List Pending := pending.filter Pending.isReady

def blockedNodes (pending : List Pending) : List Pending :=
  pending.filter fun node => !node.isReady

def namesOf (pending : List Pending) : List String := sortNames (pending.map (·.name))

/-- Taking a layer leaves fewer nodes. -/
theorem length_blockedNodes_lt {pending : List Pending} (some_ready : readyNodes pending ≠ []) :
    (blockedNodes pending).length < pending.length := by
  obtain ⟨node, isReady⟩ := List.exists_mem_of_ne_nil _ some_ready
  have found := List.mem_filter.1 isReady
  exact List.length_filter_lt_length_iff_exists.2 ⟨node, found.1, by simp [found.2]⟩

/-- The layers of the pending nodes, each sorted by name; if some never get ready, the sorted
names of these. -/
def layersOf? (pending : List Pending) : Except (List String) (List (List String)) :=
  if _done : pending = [] then .ok []
  else if _stuck : readyNodes pending = [] then .error (namesOf (blockedNodes pending))
  else
    let layer := namesOf (readyNodes pending)
    match layersOf? ((blockedNodes pending).map (Pending.settle layer)) with
    | .ok layers => .ok (layer :: layers)
    | .error names => .error names
termination_by pending.length
decreasing_by
  rw [List.length_map]
  exact length_blockedNodes_lt _stuck

end InSitu
