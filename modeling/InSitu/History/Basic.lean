import InSitu.Fault.Basic
import InSitu.Table
import InSitu.Value.Basic
/-!
The history of named expressions: one timeline for each, with an entry for every cycle in which
it was evaluated.

Entries are appended in the order of their cycles and never changed. A history may keep no more
than a number of entries for each name; then the oldest ones go.
-/

namespace InSitu

/-- One recorded evaluation; its time is known if the dataset had one. -/
structure Entry (τ ν : Type) where
  cycle : Cycle
  time : Option τ
  value : ν

/-- The entries of one name, oldest first. -/
structure Timeline (τ ν : Type) where
  entries : List (Entry τ ν)

/-- The timelines of all names in the order of their first mention. -/
structure History (τ ν : Type) where
  timelines : Table (Timeline τ ν)
  /-- The number of entries that a timeline may keep. -/
  cap : Option Nat

abbrev ValueEntry := Entry Float Value

abbrev ValueTimeline := Timeline Float Value

abbrev ValueHistory := History Float Value

variable {τ ν : Type}

namespace Timeline

def empty : Timeline τ ν := ⟨[]⟩

def size (timeline : Timeline τ ν) : Nat := timeline.entries.length

def latest? (timeline : Timeline τ ν) : Option (Entry τ ν) := timeline.entries.getLast?

def oldest? (timeline : Timeline τ ν) : Option (Entry τ ν) := timeline.entries.head?

/-- The newest entries that leave room for one more below a cap. -/
def makeRoom (cap : Option Nat) (entries : List (Entry τ ν)) : List (Entry τ ν) :=
  match cap with
  | some cap => entries.drop (entries.length + 1 - cap)
  | none => entries

/-- Appends an entry, unless its cycle is not after the newest one. -/
def push (timeline : Timeline τ ν) (name : String) (cap : Option Nat) (entry : Entry τ ν) :
    Except Fault (Timeline τ ν) :=
  match timeline.latest? with
  | some last =>
    if entry.cycle ≤ last.cycle then .error (.historyOrder name last.cycle entry.cycle)
    else .ok ⟨makeRoom cap timeline.entries ++ [entry]⟩
  | none => .ok ⟨makeRoom cap timeline.entries ++ [entry]⟩

/-- Keeps the first of every run of entries with one cycle; `last` is the cycle before. -/
def dropRepeats (last : Option Cycle) : List (Entry τ ν) → List (Entry τ ν)
  | [] => []
  | entry :: rest =>
    if last = some entry.cycle then dropRepeats last rest
    else entry :: dropRepeats (some entry.cycle) rest

/-- The timeline of entries in any order: sorted by cycle, and of several with one cycle the
first. -/
def ofEntries (entries : List (Entry τ ν)) : Timeline τ ν :=
  ⟨dropRepeats none (entries.mergeSort fun first second => first.cycle ≤ second.cycle)⟩

end Timeline

namespace History

def empty (cap : Option Nat) : History τ ν := ⟨Table.empty, cap⟩

def names (history : History τ ν) : List String := history.timelines.keys

/-- The timeline of a name, empty if it is not known. -/
def timelineOf (history : History τ ν) (name : String) : Timeline τ ν :=
  (history.timelines.get? name).getD Timeline.empty

/-- Mentions a name without an entry. -/
def declare (history : History τ ν) (name : String) : History τ ν :=
  if history.timelines.contains name then history
  else { history with timelines := history.timelines.insert name Timeline.empty }

def append (history : History τ ν) (name : String) (entry : Entry τ ν) :
    Except Fault (History τ ν) :=
  ((history.timelineOf name).push name history.cap entry).map fun timeline =>
    { history with timelines := history.timelines.insert name timeline }

def declared (history : History τ ν) (name : String) : Except Fault (Timeline τ ν) :=
  match history.timelines.get? name with
  | some timeline => .ok timeline
  | none => .error (.unknownIdentifier name history.names)

def lookup (history : History τ ν) (name : String) : Except Fault (Timeline τ ν) := do
  let timeline ← history.declared name
  if timeline.entries.isEmpty then .error (.emptyHistory name)
  return timeline

def latest (history : History τ ν) (name : String) : Except Fault (Entry τ ν) := do
  let timeline ← history.lookup name
  match timeline.latest? with
  | some entry => .ok entry
  | none => .error (.emptyHistory name)

def lastEntries (history : History τ ν) : List (String × Entry τ ν) :=
  history.timelines.entries.filterMap fun (name, timeline) =>
    timeline.latest?.map fun entry => (name, entry)

end History

end InSitu
