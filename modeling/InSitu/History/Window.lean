import InSitu.History.Gradient
/-!
Choosing entries of a timeline: one by its index, or a range by index, time or cycle.

A range that misses the recorded history altogether is no fault; it resolves to nothing.
-/

namespace InSitu

/-- The address of one entry. -/
inductive EntryIndex where
  /-- Counted from the oldest entry. -/
  | absolute (index : Int64)
  /-- Counted back from the newest entry. -/
  | relative (index : Int64)

/-- The addresses of a range of entries, both ends included. -/
inductive RangeSelector where
  | absoluteIndex (first last : Int64)
  | relativeIndex (first last : Int64)
  | absoluteTime (first last : Float)
  | absoluteCycle (first last : Int64)

/-- The first and the last position of a range of entries. -/
structure Span where
  first : Nat
  last : Nat

/-- The values of a range, and the steps between them if they were asked for. -/
structure HistoryWindow where
  values : NumericArray
  deltas : Option (List Float)

namespace Timeline

/-- The entry at an index. A relative index beyond the oldest entry means that one. -/
def select (timeline : ValueTimeline) (node : String) (index : EntryIndex) :
    Except Fault ValueEntry := do
  let size := timeline.size
  let position ← match index with
    | .absolute index =>
      if index < 0 ∨ (size : Int) ≤ index.toInt then
        .error (.indexOutOfRange node index size)
      else .ok index.toInt.toNat
    | .relative index =>
      if index < 0 then .error (.badArgument node (.negativeRelativeIndex index))
      else .ok (size - 1 - index.toInt.toNat)
  match timeline.entries[position]? with
  | some entry => return entry
  | none => .error (.indexOutOfRange node (Int64.ofNat position) size)

end Timeline

namespace RangeSelector

def family : RangeSelector → Family
  | .absoluteIndex .. => .absoluteIndex
  | .relativeIndex .. => .relativeIndex
  | .absoluteTime .. => .absoluteTime
  | .absoluteCycle .. => .absoluteCycle

/-- The two ends as numbers; times before zero mean zero. -/
def ends : RangeSelector → Float × Float
  | .absoluteIndex first last | .relativeIndex first last | .absoluteCycle first last =>
    (Number.ofInt64 first, Number.ofInt64 last)
  | .absoluteTime first last => (Number.greatest first 0.0, Number.greatest last 0.0)

/-- The ends must be in order, and those that are no times must not be negative. -/
def check (selector : RangeSelector) (node : String) : Except Fault Unit :=
  let (first, last) := selector.ends
  if selector.family ≠ .absoluteTime ∧ (first < 0.0 ∨ last < 0.0) then
    .error (.badArgument node (.negativeBounds selector.family first last))
  else if ¬ first ≤ last then
    .error (.badArgument node (.unorderedBounds selector.family first last))
  else .ok ()

/-- The times of all entries; every entry must have one. -/
def times (node : String) (entries : List ValueEntry) : Except Fault (List Float) :=
  entries.zipIdx.mapM fun (entry, position) =>
    match entry.time with
    | some time => .ok time
    | none => .error (.badArgument node (.untimedEntry position entry.cycle))

def lastIdx? {α : Type} (test : α → Bool) (elements : List α) : Option Nat :=
  (elements.reverse.findIdx? test).map fun back => elements.length - 1 - back

/-- The entries from the first time that is not before `first` to the last time that is not
after `last`, and always the former. -/
def timeSpan? (times : List Float) (first last : Float) : Option Span :=
  (times.findIdx? fun time => first ≤ time).map fun start =>
    ⟨start, Nat.max ((lastIdx? (fun time => time ≤ last) times).getD start) start⟩

/-- The entries from the first cycle that is not before `first` to the one in front of the first
cycle after `last`; cycles are compared as signed words. -/
def cycleSpan? (entries : List ValueEntry) (first last : Int64) : Option Span :=
  let signed (entry : ValueEntry) : Int64 := entry.cycle.toInt64
  (entries.findIdx? fun entry => first ≤ signed entry).bind fun start =>
    if entries[start]?.any fun entry => signed entry ≤ last then
      some ⟨start, (entries.findIdx? fun entry => last < signed entry).getD entries.length - 1⟩
    else none

/-- The entries of a range, none if it misses the history. -/
def resolve (selector : RangeSelector) (node : String) (timeline : ValueTimeline) :
    Except Fault (Option Span) := do
  selector.check node
  let entries := timeline.entries
  let size : Int := entries.length
  if entries.isEmpty then return none
  match selector with
  | .absoluteIndex first last =>
    if size ≤ first.toInt then return none
    return some ⟨first.toInt.toNat, (min last.toInt (size - 1)).toNat⟩
  | .relativeIndex first last =>
    let stop := size - first.toInt - 1
    if stop < 0 then return none
    return some ⟨(max (size - last.toInt - 1) 0).toNat, stop.toNat⟩
  | .absoluteTime _ _ =>
    let times ← times node entries
    return timeSpan? times selector.ends.1 selector.ends.2
  | .absoluteCycle first last => return cycleSpan? entries first last

/-- The unit in which steps of a family are measured by default. -/
def naturalUnit : RangeSelector → DeltaUnit
  | .absoluteIndex .. | .relativeIndex .. => .index
  | .absoluteTime .. => .time
  | .absoluteCycle .. => .cycle

end RangeSelector

namespace Timeline

def slice (timeline : ValueTimeline) (span : Span) : List ValueEntry :=
  (timeline.entries.take (span.last + 1)).drop span.first

/-- The numbers of entries; the type of the elements is that of the first entry. -/
def windowValues (node : String) (entries : List ValueEntry) : Except Fault NumericArray := do
  let elementType : ElementType := match entries with
    | ⟨_, _, .int _⟩ :: _ => .int64
    | _ => .float64
  let elements ← entries.mapM fun entry =>
    match entry.value.scalar? with
    | some number => .ok number
    | none => .error (.typeMismatch node "expr_name" .numericHistory entry.value.kind)
  return ⟨elementType, elements⟩

def windowDeltas (node : String) (unit : DeltaUnit) : List ValueEntry → Except Fault (List Float)
  | before :: after :: rest => do
    let step ← match unit with
      | .index => .ok 1.0
      | .cycle => .ok (Number.ofUInt64 after.cycle - Number.ofUInt64 before.cycle)
      | .time =>
        match before.time, after.time with
        | some earlier, some later => .ok (later - earlier)
        | _, _ => .error (.badArgument node .untimedDeltas)
    let steps ← windowDeltas node unit (after :: rest)
    return step :: steps
  | _ => .ok []

/-- The values of a range, with the steps in a unit if one is given. -/
def range (timeline : ValueTimeline) (node : String) (selector : RangeSelector)
    (unit : Option DeltaUnit) : Except Fault (Option HistoryWindow) := do
  match ← selector.resolve node timeline with
  | none => return none
  | some span =>
    let entries := timeline.slice span
    let values ← windowValues node entries
    let deltas ← unit.mapM fun unit => windowDeltas node unit entries
    return some ⟨values, deltas⟩

/-- The fault of a node whose gradient cannot be taken. -/
def gradientFault (node : String) (length : Float) : GradientFault Value → Fault
  | .negativeWindow => .badArgument node (.negativeWindow length)
  | .shortWindow => .badArgument node (.shortWindow length)
  | .untimed => .badArgument node .untimedGradient
  | .notNumeric value => .typeMismatch node "expr_name" .numericHistory value.kind

/-- The rate of change over a window before the newest entry, negative infinity while there is
none. -/
def gradient (timeline : ValueTimeline) (node : String) (length : Float) (unit : DeltaUnit) :
    Except Fault Float :=
  match timeline.trailingGradient Value.scalar? length unit with
  | .ok found => .ok (found.getD Number.negativeInfinity)
  | .error fault => .error (gradientFault node length fault)

/-- The rates of change in time between the neighbouring entries of a range; negative infinity
alone if there are no two entries. -/
def rangeGradient (timeline : ValueTimeline) (node : String) (selector : RangeSelector) :
    Except Fault (List Float) := do
  match ← timeline.range node selector (some .time) with
  | some ⟨⟨_, before :: after :: rest⟩, some steps⟩ =>
    return slopes (before :: after :: rest) steps
  | _ => return [Number.negativeInfinity]

end Timeline

end InSitu
