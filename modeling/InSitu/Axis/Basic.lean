import InSitu.Number.Scalar
/-!
Binning axes: a range of numbers cut into bins.

A uniform axis has bins of one width, an edged axis lists the edges of its bins. The upper end of
the range belongs to the last bin.
-/

namespace InSitu

/-- How a range is cut into bins. -/
inductive Bins (α : Type) where
  /-- `count` bins of one width from `low` to `high`. -/
  | uniform (low high : α) (count : Nat)
  /-- One bin between every two neighbouring edges. -/
  | edged (edges : List α)

/-- A dimension of a binning. -/
structure Axis (α : Type) where
  name : String
  /-- Whether samples outside the range go to the first or the last bin. -/
  clamps : Bool
  bins : Bins α

/-- What is wrong with an axis. -/
inductive AxisFault (α : Type) where
  | unorderedBounds (axis : String) (low high : α)
  | tooFewEdges (axis : String) (count : Nat)
  | unorderedEdges (axis : String) (position : Nat) (edge next : α)
  | noBins (axis : String)
  | mixedLayout (axis : String)
  | missingLow (axis : String)
  | missingHigh (axis : String)

namespace Axis

variable {α : Type} [Scalar α]

/-- The position and the two edges of the first neighbours that do not increase. -/
def firstDescent? : List α → Option (Nat × α × α)
  | edge :: next :: rest =>
    if edge < next then (firstDescent? (next :: rest)).map fun found => (found.1 + 1, found.2)
    else some (0, edge, next)
  | _ => none

/-- Edges must be two at least and strictly increase. -/
def checkEdges (name : String) (edges : List α) : Except (AxisFault α) Unit :=
  if edges.length < 2 then .error (.tooFewEdges name edges.length)
  else match firstDescent? edges with
    | some (position, edge, next) => .error (.unorderedEdges name position edge next)
    | none => .ok ()

/-- Bounds must be in order, and there must be a bin. -/
def check (axis : Axis α) : Except (AxisFault α) Unit :=
  match axis.bins with
  | .uniform low high count =>
    if ¬ low < high then .error (.unorderedBounds axis.name low high)
    else if count = 0 then .error (.noBins axis.name)
    else .ok ()
  | .edged edges => checkEdges axis.name edges

/-- A uniform axis that does not clamp, if it is well formed. -/
def uniform (name : String) (low high : α) (count : Nat) : Except (AxisFault α) (Axis α) :=
  let axis : Axis α := ⟨name, false, .uniform low high count⟩
  axis.check.map fun _ => axis

/-- An edged axis that does not clamp, if it is well formed. -/
def edged (name : String) (edges : List α) : Except (AxisFault α) (Axis α) :=
  let axis : Axis α := ⟨name, false, .edged edges⟩
  axis.check.map fun _ => axis

def binCount (axis : Axis α) : Nat :=
  match axis.bins with
  | .uniform _ _ count => count
  | .edged edges => edges.length - 1

/-- The ends of the range; an axis without edges has none. -/
def range? (axis : Axis α) : Option (α × α) :=
  match axis.bins with
  | .uniform low high _ => some (low, high)
  | .edged edges =>
    match edges.head?, edges.getLast? with
    | some low, some high => some (low, high)
    | _, _ => none

def binBounds? (axis : Axis α) (index : Nat) : Option (α × α) :=
  match axis.bins with
  | .uniform low high count =>
    if index < count then
      let width := (high - low) / Scalar.ofNat count
      let lower := low + Scalar.ofNat index * width
      some (lower, lower + width)
    else none
  | .edged edges =>
    match edges[index]?, edges[index + 1]? with
    | some lower, some upper => some (lower, upper)
    | _, _ => none

def middle (bounds : α × α) : α := bounds.1 + Scalar.half (bounds.2 - bounds.1)

def center? (axis : Axis α) (index : Nat) : Option α := (axis.binBounds? index).map middle

/-- The bin of a value within the range of the bins. -/
def Bins.positionOf (bins : Bins α) (low high value : α) : Nat :=
  match bins with
  | .uniform _ _ count => Scalar.wholePart ((value - low) * Scalar.ofNat count / (high - low))
  | .edged edges => (edges.takeWhile (· ≤ value)).length - 1

/-- The bin that holds a value, none outside the range. -/
def locate? (axis : Axis α) (value : α) : Option Nat :=
  axis.range?.bind fun (low, high) =>
    if low ≤ value ∧ value ≤ high then
      some (Nat.min (Bins.positionOf axis.bins low high value) (axis.binCount - 1))
    else none

/-- The bin that counts a sample: beyond the range it is an end bin if the axis clamps, and what
is no number has none. -/
def locateSample? (axis : Axis α) (sample : α) : Option Nat :=
  if Scalar.isNaN sample then none
  else match axis.locate? sample with
    | some bin => some bin
    | none =>
      if axis.clamps then
        axis.range?.map fun (low, _) => if sample < low then 0 else axis.binCount - 1
      else none

end Axis

end InSitu
