import InSitu.Value.Basic
/-!
Looking up bins of a binning with one axis, and searching it.
-/

namespace InSitu.Binning

variable {α : Type} [Scalar α]

/-- A bin with its value and its place on the axis. -/
def bin? (values : List α) (axis : Axis α) (index : Nat) : Option (Bin α) := do
  let bounds ← axis.binBounds? index
  let value ← values[index]?
  return ⟨some index, value, bounds.1, bounds.2, Axis.middle bounds⟩

/-- Why no bin is found for a value. -/
inductive LookupFault (α : Type) where
  /-- The value lies outside the range of the axis, if the axis has one. -/
  | outside (value : α) (range : Option (α × α))
  /-- The value lies in a bin without a value. -/
  | noValue (index : Nat)

/-- The bin that holds a value. -/
def binHolding (values : List α) (axis : Axis α) (value : α) :
    Except (LookupFault α) (Bin α) :=
  match axis.locate? value with
  | none => .error (.outside value axis.range?)
  | some index =>
    match bin? values axis index with
    | some found => .ok found
    | none => .error (.noValue index)

/-- The bin that a search returns when it finds none. -/
def missedBin (value : α) : Bin α := ⟨none, value, value, value, value⟩

/-- The bins that a search looks at, each with its place, its value and its center. -/
def candidates (values : List α) (axis : Axis α) : List (Nat × α × α) :=
  (values.take axis.binCount).zipIdx.filterMap fun (value, index) =>
    (axis.center? index).map fun center => (index, value, center)

/-- A direction along an axis. -/
inductive Direction where
  | forward
  | backward

def Direction.ofInt64? (sign : Int64) : Option Direction :=
  if sign = 1 then some .forward else if sign = -1 then some .backward else none

def Direction.opposes : Direction → α → Bool
  | .forward, distance => distance < Scalar.zero
  | .backward, distance => Scalar.zero < distance

/-- Keeps the nearer of the best bin so far and the next one; the earlier of two equally near. -/
def nearer (best : Option (Nat × α)) (index : Nat) (distance : α) : Option (Nat × α) :=
  match best with
  | none => some (index, distance)
  | some (_, shortest) => if distance < shortest then some (index, distance) else best

/-- The nearest bin with a value above a threshold whose center is not behind a point. -/
def nearestAbove? (values : List α) (axis : Axis α) (threshold point : α)
    (direction : Direction) : Option Nat :=
  let step (best : Option (Nat × α)) : Nat × α × α → Option (Nat × α)
    | (index, value, center) =>
      let distance := center - point
      if threshold < value ∧ ¬ direction.opposes distance then
        nearer best index (Scalar.abs distance)
      else best
  ((candidates values axis).foldl step none).map Prod.fst

/-- Whether a value at some offset is better than the best so far: larger, equal and nearer, or
a number in place of none. -/
def isBetter (best : α × α) (value offset : α) : Bool :=
  (Scalar.isNaN best.1 && !Scalar.isNaN value) || best.1 < value ||
    (value == best.1 && Scalar.abs offset < Scalar.abs best.2)

/-- The largest value with the offset of its center from a point; the nearest of several. -/
def largestFrom? (values : List α) (axis : Axis α) (point : α) : Option (α × α) :=
  let step (best : Option (α × α)) : Nat × α × α → Option (α × α)
    | (_, value, center) =>
      let offset := center - point
      match best with
      | none => some (value, offset)
      | some found => if isBetter found value offset then some (value, offset) else best
  (candidates values axis).foldl step none

end InSitu.Binning
