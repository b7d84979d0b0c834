import InSitu.Axis.Basic
/-!
Axes as they are asked for: bounds and bin counts may be left open until the range of the data
is known.
-/

namespace InSitu

variable {α : Type} [Scalar α]

/-- Bins whose bounds and number may be open. -/
inductive SpecBins (α : Type) where
  | uniform (low high : Option α) (count : Option Nat)
  | edged (edges : List α)

/-- An axis whose bounds and number of bins may be open. -/
structure AxisSpec (α : Type) where
  name : String
  clamps : Bool
  bins : SpecBins α

/-- The fields of an axis as they are written, before they are sorted out. -/
structure AxisLiteral (α : Type) where
  name : String
  low : Option α
  high : Option α
  count : Option Nat
  edges : Option (List α)
  clamps : Bool

namespace AxisSpec

def unbounded (name : String) : AxisSpec α := ⟨name, false, .uniform none none none⟩

/-- Checks what is known without the data. -/
def check (spec : AxisSpec α) : Except (AxisFault α) Unit :=
  match spec.bins with
  | .uniform low high count => do
    match low, high with
    | some low, some high =>
      if ¬ low < high then .error (.unorderedBounds spec.name low high)
    | _, _ => .ok ()
    if count = some 0 then .error (.noBins spec.name)
  | .edged edges => Axis.checkEdges spec.name edges

def needsRange (spec : AxisSpec α) : Bool :=
  match spec.bins with
  | .uniform low high _ => low.isNone || high.isNone
  | .edged _ => false

def isEdged (spec : AxisSpec α) : Bool :=
  match spec.bins with
  | .uniform _ _ _ => false
  | .edged _ => true

/-- The number of bins, an open one taken from a default. -/
def binCount (spec : AxisSpec α) (defaultCount : Nat) : Nat :=
  match spec.bins with
  | .uniform _ _ count => count.getD defaultCount
  | .edged edges => edges.length - 1

/-- Closes open bounds with the range of the data and checks the axis. -/
def resolve (spec : AxisSpec α) (defaultCount : Nat) (range : Option (α × α)) :
    Except (AxisFault α) (Axis α) := do
  let bins ← match spec.bins with
    | .uniform low high count =>
      match low <|> range.map Prod.fst, high <|> range.map Prod.snd with
      | none, _ => .error (.missingLow spec.name)
      | some _, none => .error (.missingHigh spec.name)
      | some low, some high => .ok (.uniform low high (count.getD defaultCount))
    | .edged edges => .ok (.edged edges)
  let axis : Axis α := ⟨spec.name, spec.clamps, bins⟩
  axis.check
  return axis

end AxisSpec

def Axis.toSpec (axis : Axis α) : AxisSpec α :=
  ⟨axis.name, axis.clamps, match axis.bins with
    | .uniform low high count => .uniform (some low) (some high) (some count)
    | .edged edges => .edged edges⟩

namespace AxisLiteral

/-- The layout of a literal: listed edges leave no room for bounds or a number of bins. -/
def layout (literal : AxisLiteral α) : Except (AxisFault α) (AxisSpec α) :=
  match literal.edges with
  | some edges =>
    if literal.low.isSome || literal.high.isSome || literal.count.isSome then
      .error (.mixedLayout literal.name)
    else .ok ⟨literal.name, literal.clamps, .edged edges⟩
  | none => .ok ⟨literal.name, literal.clamps, .uniform literal.low literal.high literal.count⟩

/-- The spec of a literal, if it is well formed. -/
def toSpec (literal : AxisLiteral α) : Except (AxisFault α) (AxisSpec α) := do
  let spec ← literal.layout
  spec.check
  return spec

end AxisLiteral

def AxisSpec.toLiteral (spec : AxisSpec α) : AxisLiteral α :=
  match spec.bins with
  | .uniform low high count => ⟨spec.name, low, high, count, none, spec.clamps⟩
  | .edged edges => ⟨spec.name, none, none, none, some edges, spec.clamps⟩

end InSitu
