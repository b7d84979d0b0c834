import InSitu.History.Basic
import InSitu.Number.Scalar
/-!
Rates of change along a timeline.
-/

namespace InSitu

/-- What the distance between entries is measured in. -/
inductive DeltaUnit where
  | index
  | time
  | cycle
  deriving DecidableEq

def DeltaUnit.ofName? (text : String) : Option DeltaUnit :=
  if text = "index" then some .index
  else if text = "time" then some .time
  else if text = "cycle" then some .cycle
  else none

def DeltaUnit.title : DeltaUnit → String
  | .index => "Index"
  | .time => "Time"
  | .cycle => "Cycle"

/-- Why there is no trailing gradient. -/
inductive GradientFault (ν : Type) where
  | negativeWindow
  | shortWindow
  | untimed
  | notNumeric (value : ν)

namespace Timeline

variable {α ν : Type} [Scalar α]

def cycleNumber (cycle : Cycle) : α := Scalar.ofNat cycle.toNat

/-- The entry where a window of a length before the newest entry begins, and the distance by
which a difference is divided. The start of a window in entries is a whole number of entries
back, while the distance is the length as given; a window longer than the history begins at the
oldest entry. -/
def windowStart (entries : List (Entry α ν)) (newest : Entry α ν) (length : α)
    (unit : DeltaUnit) : Except (GradientFault ν) (Entry α ν × α) :=
  let last := entries.length - 1
  match unit with
  | .index =>
    let back := Scalar.wholePart length
    if last < back then .ok (entries.headD newest, Scalar.ofNat last)
    else .ok (entries.getD (last - back) newest, length)
  | .time =>
    match newest.time with
    | none => .error .untimed
    | some now =>
      let begins (entry : Entry α ν) : Bool :=
        match entry.time with
        | some time => now - length ≤ time
        | none => false
      let first := (entries.find? begins).getD newest
      .ok (first, match first.time with
        | some time => now - time
        | none => Scalar.zero)
  | .cycle =>
    let begins (entry : Entry α ν) : Bool :=
      cycleNumber newest.cycle - length ≤ cycleNumber entry.cycle
    let first := (entries.find? begins).getD newest
    .ok (first, cycleNumber (newest.cycle - first.cycle))

def numberOf (scalar? : ν → Option α) (entry : Entry α ν) : Except (GradientFault ν) α :=
  match scalar? entry.value with
  | some number => .ok number
  | none => .error (.notNumeric entry.value)

/-- The rate of change over a window before the newest entry; none while there are fewer than
two entries or the window holds only one. -/
def trailingGradient (scalar? : ν → Option α) (timeline : Timeline α ν) (length : α)
    (unit : DeltaUnit) : Except (GradientFault ν) (Option α) :=
  if ¬ Scalar.zero ≤ length then .error .negativeWindow
  else if unit ≠ .time ∧ length < Scalar.one then .error .shortWindow
  else match timeline.entries with
    | first :: second :: rest => do
      let newest := rest.getLastD second
      let (start, distance) ← windowStart (first :: second :: rest) newest length unit
      if distance ≤ Scalar.zero then return none
      let after ← numberOf scalar? newest
      let before ← numberOf scalar? start
      return some ((after - before) / distance)
    | _ => .ok none

end Timeline

/-- The quotients of neighbouring differences: of the values, and of the steps between them. -/
def slopes {α : Type} [Scalar α] : List α → List α → List α
  | before :: after :: rest, step :: steps =>
    ((after - before) / step) :: slopes (after :: rest) steps
  | _, _ => []

end InSitu
