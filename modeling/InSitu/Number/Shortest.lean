/-!
The shortest decimal that reads back as a given double.

A double stands for every real that rounds to it. On the decimal grids of one digit, two digits
and so on, the first grid with a point among those reals gives the decimal.
-/

namespace InSitu.Number

/-- The positive decimal `digits * 10 ^ exponent`. -/
structure Decimal where
  digits : Nat
  exponent : Int

/-- Which of two equally near decimals is taken. -/
inductive Tie where
  | even
  | up

/-- The reals that round to one double, as numerators over one denominator. -/
structure Rounding where
  value : Nat
  low : Nat
  high : Nat
  denominator : Nat
  /-- Whether the two ends round to the double as well. -/
  closed : Bool

/-- The reals that round to `mantissa * 2 ^ exponent`. The gap below a power of two is half as
wide as the gap above it, except at the smallest exponent. -/
def Rounding.of (mantissa : Nat) (exponent : Int) : Rounding :=
  let quarter : Int := exponent - 2
  let below := if mantissa = Nat.pow 2 52 ∧ -1074 < exponent then 1 else 2
  let scale := Nat.pow 2 quarter.toNat
  { value := 4 * mantissa * scale
    low := (4 * mantissa - below) * scale
    high := (4 * mantissa + 2) * scale
    denominator := Nat.pow 2 (-quarter).toNat
    closed := mantissa % 2 == 0 }

/-- The same reals measured in steps of `10 ^ place`. -/
def Rounding.inSteps (reals : Rounding) (place : Int) : Rounding :=
  let finer := Nat.pow 10 (-place).toNat
  { reals with
    value := reals.value * finer
    low := reals.low * finer
    high := reals.high * finer
    denominator := reals.denominator * Nat.pow 10 place.toNat }

/-- Whether a whole number of steps is among the reals. -/
def Rounding.holds (reals : Rounding) (steps : Nat) : Bool :=
  let point := steps * reals.denominator
  if reals.closed then reals.low ≤ point && point ≤ reals.high
  else reals.low < point && point < reals.high

/-- The nearest whole number of steps among the reals, if there is one. -/
def Rounding.nearest? (reals : Rounding) (tie : Tie) : Option Nat :=
  let below := reals.value / reals.denominator
  match reals.holds below, reals.holds (below + 1) with
  | true, true =>
    let middle := (2 * below + 1) * reals.denominator
    if 2 * reals.value < middle then some below
    else if middle < 2 * reals.value then some (below + 1)
    else match tie with
      | .up => some (below + 1)
      | .even => some (if below % 2 = 0 then below else below + 1)
  | true, false => some below
  | false, true => some (below + 1)
  | false, false => none

/-- Tries `grids` decimal grids, each ten times finer than the one before. -/
def Rounding.search (reals : Rounding) (tie : Tie) : (grids : Nat) → (place : Int) → Decimal
  | 0, place => ⟨(reals.inSteps place).value / (reals.inSteps place).denominator, place⟩
  | grids + 1, place =>
    match (reals.inSteps place).nearest? tie with
    | some digits => ⟨digits, place⟩
    | none => reals.search tie grids (place - 1)

def leadingPlace (reals : Rounding) (mantissa : Nat) (exponent : Int) : Int :=
  let guess := (exponent + mantissa.log2) * 30103 / 100000
  let atLeast (place : Int) : Bool :=
    (reals.inSteps place).denominator ≤ (reals.inSteps place).value
  if atLeast (guess + 1) then guess + 1 else if atLeast guess then guess else guess - 1

/-- Moves up to `count` trailing zeros into the exponent. -/
def Decimal.trim : Nat → Decimal → Decimal
  | 0, decimal => decimal
  | count + 1, ⟨digits, exponent⟩ =>
    if digits % 10 = 0 then trim count ⟨digits / 10, exponent + 1⟩ else ⟨digits, exponent⟩

/-- The decimal with the fewest digits that reads back as `mantissa * 2 ^ exponent`; of several
it is the nearest one, and seventeen digits always suffice. -/
def shortest (tie : Tie) (mantissa : Nat) (exponent : Int) : Decimal :=
  let reals := Rounding.of mantissa exponent
  (reals.search tie 17 (leadingPlace reals mantissa exponent)).trim 18

end InSitu.Number
