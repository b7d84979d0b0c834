/-!
The arithmetic shared by samples, axes and histograms, and numbers in 64-bit words.

Every numeric kernel of the library is written over `Scalar`, so that one definition runs on
doubles and is read over an exact field.
-/

namespace InSitu

/-- An ordered number type with a whole part and a test for values that are not numbers. -/
class Scalar (α : Type) extends Add α, Sub α, Mul α, Div α, LT α, LE α, BEq α where
  decidableLT : DecidableLT α
  decidableLE : DecidableLE α
  /-- The number nearest to a natural number. -/
  ofNat : Nat → α
  /-- The distance to zero. -/
  abs : α → α
  /-- Whether the value is no number at all. -/
  isNaN : α → Bool
  /-- The largest natural number not above the value, zero when there is none. -/
  wholePart : α → Nat

attribute [reducible, instance] Scalar.decidableLT Scalar.decidableLE

namespace Scalar

variable {α : Type} [Scalar α]

def zero : α := ofNat 0

def one : α := ofNat 1

def half (x : α) : α := x / ofNat 2

end Scalar

/-- Doubles: the whole part stops at the largest 64-bit word. -/
instance : Scalar Float where
  decidableLT := Float.decLt
  decidableLE := Float.decLe
  ofNat := Float.ofNat
  abs := Float.abs
  isNaN := Float.isNaN
  wholePart x := x.toUInt64.toNat

namespace Number

/-- An integer, if a signed 64-bit word holds it. -/
def int64? (value : Int) : Option Int64 :=
  if Int64.minValue.toInt ≤ value ∧ value ≤ Int64.maxValue.toInt then some (Int64.ofInt value)
  else none

def natural? (value : Int) : Option Nat :=
  if 0 ≤ value ∧ value.toNat < UInt64.size then some value.toNat else none

/-- What a 64-bit word keeps of a natural number. -/
def wrap (value : Nat) : Nat := value % UInt64.size

/-- The positive infinite double. -/
def infinity : Float := 1.0 / 0.0

def negativeInfinity : Float := -1.0 / 0.0

def notANumber : Float := 0.0 / 0.0

/-- A 64-bit integer as a double, rounded to nearest. -/
def ofInt64 (i : Int64) : Float := Float.ofInt i.toInt

/-- A 64-bit word as a double, rounded to nearest. -/
def ofUInt64 (n : UInt64) : Float := n.toFloat

/-- A double cut toward zero; values beyond the 64-bit integers stop at the nearest of them,
and what is no number becomes zero. -/
def toInt64 (x : Float) : Int64 :=
  if x < 0 then Int64.ofInt (max Int64.minValue.toInt (-(-x).toUInt64.toNat))
  else Int64.ofInt (min Int64.maxValue.toInt x.toUInt64.toNat)

/-- The smaller of two doubles; a number beats what is no number. -/
def least (x y : Float) : Float :=
  if x.isNaN then y else if y.isNaN then x else if y < x then y else x

/-- The larger of two doubles; a number beats what is no number. -/
def greatest (x y : Float) : Float :=
  if x.isNaN then y else if y.isNaN then x else if x < y then y else x

end Number

end InSitu
