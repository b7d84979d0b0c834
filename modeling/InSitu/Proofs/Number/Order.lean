import Mathlib
import InSitu.Number.Scalar

/-!
# The order of doubles and of exact numbers

Doubles other than `NaN` are ordered without exception: of two of them one is below the other or
not above it.  The order is that of their ranks, and so chains of comparisons can be shortened.
Exact numbers have the same laws, and none of them is `NaN`.
-/

namespace InSitu.Number

open Float.Model

theorem compare_swap (x y : UnpackedFloat) :
    y.compare x = (x.compare y).map Ordering.swap := by
  have signs : ∀ s t : UnpackedFloat.Sign, compare t s = (compare s t).swap := by
    intro s t
    cases s <;> cases t <;> rfl
  have sizes : ∀ (m n : Nat) (d e : Int),
      (compare e d).then (compare n m) = ((compare d e).then (compare m n)).swap := by
    intro m n d e
    rw [Ordering.swap_then, ← Std.OrientedCmp.eq_swap, ← Std.OrientedCmp.eq_swap]
  cases x with
  | notANumber =>
      cases y <;> rfl
  | infinity s =>
      cases y with
      | infinity t =>
          exact congrArg some (signs s t)
      | _ =>
          cases s <;> rfl
  | zero s =>
      cases y with
      | infinity t =>
          cases t <;> rfl
      | finite t n e positive =>
          cases t <;> rfl
      | _ =>
          rfl
  | finite s m d positive =>
      cases y with
      | notANumber =>
          cases s <;> rfl
      | infinity t =>
          cases s <;> cases t <;> rfl
      | zero t =>
          cases s <;> rfl
      | finite t n e positive' =>
          cases s <;> cases t
          · exact congrArg some (congrArg Ordering.swap (sizes m n d e))
          · rfl
          · rfl
          · exact congrArg some (sizes m n d e)

theorem compare_eq_none_iff (x y : UnpackedFloat) :
    x.compare y = none ↔ x.isNaN = true ∨ y.isNaN = true := by
  cases x with
  | notANumber =>
      cases y <;> simp [UnpackedFloat.compare, UnpackedFloat.isNaN]
  | infinity s =>
      cases s <;> cases y <;> simp [UnpackedFloat.compare, UnpackedFloat.isNaN]
  | zero s =>
      cases y with
      | infinity t =>
          cases t <;> simp [UnpackedFloat.compare, UnpackedFloat.isNaN]
      | finite t n e positive =>
          cases t <;> simp [UnpackedFloat.compare, UnpackedFloat.isNaN]
      | _ =>
          simp [UnpackedFloat.compare, UnpackedFloat.isNaN]
  | finite s m d positive =>
      cases y with
      | infinity t =>
          cases s <;> cases t <;> simp [UnpackedFloat.compare, UnpackedFloat.isNaN]
      | finite t n e positive' =>
          cases s <;> cases t <;> simp [UnpackedFloat.compare, UnpackedFloat.isNaN]
      | _ =>
          cases s <;> simp [UnpackedFloat.compare, UnpackedFloat.isNaN]

/-- How two doubles compare, nothing if one is no number. -/
def comparison? (x y : Float) : Option Ordering := x.toModel.unpack.compare y.toModel.unpack

theorem lt_iff_comparison? (x y : Float) : x < y ↔ comparison? x y = some .lt := by
  have decided : x < y ↔ (comparison? x y == some .lt) = true := decide_eq_true_iff
  rw [decided, beq_iff_eq]

theorem le_iff_comparison? (x y : Float) :
    x ≤ y ↔ comparison? x y = some .lt ∨ comparison? x y = some .eq := by
  have decided : x ≤ y ↔ (comparison? x y).any (·.isLE) = true :=
    decide_eq_true_iff
  rw [decided]
  cases comparison? x y with
  | none =>
      simp
  | some ordering =>
      cases ordering <;> simp

theorem comparison?_eq_none_iff (x y : Float) :
    comparison? x y = none ↔ x.isNaN = true ∨ y.isNaN = true :=
  compare_eq_none_iff _ _

theorem isNaN_eq_false_of_lt {x y : Float} (below : x < y) :
    x.isNaN = false ∧ y.isNaN = false := by
  have ordered := (lt_iff_comparison? x y).mp below
  have neither : ¬ (x.isNaN = true ∨ y.isNaN = true) := by
    rw [← comparison?_eq_none_iff, ordered]
    simp
  simpa using neither

theorem isNaN_eq_false_of_le {x y : Float} (below : x ≤ y) :
    x.isNaN = false ∧ y.isNaN = false := by
  have neither : ¬ (x.isNaN = true ∨ y.isNaN = true) := by
    rw [← comparison?_eq_none_iff]
    rcases (le_iff_comparison? x y).mp below with ordered | ordered <;> simp [ordered]
  simpa using neither

theorem not_lt_iff_le {x y : Float} (xIsNumber : x.isNaN = false) (yIsNumber : y.isNaN = false) :
    ¬ x < y ↔ y ≤ x := by
  have swapped : comparison? y x = (comparison? x y).map Ordering.swap := compare_swap _ _
  rw [lt_iff_comparison?, le_iff_comparison?, swapped]
  cases compared : comparison? x y with
  | none =>
      rcases (comparison?_eq_none_iff x y).mp compared with isNaN | isNaN
      · exact absurd isNaN (Bool.eq_false_iff.mp xIsNumber)
      · exact absurd isNaN (Bool.eq_false_iff.mp yIsNumber)
  | some ordering =>
      cases ordering <;> simp

protected theorem le_of_lt {x y : Float} (below : x < y) : x ≤ y :=
  (le_iff_comparison? x y).mpr (.inl ((lt_iff_comparison? x y).mp below))

protected theorem not_le_of_lt {x y : Float} (below : x < y) : ¬ y ≤ x := by
  obtain ⟨xIsNumber, yIsNumber⟩ := isNaN_eq_false_of_lt below
  rw [← not_lt_iff_le xIsNumber yIsNumber]
  exact not_not_intro below

/-- The place of a double among all of them: infinities lie outside, zeros in the middle, and the
others are placed by the exponent and then by the mantissa. -/
@[simp]
def rank : UnpackedFloat → ℤ ×ₗ ℤ ×ₗ ℤ
  | .infinity .negative => toLex (-2, toLex (0, 0))
  | .finite .negative mantissa exponent _ => toLex (-1, toLex (-exponent, -mantissa))
  | .notANumber | .zero _ => toLex (0, toLex (0, 0))
  | .finite .positive mantissa exponent _ => toLex (1, toLex (exponent, mantissa))
  | .infinity .positive => toLex (2, toLex (0, 0))

theorem isLE_then_iff (d e : Int) (m n : Nat) :
    ((compare d e).then (compare m n)).isLE = true ↔ d < e ∨ d = e ∧ m ≤ n := by
  rcases lt_trichotomy d e with below | rfl | above
  · simp [Int.compare_eq_lt.mpr below, below]
  · simp [Nat.isLE_compare]
  · simp [Int.compare_eq_gt.mpr above, above.not_gt, above.ne']

theorem isLE_swap_then_iff (d e : Int) (m n : Nat) :
    ((compare d e).then (compare m n)).swap.isLE = true ↔ e < d ∨ d = e ∧ n ≤ m := by
  rw [Ordering.swap_then, ← Std.OrientedCmp.eq_swap, ← Std.OrientedCmp.eq_swap, isLE_then_iff,
    eq_comm (a := e)]

theorem le_iff_rank (x y : UnpackedFloat) :
    x.le y = true ↔ x.isNaN = false ∧ y.isNaN = false ∧ rank x ≤ rank y := by
  simp only [UnpackedFloat.le]
  cases x with
  | notANumber =>
      cases y <;> simp [UnpackedFloat.compare, UnpackedFloat.isNaN]
  | infinity s =>
      cases y with
      | infinity t =>
          cases s <;> cases t <;>
            simp [UnpackedFloat.compare, UnpackedFloat.isNaN, Prod.Lex.toLex_le_toLex] <;> rfl
      | finite t n e positive =>
          cases s <;> cases t <;>
            simp [UnpackedFloat.compare, UnpackedFloat.isNaN, Prod.Lex.toLex_le_toLex]
      | _ =>
          cases s <;> simp [UnpackedFloat.compare, UnpackedFloat.isNaN, Prod.Lex.toLex_le_toLex]
  | zero s =>
      cases y with
      | infinity t =>
          cases t <;> simp [UnpackedFloat.compare, UnpackedFloat.isNaN, Prod.Lex.toLex_le_toLex]
      | finite t n e positive =>
          cases t <;> simp [UnpackedFloat.compare, UnpackedFloat.isNaN, Prod.Lex.toLex_le_toLex]
      | _ =>
          simp [UnpackedFloat.compare, UnpackedFloat.isNaN]
  | finite s m d positive =>
      cases y with
      | infinity t =>
          cases s <;> cases t <;>
            simp [UnpackedFloat.compare, UnpackedFloat.isNaN, Prod.Lex.toLex_le_toLex]
      | finite t n e positive' =>
          cases s <;> cases t
          · simp [UnpackedFloat.compare, UnpackedFloat.isNaN, Prod.Lex.toLex_le_toLex,
              isLE_swap_then_iff, -Ordering.isLE_swap]
          · simp [UnpackedFloat.compare, UnpackedFloat.isNaN, Prod.Lex.toLex_le_toLex]
          · simp [UnpackedFloat.compare, UnpackedFloat.isNaN, Prod.Lex.toLex_le_toLex]
          · simp [UnpackedFloat.compare, UnpackedFloat.isNaN, Prod.Lex.toLex_le_toLex,
              isLE_then_iff]
      | _ =>
          cases s <;> simp [UnpackedFloat.compare, UnpackedFloat.isNaN, Prod.Lex.toLex_le_toLex]

protected theorem le_trans {x y z : Float} (lower : x ≤ y) (upper : y ≤ z) : x ≤ z := by
  have ranked (x y : Float) : x ≤ y ↔ x.isNaN = false ∧ y.isNaN = false ∧
      rank x.toModel.unpack ≤ rank y.toModel.unpack :=
    Iff.trans decide_eq_true_iff (le_iff_rank _ _)
  obtain ⟨xIsNumber, _, below⟩ := (ranked x y).mp lower
  obtain ⟨_, zIsNumber, above⟩ := (ranked y z).mp upper
  exact (ranked x z).mpr ⟨xIsNumber, zIsNumber, below.trans above⟩

end InSitu.Number

namespace InSitu

/-- Whatever is a number is in order with every other number. -/
class OrderedScalar (α : Type) [Scalar α] : Prop where
  isNumber_of_lt : ∀ {x y : α}, x < y → Scalar.isNaN x = false ∧ Scalar.isNaN y = false
  isNumber_of_le : ∀ {x y : α}, x ≤ y → Scalar.isNaN x = false ∧ Scalar.isNaN y = false
  not_lt_iff_le : ∀ {x y : α}, Scalar.isNaN x = false → Scalar.isNaN y = false →
    (¬ x < y ↔ y ≤ x)

instance : OrderedScalar Float where
  isNumber_of_lt := Number.isNaN_eq_false_of_lt
  isNumber_of_le := Number.isNaN_eq_false_of_le
  not_lt_iff_le := Number.not_lt_iff_le

/-- Exact numbers: read over them, the arithmetic of samples and axes does not round. -/
instance : Scalar Rat where
  decidableLT := inferInstance
  decidableLE := inferInstance
  ofNat := Nat.cast
  abs x := |x|
  isNaN _ := false
  wholePart x := ⌊x⌋₊

instance : OrderedScalar Rat where
  isNumber_of_lt _ := ⟨rfl, rfl⟩
  isNumber_of_le _ := ⟨rfl, rfl⟩
  not_lt_iff_le _ _ := not_lt

@[simp]
theorem zero_rat : (Scalar.zero : Rat) = 0 := Nat.cast_zero

@[simp]
theorem one_rat : (Scalar.one : Rat) = 1 := Nat.cast_one

@[simp]
theorem half_rat (x : Rat) : Scalar.half x = x / 2 := rfl

end InSitu
