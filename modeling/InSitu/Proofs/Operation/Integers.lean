import Mathlib
import InSitu.Operation.Operator

/-!
# Operators on integers

On two integers an operator yields the exact result, or a refusal that names the operands.  It
refuses exactly what no word holds, division by zero, and one remainder that a word would hold:
that of the least word by minus one, whose quotient lies one above the largest word.
-/

namespace InSitu

/-- A quotient cut toward zero with its remainder, which is smaller than the divisor and has the
sign of the dividend unless it is zero. -/
structure IsDivision (dividend divisor quotient remainder : Int) : Prop where
  recovers : quotient * divisor + remainder = dividend
  smaller : |remainder| < |divisor|
  sameSign : remainder ≠ 0 → remainder.sign = dividend.sign

section Division

variable {dividend divisor quotient remainder : Int}

theorem IsDivision.divisor_ne_zero
    (division : IsDivision dividend divisor quotient remainder) : divisor ≠ 0 := by
  rintro rfl
  have smaller := division.smaller
  rw [abs_zero] at smaller
  exact smaller.not_ge (abs_nonneg remainder)

theorem isDivision_tdiv_tmod (dividend : Int) (nonzero : divisor ≠ 0) :
    IsDivision dividend divisor (dividend.tdiv divisor) (dividend.tmod divisor) where
  recovers := Int.tdiv_mul_add_tmod dividend divisor
  smaller := by
    rw [Int.abs_eq_natAbs, Int.abs_eq_natAbs, Int.natAbs_tmod]
    exact_mod_cast Nat.mod_lt _ (Int.natAbs_pos.mpr nonzero)
  sameSign some := by
    rw [Int.sign_tmod, if_neg]
    exact fun divides => some (Int.dvd_iff_tmod_eq_zero.mp divides)

/-- Two remainders of one sign are less than a divisor apart. -/
theorem IsDivision.abs_sub_lt {otherQuotient otherRemainder : Int}
    (division : IsDivision dividend divisor quotient remainder)
    (other : IsDivision dividend divisor otherQuotient otherRemainder) :
    |remainder - otherRemainder| < |divisor| := by
  rcases eq_or_ne remainder 0 with rfl | nonzero
  · simpa using other.smaller
  rcases eq_or_ne otherRemainder 0 with rfl | otherNonzero
  · simpa using division.smaller
  have same := (division.sameSign nonzero).trans (other.sameSign otherNonzero).symm
  have smaller := abs_lt.mp division.smaller
  have otherSmaller := abs_lt.mp other.smaller
  rcases lt_or_gt_of_ne nonzero with negative | positive
  · rw [Int.sign_eq_neg_one_of_neg negative, eq_comm, Int.sign_eq_neg_one_iff_neg] at same
    exact abs_lt.mpr ⟨by omega, by omega⟩
  · rw [Int.sign_eq_one_of_pos positive, eq_comm, Int.sign_eq_one_iff_pos] at same
    exact abs_lt.mpr ⟨by omega, by omega⟩

theorem IsDivision.unique {otherQuotient otherRemainder : Int}
    (division : IsDivision dividend divisor quotient remainder)
    (other : IsDivision dividend divisor otherQuotient otherRemainder) :
    quotient = otherQuotient ∧ remainder = otherRemainder := by
  have apart : remainder - otherRemainder = (otherQuotient - quotient) * divisor := by
    linarith only [division.recovers, other.recovers]
  have divides : |divisor| ∣ remainder - otherRemainder :=
    (abs_dvd divisor _).mpr (Dvd.intro_left _ apart.symm)
  have same := Int.eq_zero_of_abs_lt_dvd divides (division.abs_sub_lt other)
  rw [same, zero_eq_mul, or_iff_left division.divisor_ne_zero] at apart
  exact ⟨(Int.sub_eq_zero.mp apart).symm, Int.sub_eq_zero.mp same⟩

/-- There is one division, the one that the operators use. -/
theorem isDivision_iff (nonzero : divisor ≠ 0) :
    IsDivision dividend divisor quotient remainder ↔
      quotient = dividend.tdiv divisor ∧ remainder = dividend.tmod divisor := by
  constructor
  · exact fun division => division.unique (isDivision_tdiv_tmod dividend nonzero)
  · rintro ⟨rfl, rfl⟩
    exact isDivision_tdiv_tmod dividend nonzero

end Division

theorem int64?_eq_some_iff {value : Int} {word : Int64} :
    Number.int64? value = some word ↔ word.toInt = value := by
  rw [Number.int64?]
  constructor
  · intro held
    split at held
    · rename_i within
      cases held
      exact Int64.toInt_ofInt_of_le within.1 (Int.lt_add_one_of_le within.2)
    · cases held
  · rintro rfl
    rw [if_pos ⟨word.le_toInt, word.toInt_le⟩, Int64.ofInt_toInt]

/-- The quotient of the least word by minus one is the only one that no word holds. -/
theorem exists_toInt_eq_tdiv_iff (left right : Int64) :
    (∃ quotient : Int64, quotient.toInt = left.toInt.tdiv right.toInt) ↔
      ¬ (left = Int64.minValue ∧ right = -1) := by
  constructor
  · rintro ⟨quotient, isQuotient⟩ ⟨rfl, rfl⟩
    have within := quotient.toInt_le
    rw [isQuotient] at within
    exact absurd within (by decide)
  · intro ordinary
    refine ⟨left / right, ?_⟩
    rcases not_and_or.mp ordinary with other | other
    · exact Int64.toInt_div_of_ne_left left right other
    · exact Int64.toInt_div_of_ne_right left right other

/-! ## Operators -/

namespace MathOperator

/-- The result of an operator on integers of any size. -/
def IsExact (operator : MathOperator) (left right result : Int) : Prop :=
  match operator with
  | .add => result = left + right
  | .sub => result = left - right
  | .mul => result = left * right
  | .div => ∃ remainder, IsDivision left right result remainder
  | .mod => ∃ quotient, IsDivision left right quotient result

/-- The remainder of the least word by minus one: zero, but without a quotient. -/
def IsUndivided (operator : MathOperator) (left right : Int64) : Prop :=
  operator = .mod ∧ left = Int64.minValue ∧ right = -1

instance (operator : MathOperator) (left right : Int64) :
    Decidable (operator.IsUndivided left right) :=
  inferInstanceAs (Decidable (_ ∧ _ ∧ _))

/-- What is said of operands that are refused. -/
def refusal (operator : MathOperator) (left right : Int64) : BadArgument :=
  if (operator = .div ∨ operator = .mod) ∧ right = 0 then .divisionByZero operator.symbol
  else .overflow left operator.symbol right

variable {operator : MathOperator} {left right result : Int64}

theorem isExact_div_iff {dividend divisor quotient : Int} (nonzero : divisor ≠ 0) :
    MathOperator.div.IsExact dividend divisor quotient ↔ quotient = dividend.tdiv divisor := by
  simp [IsExact, isDivision_iff nonzero]

theorem isExact_mod_iff {dividend divisor remainder : Int} (nonzero : divisor ≠ 0) :
    MathOperator.mod.IsExact dividend divisor remainder ↔ remainder = dividend.tmod divisor := by
  simp [IsExact, isDivision_iff nonzero]

theorem onIntegers?_eq_some_iff
    (nonzero : operator = .div ∨ operator = .mod → right ≠ 0) :
    operator.onIntegers? left right = some result ↔
      operator.IsExact left.toInt right.toInt result.toInt ∧
        ¬ operator.IsUndivided left right := by
  have nonzero : operator = .div ∨ operator = .mod → right.toInt ≠ 0 := fun divides isZero =>
    nonzero divides (Int64.toInt_inj.mp isZero)
  cases operator with
  | add =>
      simp [onIntegers?, int64?_eq_some_iff, IsExact, IsUndivided]
  | sub =>
      simp [onIntegers?, int64?_eq_some_iff, IsExact, IsUndivided]
  | mul =>
      simp [onIntegers?, int64?_eq_some_iff, IsExact, IsUndivided]
  | div =>
      simp [onIntegers?, int64?_eq_some_iff, isExact_div_iff (nonzero (.inl rfl)), IsUndivided]
  | mod =>
      simp only [onIntegers?, Option.bind_eq_some_iff, int64?_eq_some_iff, exists_and_right,
        exists_toInt_eq_tdiv_iff, isExact_mod_iff (nonzero (.inr rfl)), IsUndivided, true_and]
      exact and_comm

theorem not_isExact_of_divides (divides : operator = .div ∨ operator = .mod) (dividend value : Int) :
    ¬ operator.IsExact dividend 0 value := by
  rcases divides with rfl | rfl
  · exact fun ⟨_, division⟩ => division.divisor_ne_zero rfl
  · exact fun ⟨_, division⟩ => division.divisor_ne_zero rfl

theorem onIntegers_eq_ok_iff (node : String) :
    operator.onIntegers node left right = .ok result ↔
      operator.IsExact left.toInt right.toInt result.toInt ∧
        ¬ operator.IsUndivided left right := by
  rw [onIntegers]
  split
  · rename_i byZero
    obtain ⟨divides, rfl⟩ := byZero
    exact iff_of_false nofun fun exact => not_isExact_of_divides divides _ _ exact.1
  · rename_i notByZero
    rw [← onIntegers?_eq_some_iff fun divides isZero => notByZero ⟨divides, isZero⟩]
    cases operator.onIntegers? left right <;> simp

/-- Operands without a result are refused by name. -/
theorem onIntegers_eq_error_iff (node : String) (fault : Fault) :
    operator.onIntegers node left right = .error fault ↔
      fault = .badArgument node (operator.refusal left right) ∧
        ∀ result, operator.onIntegers node left right ≠ .ok result := by
  rw [onIntegers, refusal]
  split
  · simp [eq_comm]
  · cases operator.onIntegers? left right <;> simp [eq_comm]

end MathOperator

namespace Operator

theorem apply_int_int (operator : MathOperator) (node : String) (left right : Int64) :
    (Operator.math operator).apply node (some (.int left)) (.int right) =
      (operator.onIntegers node left right).map .int := rfl

section Words

variable {operator : MathOperator} {node : String} {left right : Int64}

theorem apply_int_eq_ok_iff {value : Value} :
    (math operator).apply node (some (.int left)) (.int right) = .ok value ↔
      ∃ result : Int64, value = .int result ∧
        operator.IsExact left.toInt right.toInt result.toInt ∧
        ¬ operator.IsUndivided left right := by
  simp only [apply_int_int, ← MathOperator.onIntegers_eq_ok_iff node]
  cases operator.onIntegers node left right <;> simp [Except.map, eq_comm]

theorem apply_int_eq_error_iff {fault : Fault} :
    (math operator).apply node (some (.int left)) (.int right) = .error fault ↔
      fault = .badArgument node (operator.refusal left right) ∧
        ¬ ∃ result : Int64, operator.IsExact left.toInt right.toInt result.toInt ∧
          ¬ operator.IsUndivided left right := by
  have refuses : operator.onIntegers node left right = .error fault ↔ _ :=
    MathOperator.onIntegers_eq_error_iff node fault
  simp only [← MathOperator.onIntegers_eq_ok_iff node, not_exists]
  rw [apply_int_int, ← refuses]
  cases operator.onIntegers node left right <;> simp [Except.map]

/-- A quotient and a remainder that are both returned recover the dividend. -/
theorem recovers_of_apply_div_of_apply_mod {quotient remainder : Int64}
    (divides : (math .div).apply node (some (.int left)) (.int right) = .ok (.int quotient))
    (leaves : (math .mod).apply node (some (.int left)) (.int right) = .ok (.int remainder)) :
    quotient.toInt * right.toInt + remainder.toInt = left.toInt := by
  obtain ⟨_, same, ⟨other, division⟩, _⟩ := apply_int_eq_ok_iff.mp divides
  cases same
  obtain ⟨_, same, ⟨otherQuotient, otherDivision⟩, _⟩ := apply_int_eq_ok_iff.mp leaves
  cases same
  rw [← (division.unique otherDivision).2]
  exact division.recovers

end Words

/-- On two integers an operator yields the exact result if a word holds it and there is a divisor,
apart from the remainder of the least word by minus one; all other operands are refused.  Where
division has a quotient and a remainder, these recover the dividend. -/
theorem apply_integers_exact (operator : MathOperator) (node : String) (left right : Int64) :
    (∀ value, (math operator).apply node (some (.int left)) (.int right) = .ok value ↔
      ∃ result : Int64, value = .int result ∧
        operator.IsExact left.toInt right.toInt result.toInt ∧
        ¬ operator.IsUndivided left right) ∧
      (∀ fault, (math operator).apply node (some (.int left)) (.int right) = .error fault ↔
        fault = .badArgument node (operator.refusal left right) ∧
          ¬ ∃ result : Int64, operator.IsExact left.toInt right.toInt result.toInt ∧
            ¬ operator.IsUndivided left right) ∧
      ∀ quotient remainder : Int64,
        (math .div).apply node (some (.int left)) (.int right) = .ok (.int quotient) →
        (math .mod).apply node (some (.int left)) (.int right) = .ok (.int remainder) →
        quotient.toInt * right.toInt + remainder.toInt = left.toInt :=
  ⟨fun _ => apply_int_eq_ok_iff, fun _ => apply_int_eq_error_iff,
    fun _ _ => recovers_of_apply_div_of_apply_mod⟩

theorem apply_minusSeven_by_two :
    (math .div).apply "halves" (some (.int (-7))) (.int 2) = .ok (.int (-3)) ∧
      (math .mod).apply "halves" (some (.int (-7))) (.int 2) = .ok (.int (-1)) ∧
      (-3 : Int64).toInt * (2 : Int64).toInt + (-1 : Int64).toInt = (-7 : Int64).toInt :=
  ⟨rfl, rfl, (apply_integers_exact .div "halves" (-7) 2).2.2 (-3) (-1) rfl rfl⟩

/-- The remainder of the least word by minus one is zero, and it is refused as an overflow. -/
theorem apply_mod_minValue_refused :
    (-1 : Int64) ≠ 0 ∧
      MathOperator.mod.IsExact Int64.minValue.toInt (-1 : Int64).toInt (0 : Int64).toInt ∧
      (math .mod).apply "remainder" (some (.int Int64.minValue)) (.int (-1)) =
        .error (.badArgument "remainder" (.overflow Int64.minValue "%" (-1))) := by
  refine ⟨by decide, (MathOperator.isExact_mod_iff (by decide)).mpr (by decide), rfl⟩

end Operator

end InSitu
