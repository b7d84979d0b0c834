import InSitu.Proofs.Number.Rounding

/-!
# Words among the doubles

A word may be rounded when it becomes a double, but that double is an integer
again.  Cut back to a word it gives the same double, also where rounding has
left the words.  So the doubles that survive being cut are those of words.
-/

namespace InSitu.Number

/-- The value of a rounded mantissa is that of its leading bits. -/
theorem RoundsTo.value {mantissa rounded : Nat} {exponent raised : Int}
    (rounds : RoundsTo mantissa exponent rounded raised) :
    (rounded : ℚ) * 2 ^ raised =
      nearest mantissa (mantissa.log2 - 52) * 2 ^ (exponent + (mantissa.log2 - 52 : Nat)) := by
  rcases rounds.parts with ⟨rfl, rfl, _⟩ | ⟨full, rfl, rfl⟩
  · rfl
  · rw [full, zpow_add_one₀ two_ne_zero]
    push_cast
    ring

theorem nearest_of_short {natural : Nat} (short : natural.log2 < 53) :
    nearest (natural * 2 ^ 53) (natural.log2 + 1) = natural * 2 ^ (52 - natural.log2) := by
  have moved : natural * 2 ^ 53 = natural * 2 ^ (52 - natural.log2) * 2 ^ (natural.log2 + 1) := by
    rw [Nat.mul_assoc, ← pow_add]
    congr 2
    omega
  rw [moved, nearest_mul_two_pow]

theorem nearest_le_of_le {natural : Nat} (positive : 0 < natural) (inWord : natural ≤ 2 ^ 63) :
    nearest (natural * 2 ^ 53) (natural.log2 + 1) ≤ 2 ^ (115 - natural.log2) := by
  have log : natural.log2 < 64 := (Nat.log2_lt positive.ne').mpr (by omega)
  have moved : 2 ^ 63 * 2 ^ 53 = 2 ^ (115 - natural.log2) * 2 ^ (natural.log2 + 1) := by
    rw [← pow_add, ← pow_add]
    congr 1
    omega
  rw [← nearest_mul_two_pow (2 ^ (115 - natural.log2)) (natural.log2 + 1), ← moved]
  exact nearest_mono (Nat.mul_le_mul_right _ inWord) _

/-- The leading bits of a natural number up to `2 ^ 63` are those of such a number. -/
theorem exists_nearest_eq {natural : Nat} (positive : 0 < natural) (inWord : natural ≤ 2 ^ 63) :
    ∃ whole : Nat, whole ≤ 2 ^ 63 ∧
      (nearest (natural * 2 ^ 53) (natural.log2 + 1) : ℚ) * 2 ^ ((natural.log2 : Int) - 52) =
        whole := by
  rcases Nat.lt_or_ge natural.log2 53 with short | long
  · have lowered : (natural.log2 : Int) - 52 = -((52 - natural.log2 : Nat) : Int) := by
      omega
    refine ⟨natural, inWord, ?_⟩
    rw [nearest_of_short short, lowered, zpow_neg, zpow_natCast]
    push_cast
    field_simp
  · have log : natural.log2 < 64 := (Nat.log2_lt positive.ne').mpr (by omega)
    have raised : (natural.log2 : Int) - 52 = ((natural.log2 - 52 : Nat) : Int) := by
      omega
    refine ⟨nearest (natural * 2 ^ 53) (natural.log2 + 1) * 2 ^ (natural.log2 - 52), ?_, ?_⟩
    · calc
        nearest (natural * 2 ^ 53) (natural.log2 + 1) * 2 ^ (natural.log2 - 52) ≤
            2 ^ (115 - natural.log2) * 2 ^ (natural.log2 - 52) :=
          Nat.mul_le_mul_right _ (nearest_le_of_le positive inWord)
        _ = 2 ^ 63 := by
          rw [← pow_add]
          congr 1
          omega
    · rw [raised, zpow_natCast]
      push_cast
      rfl

/-- A natural number up to `2 ^ 63` becomes such a number. -/
theorem exists_isInteger_ofNat {natural : Nat} (positive : 0 < natural)
    (inWord : natural ≤ 2 ^ 63) :
    ∃ whole : Nat, 0 < whole ∧ whole ≤ 2 ^ 63 ∧ IsInteger (Float.ofNat natural) whole := by
  obtain ⟨_, rounded, raised, roundsTo, parts⟩ :=
    exists_ofNat_roundsTo positive (by omega : natural < 2 ^ 64)
  have places : (natural * 2 ^ 53).log2 - 52 = natural.log2 + 1 := by
    rw [log2_mul_two_pow positive]
    omega
  have exponent : (-53 : Int) + (natural.log2 + 1 : Nat) = (natural.log2 : Int) - 52 := by
    omega
  obtain ⟨whole, wholeInWord, isWhole⟩ := exists_nearest_eq positive inWord
  have value : (rounded : ℚ) * 2 ^ raised = whole := by
    rw [roundsTo.value, places, exponent, isWhole]
  have above : (0 : ℚ) < whole := by
    have roundedPositive := roundsTo.fits.positive
    rw [← value]
    positivity
  refine ⟨whole, by exact_mod_cast above, wholeInWord, ?_⟩
  rw [IsInteger, parts]
  exact value

theorem ofInt64_of_negative {word : Int64} (negative : word.toInt < 0) :
    ofInt64 word = -Float.ofNat (-word.toInt).toNat := by
  obtain ⟨previous, isPrevious⟩ := Int.eq_negSucc_of_lt_zero negative
  rw [ofInt64, isPrevious]
  rfl

/-- A word becomes an integer, which may lie one above the largest word. -/
theorem exists_isInteger_ofInt64 (word : Int64) :
    ∃ integer : Int, -2 ^ 63 ≤ integer ∧ integer ≤ 2 ^ 63 ∧ IsInteger (ofInt64 word) integer ∧
      (word.toInt < 0 → integer < 0) := by
  have below := word.toInt_lt
  have above := word.le_toInt
  rcases lt_trichotomy word.toInt 0 with negative | zero | positive
  · obtain ⟨whole, wholePositive, inWord, isInteger⟩ :=
      exists_isInteger_ofNat (by omega : 0 < (-word.toInt).toNat) (by omega)
    refine ⟨-whole, by omega, by omega, ?_, by omega⟩
    rw [ofInt64_of_negative negative]
    exact isInteger.neg (by omega)
  · refine ⟨0, by omega, by omega, ?_, by omega⟩
    rw [ofInt64, zero]
    exact ⟨rfl, rfl⟩
  · obtain ⟨whole, _, inWord, isInteger⟩ :=
      exists_isInteger_ofNat (by omega : 0 < word.toInt.toNat) (by omega)
    refine ⟨whole, by omega, by omega, ?_, by omega⟩
    rwa [ofInt64_of_natural positive.le]

theorem ofInt64_lt_zero_iff (word : Int64) : ofInt64 word < 0 ↔ word.toInt < 0 := by
  constructor
  · intro below
    by_contra natural
    exact not_ofInt64_lt_zero (Int.not_lt.mp natural) below
  · obtain ⟨_, _, _, isInteger, isNegative⟩ := exists_isInteger_ofInt64 word
    exact fun negative => isInteger.lt_zero (isNegative negative)

/-- Equal doubles, and what is no number is like all that is none. -/
def Same (x y : Float) : Prop := (x == y) = true ∨ x.isNaN = true ∧ y.isNaN = true

instance (x y : Float) : Decidable (Same x y) :=
  inferInstanceAs (Decidable ((x == y) = true ∨ x.isNaN = true ∧ y.isNaN = true))

/-- The double of a word, or minus zero. -/
def IsWord (x : Float) : Prop := ∃ word : Int64, (x == ofInt64 word) = true

/-- A double cut to a word, as a double. -/
def cut (x : Float) : Float := ofInt64 (toInt64 x)

theorem same_self (x : Float) : Same x x := by
  by_cases isNaN : x.isNaN
  · exact .inr ⟨isNaN, isNaN⟩
  · rw [Float.isNaN_eq_decide_eq_nan, decide_eq_true_eq] at isNaN
    exact .inl (Float.beq_self_iff.mpr isNaN)

/-- Rounding beyond the words is undone when the double is cut. -/
theorem cut_ofInt64 (word : Int64) : cut (ofInt64 word) = ofInt64 word := by
  obtain ⟨integer, atLeast, atMost, isInteger, _⟩ := exists_isInteger_ofInt64 word
  rcases atMost.lt_or_eq with inWord | rfl
  · have held : (Int64.ofInt integer).toInt = integer := Int64.toInt_ofInt_of_le atLeast inWord
    rw [← held] at isInteger
    obtain ⟨isCut, restored⟩ := toInt64_and_ofInt_of_isInteger isInteger
    rw [cut, isCut]
    exact restored
  · have limit : ofInt64 word = Float.ofNat (2 ^ 63) := isInteger.eq_ofNat (by decide)
    rw [limit]
    decide +kernel

theorem same_cut_iff (x : Float) : Same (cut x) x ↔ IsWord x := by
  constructor
  · rintro (same | ⟨isNaN, _⟩)
    · exact ⟨toInt64 x, BEq.symm same⟩
    · obtain ⟨_, _, _, isInteger, _⟩ := exists_isInteger_ofInt64 (toInt64 x)
      exact absurd isNaN (Bool.eq_false_iff.mp isInteger.isNaN_eq_false)
  · rintro ⟨word, isWord⟩
    obtain ⟨isNumber, _, rfl | ⟨rfl, _⟩ | ⟨rfl, _⟩⟩ := Float.beq_iff_ne_nan_and_eq.mp isWord
    · rw [cut_ofInt64]
      exact same_self _
    · exact .inl (by decide +kernel)
    · exact .inl (by decide +kernel)

end InSitu.Number
