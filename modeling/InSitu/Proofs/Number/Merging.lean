import InSitu.Proofs.Number.Words

/-!
# Words that become one double

Up to `2 ^ 53` every word is exactly its double.  Beyond, neighbouring words
share a double, and of the order of words only that between doubles is left.
-/

namespace InSitu.Number

open Float.Model (UnpackedFloat)

theorem Shifts.value {mantissa natural : Nat} {exponent : Int}
    (shifts : Shifts mantissa exponent natural) : (mantissa : ℚ) * 2 ^ exponent = natural := by
  cases shifts with
  | left places =>
      rw [zpow_natCast]
      push_cast
      rfl
  | right places natural dropped =>
      rw [dropped, zpow_neg, zpow_natCast]
      push_cast
      field_simp

theorem isInteger_ofNat_of_shifts {mantissa natural : Nat} {exponent : Int}
    (fits : FitsFormat mantissa exponent) (shifts : Shifts mantissa exponent natural) :
    IsInteger (Float.ofNat natural) natural := by
  rw [IsInteger, ofNat_of_shifts fits shifts]
  exact shifts.value

theorem isInteger_ofNat_of_le {natural : Nat} (small : natural ≤ 2 ^ 53) :
    IsInteger (Float.ofNat natural) natural := by
  rcases Nat.eq_zero_or_pos natural with rfl | positive
  · exact ⟨rfl, rfl⟩
  · rcases small.lt_or_eq with below | rfl
    · -- The bits are moved to the top of the mantissa.
      have short : natural.log2 < 53 := (Nat.log2_lt positive.ne').mpr below
      have fits : FitsFormat (natural * 2 ^ (52 - natural.log2)) (-(52 - natural.log2 : Nat)) := by
        apply (fitsFormat_iff _ _).mpr
        refine ⟨by positivity, by omega, .inl ⟨?_, by omega⟩⟩
        rw [log2_mul_two_pow positive]
        omega
      exact isInteger_ofNat_of_shifts fits (.right (52 - natural.log2) natural rfl)
    · have fits : FitsFormat (2 ^ 52) 1 :=
        (fitsFormat_iff _ _).mpr ⟨by decide, by decide, .inl ⟨Nat.log2_two_pow, by decide⟩⟩
      exact isInteger_ofNat_of_shifts fits (.left 1)

theorem isInteger_ofInt64_of_small {word : Int64} (small : word.toInt.natAbs ≤ 2 ^ 53) :
    IsInteger (ofInt64 word) word.toInt := by
  rcases Int.lt_or_le word.toInt 0 with negative | natural
  · have opposite : IsInteger (Float.ofNat (-word.toInt).toNat) (-word.toInt).toNat :=
      isInteger_ofNat_of_le (by omega)
    have restored : word.toInt = -((-word.toInt).toNat : Int) := by
      omega
    rw [ofInt64_of_negative negative]
    conv_rhs => rw [restored]
    exact opposite.neg (by omega)
  · have same : IsInteger (Float.ofNat word.toInt.toNat) word.toInt.toNat :=
      isInteger_ofNat_of_le (by omega)
    rw [Int.toNat_of_nonneg natural] at same
    rwa [ofInt64_of_natural natural]

theorem IsInteger.unique {x : Float} {first second : Int} (isFirst : IsInteger x first)
    (isSecond : IsInteger x second) : first = second := by
  rw [IsInteger] at isFirst isSecond
  cases parts : x.toModel.unpack with
  | zero sign =>
      rw [parts] at isFirst isSecond
      exact isFirst.2.trans isSecond.2.symm
  | finite sign mantissa exponent positive =>
      rw [parts] at isFirst isSecond
      exact_mod_cast isFirst.symm.trans isSecond
  | _ =>
      rw [parts] at isFirst
      cases isFirst

theorem IsInteger.ne_negativeZero {x : Float} {integer : Int} (isInteger : IsInteger x integer) :
    x ≠ -0 := by
  rintro rfl
  exact Bool.noConfusion (congrArg (· == UnpackedFloat.Sign.positive) isInteger.1)

theorem beq_of_le_of_le {x y : Float} (below : x ≤ y) (above : y ≤ x) : (x == y) = true := by
  have swapped : comparison? y x = (comparison? x y).map Ordering.swap := compare_swap _ _
  have equal : (x == y) = (comparison? x y == some .eq) := rfl
  rw [le_iff_comparison?] at below above
  rw [equal, beq_iff_eq]
  rcases below with isBelow | same
  · rw [swapped, isBelow] at above
    simp at above
  · exact same

/-- Two integers of which neither is above the other are one double. -/
theorem IsInteger.eq_of_le_of_le {x y : Float} {first second : Int} (isFirst : IsInteger x first)
    (isSecond : IsInteger y second) (below : x ≤ y) (above : y ≤ x) : x = y := by
  obtain ⟨_, _, same | ⟨_, isNegative⟩ | ⟨isNegative, _⟩⟩ :=
    Float.beq_iff_ne_nan_and_eq.mp (beq_of_le_of_le below above)
  · exact same
  · exact absurd isNegative isSecond.ne_negativeZero
  · exact absurd isNegative isFirst.ne_negativeZero

/-- Doubles of words are in order if the words are, or if they are one double. -/
theorem ofInt64_le_ofInt64_iff {first second : Int64} (firstNatural : 0 ≤ first.toInt)
    (secondNatural : 0 ≤ second.toInt) :
    ofInt64 first ≤ ofInt64 second ↔
      first.toInt ≤ second.toInt ∨ ofInt64 first = ofInt64 second := by
  obtain ⟨_, _, _, firstInteger, _⟩ := exists_isInteger_ofInt64 first
  obtain ⟨_, _, _, secondInteger, _⟩ := exists_isInteger_ofInt64 second
  constructor
  · intro below
    by_cases ordered : first.toInt ≤ second.toInt
    · exact .inl ordered
    · have above := ofInt64_le_ofInt64 secondNatural (Int.not_le.mp ordered).le
      exact .inr (firstInteger.eq_of_le_of_le secondInteger below above)
  · rintro (ordered | merged)
    · exact ofInt64_le_ofInt64 firstNatural ordered
    · rw [merged]
      exact ofInt64_le_ofInt64 secondNatural le_rfl

/-- A word below `2 ^ 53` shares its double with no other. -/
theorem toInt_eq_of_ofInt64_eq {first second : Int64} (firstNatural : 0 ≤ first.toInt)
    (secondNatural : 0 ≤ second.toInt) (small : second.toInt < 2 ^ 53)
    (merged : ofInt64 first = ofInt64 second) : first.toInt = second.toInt := by
  have secondExact : IsInteger (ofInt64 second) second.toInt :=
    isInteger_ofInt64_of_small (by omega)
  by_cases firstSmall : first.toInt ≤ 2 ^ 53
  · have firstExact : IsInteger (ofInt64 first) first.toInt :=
      isInteger_ofInt64_of_small (by omega)
    rw [merged] at firstExact
    exact firstExact.unique secondExact
  · -- The doubles of all words between the two would be one.
    have limit : (0x20000000000000 : Int64).toInt = 2 ^ 53 := rfl
    have limitExact : IsInteger (ofInt64 0x20000000000000) (0x20000000000000 : Int64).toInt :=
      isInteger_ofInt64_of_small (by decide)
    have above : ofInt64 0x20000000000000 ≤ ofInt64 first :=
      ofInt64_le_ofInt64 (by decide) (by omega)
    have below : ofInt64 second ≤ ofInt64 0x20000000000000 :=
      ofInt64_le_ofInt64 secondNatural (by omega)
    rw [merged] at above
    rw [limitExact.eq_of_le_of_le secondExact above below] at limitExact
    have same := limitExact.unique secondExact
    omega

end InSitu.Number
