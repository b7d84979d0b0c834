import InSitu.Proofs.Number.Extended

/-!
# The nearest double

A number is rounded to a whole number of grains, to the even one of two that are equally near, and
then to infinity if it is too large.  The grain depends on the number, so that 53 bits are kept.
Rounding keeps the order, and it is what the shifts of a mantissa with its two extra bits compute.
-/

namespace InSitu.Number

open Float.Model (Format totalExponent UnpackedFloat)
open Float.Model.UnpackedFloat

/-- Twice a number, rounded down and rounded up.  The sum holds the whole part, whether a half is
left, and whether anything else is left. -/
noncomputable def mark (x : ℝ) : ℕ := ⌊x + x⌋₊ + ⌈x + x⌉₊

theorem mark_eq (x : ℝ) : mark x = ⌊2 * x⌋₊ + ⌈2 * x⌉₊ := by
  rw [mark, two_mul]

theorem mark_mono {x y : ℝ} (below : x ≤ y) : mark x ≤ mark y :=
  Nat.add_le_add (Nat.floor_mono (by linarith)) (Nat.ceil_mono (by linarith))

theorem mark_natCast (natural : ℕ) : mark natural = 4 * natural := by
  rw [mark, ← Nat.cast_add, Nat.floor_natCast, Nat.ceil_natCast]
  omega

/-- What doubling does to a number rounded down and rounded up. -/
theorem floor_ceil_two_mul (x : ℝ) :
    ⌊x⌋₊ = ⌊2 * x⌋₊ / 2 ∧ ⌈x⌉₊ = (⌈2 * x⌉₊ + 1) / 2 ∧
      ⌊2 * x⌋₊ ≤ ⌈2 * x⌉₊ ∧ ⌈2 * x⌉₊ ≤ ⌊2 * x⌋₊ + 1 := by
  refine ⟨?_, ?_, Nat.floor_le_ceil _, Nat.ceil_le_floor_add_one _⟩
  · rw [← Nat.floor_div_ofNat, mul_div_cancel_left₀ x two_ne_zero]
  · refine eq_of_forall_ge_iff fun limit => ?_
    have doubled : x ≤ limit ↔ 2 * x ≤ (2 * limit : ℕ) := by
      push_cast
      constructor <;> intro below <;> linarith
    rw [Nat.ceil_le, doubled, ← Nat.ceil_le]
    omega

theorem floor_eq_mark_div (x : ℝ) : ⌊x⌋₊ = mark x / 4 := by
  obtain ⟨down, _, ordered, near⟩ := floor_ceil_two_mul x
  rw [mark_eq, down]
  omega

theorem mark_half (x : ℝ) :
    mark (x / 2) = mark x / 8 * 4 + mark x / 4 % 2 * 2 + min (mark x % 4) 1 := by
  obtain ⟨down, up, ordered, near⟩ := floor_ceil_two_mul x
  rw [mark, add_halves, mark_eq, down, up]
  omega

section BelowOne

variable {x : ℝ}

theorem mark_of_lt_half (positive : 0 < 2 * x) (below : 2 * x < 1) : mark x = 1 := by
  have ceil : ⌈2 * x⌉₊ = 1 := by
    rw [Nat.ceil_eq_iff one_ne_zero, Nat.sub_self, Nat.cast_zero, Nat.cast_one]
    exact ⟨positive, below.le⟩
  rw [mark_eq, Nat.floor_eq_zero.mpr below, ceil]

theorem mark_of_eq_half (isHalf : 2 * x = 1) : mark x = 2 := by
  rw [mark_eq, isHalf, Nat.floor_one, Nat.ceil_one]

theorem mark_of_half_lt (above : 1 < 2 * x) (below : 2 * x < 2) : mark x = 3 := by
  have floor : ⌊2 * x⌋₊ = 1 := by
    rw [Nat.floor_eq_iff (zero_le_one.trans above.le), Nat.cast_one, one_add_one_eq_two]
    exact ⟨above.le, below⟩
  have ceil : ⌈2 * x⌉₊ = 2 := by
    rw [Nat.ceil_eq_iff two_ne_zero, Nat.cast_ofNat]
    exact ⟨by simpa using above, below.le⟩
  rw [mark_eq, floor, ceil]

end BelowOne

theorem mark_natCast_add (natural : ℕ) {rest : ℝ} (atLeast : 0 ≤ rest) :
    mark (natural + rest) = 4 * natural + mark rest := by
  have twice : 2 * (natural + rest) = 2 * rest + (2 * natural : ℕ) := by
    push_cast
    ring
  rw [mark_eq, mark_eq, twice, Nat.floor_add_natCast (by positivity),
    Nat.ceil_add_natCast (by positivity)]
  omega

theorem weight_shiftRight {extended : ExtendedMantissa} {x : ℝ} (marked : weight extended = mark x)
    (places : ℕ) : weight (extended >>> places) = mark (x / 2 ^ places) := by
  induction places with
  | zero =>
      rw [shiftRight_zero, pow_zero, div_one, marked]
  | succ places inductionHypothesis =>
      change weight (extended >>> places).shiftRightOne = _
      rw [weight_shiftRightOne, inductionHypothesis, pow_succ, ← div_div, mark_half]

/-- The nearest natural number, the even one of two that are equally near. -/
noncomputable def nearestWhole (x : ℝ) : ℕ := (mark x + 1 + mark x / 4 % 2) / 4

theorem nearestWhole_mono {x y : ℝ} (below : x ≤ y) : nearestWhole x ≤ nearestWhole y := by
  have marks := mark_mono below
  rw [nearestWhole, nearestWhole]
  rcases Nat.mod_two_eq_zero_or_one (mark x / 4) with even | odd <;>
    rcases Nat.mod_two_eq_zero_or_one (mark y / 4) with even' | odd' <;> omega

theorem nearestWhole_natCast (natural : ℕ) : nearestWhole natural = natural := by
  rw [nearestWhole, mark_natCast]
  omega

theorem two_pow_mul_zpow (places : ℕ) (exponent : ℤ) :
    (2 : ℝ) ^ places * 2 ^ exponent = 2 ^ (places + exponent) := by
  rw [zpow_add₀ two_ne_zero, zpow_natCast]

/-- The exponent that leaves a number 53 bits, or the least exponent. -/
noncomputable def grain (x : ℝ) : ℤ := max (Int.log 2 x - 52) (-1074)

/-- The nearest whole number of grains. -/
noncomputable def grained (x : ℝ) : ℝ :=
  let unit : ℝ := (2 : ℕ) ^ grain x
  nearestWhole (x / unit) * unit

theorem grained_eq (x : ℝ) : grained x = nearestWhole (x / 2 ^ grain x) * 2 ^ grain x := by
  rw [grained, Nat.cast_ofNat]

theorem grained_zero : grained 0 = 0 := by
  have none : nearestWhole 0 = 0 := by
    simpa using nearestWhole_natCast 0
  rw [grained_eq, zero_div, none, Nat.cast_zero, zero_mul]

theorem grained_nonneg (x : ℝ) : 0 ≤ grained x := by
  rw [grained_eq]
  positivity

section Positive

variable {x y : ℝ} (positive : 0 < x)

include positive in
theorem grain_mono (below : x ≤ y) : grain x ≤ grain y :=
  max_le_max (sub_le_sub_right (Int.log_mono_right positive below) _) le_rfl

theorem lt_two_pow_grain (x : ℝ) : x < 2 ^ (grain x + 53) := by
  have least : (2 : ℝ) ^ (Int.log 2 x + 1) ≤ 2 ^ (grain x + 53) :=
    zpow_le_zpow_right₀ one_le_two (by rw [grain]; omega)
  exact (Int.lt_zpow_succ_log_self one_lt_two x).trans_le (by exact_mod_cast least)

include positive in
/-- Above the least grain the first of the 53 bits is set. -/
theorem two_pow_grain_le (above : -1074 < grain x) : 2 ^ (grain x + 52) ≤ x := by
  have isLog : grain x + 52 = Int.log 2 x := by
    rw [grain] at above ⊢
    omega
  rw [isLog]
  exact_mod_cast Int.zpow_log_le_self one_lt_two positive

theorem nearestWhole_le (x : ℝ) : nearestWhole (x / 2 ^ grain x) ≤ 2 ^ 53 := by
  have below : x / 2 ^ grain x ≤ (2 ^ 53 : ℕ) := by
    rw [div_le_iff₀ (by positivity), Nat.cast_pow, Nat.cast_ofNat, two_pow_mul_zpow, add_comm]
    exact (lt_two_pow_grain x).le
  exact (nearestWhole_mono below).trans (nearestWhole_natCast _).le

include positive in
theorem le_nearestWhole (above : -1074 < grain x) : 2 ^ 52 ≤ nearestWhole (x / 2 ^ grain x) := by
  have atLeast : ((2 ^ 52 : ℕ) : ℝ) ≤ x / 2 ^ grain x := by
    rw [le_div_iff₀ (by positivity), Nat.cast_pow, Nat.cast_ofNat, two_pow_mul_zpow, add_comm]
    exact two_pow_grain_le positive above
  exact (nearestWhole_natCast _).ge.trans (nearestWhole_mono atLeast)

include positive in
theorem grained_mono (below : x ≤ y) : grained x ≤ grained y := by
  rcases (grain_mono positive below).lt_or_eq with finer | same
  · have above : -1074 < grain y := (le_max_right _ _).trans_lt finer
    have upper : (nearestWhole (x / 2 ^ grain x) : ℝ) ≤ 2 ^ 53 := by
      exact_mod_cast nearestWhole_le x
    -- Between two grains lies a power of two, which neither number is rounded across.
    have lower : (2 : ℝ) ^ 52 ≤ nearestWhole (y / 2 ^ grain y) := by
      exact_mod_cast le_nearestWhole (positive.trans_le below) above
    calc
      grained x ≤ 2 ^ 53 * 2 ^ grain x := by
        rw [grained_eq]
        gcongr
      _ = 2 ^ 52 * 2 ^ (grain x + 1) := by
        rw [zpow_add_one₀ two_ne_zero]
        ring
      _ ≤ 2 ^ 52 * 2 ^ grain y := by
        gcongr
        · exact one_le_two
        · omega
      _ ≤ grained y := by
        rw [grained_eq]
        gcongr
  · rw [grained_eq, grained_eq, same]
    gcongr
    exact nearestWhole_mono (by gcongr)

end Positive

/-- Numbers from the first power of two beyond the format on are infinite. -/
noncomputable def limited (x : ℝ) : EReal := if x < (2 ^ 1024 : ℕ) then x else ⊤

theorem limited_eq (x : ℝ) : limited x = if x < 2 ^ (1024 : ℤ) then (x : EReal) else ⊤ := by
  have limit : ((2 ^ 1024 : ℕ) : ℝ) = 2 ^ (1024 : ℤ) := by
    rw [Nat.cast_pow, Nat.cast_ofNat]
    exact (zpow_natCast 2 1024).symm
  rw [limited, limit]

@[simp]
theorem limited_zero : limited 0 = 0 := by
  rw [limited_eq, if_pos (by positivity), EReal.coe_zero]

theorem limited_mono {x y : ℝ} (below : x ≤ y) : limited x ≤ limited y := by
  rw [limited_eq, limited_eq]
  split_ifs with xSmall ySmall
  · exact EReal.coe_le_coe below
  · exact le_top
  · exact absurd (below.trans_lt ‹_›) xSmall
  · exact le_rfl

/-- The value of the double that an extended real number is rounded to. -/
noncomputable def rounded : EReal → EReal
  | ⊥ => ⊥
  | ⊤ => ⊤
  | (x : ℝ) => if x < 0 then -limited (grained (-x)) else limited (grained x)

@[simp]
theorem rounded_bot : rounded ⊥ = ⊥ := rfl

@[simp]
theorem rounded_top : rounded ⊤ = ⊤ := rfl

theorem rounded_coe (x : ℝ) :
    rounded x = if x < 0 then -limited (grained (-x)) else limited (grained x) := rfl

theorem limited_grained_nonneg (x : ℝ) : 0 ≤ limited (grained x) := by
  rw [← limited_zero]
  exact limited_mono (grained_nonneg x)

@[simp]
theorem rounded_zero : rounded 0 = 0 := by
  rw [← EReal.coe_zero, rounded_coe, if_neg (lt_irrefl _), grained_zero, limited_zero,
    EReal.coe_zero]

theorem limited_grained_mono {x y : ℝ} (natural : 0 ≤ x) (below : x ≤ y) :
    limited (grained x) ≤ limited (grained y) := by
  rcases natural.eq_or_lt with rfl | positive
  · rw [grained_zero]
    exact limited_mono (grained_nonneg y)
  · exact limited_mono (grained_mono positive below)

theorem rounded_mono : Monotone rounded := by
  intro x y below
  cases x with
  | bot =>
      exact bot_le
  | top =>
      rw [top_le_iff.mp below]
  | coe x =>
      cases y with
      | bot =>
          exact absurd below (EReal.bot_lt_coe x).not_ge
      | top =>
          exact le_top
      | coe y =>
          rw [EReal.coe_le_coe_iff] at below
          rw [rounded_coe, rounded_coe]
          split_ifs with xNegative yNegative yNegative
          · exact EReal.neg_le_neg_iff.mpr (limited_grained_mono (by linarith) (by linarith))
          · have negative := EReal.neg_le_neg_iff.mpr (limited_grained_nonneg (-x))
            rw [neg_zero] at negative
            exact negative.trans (limited_grained_nonneg y)
          · linarith
          · exact limited_grained_mono (not_lt.mp xNegative) below

/-- A number with the sign of a double. -/
def signed {α : Type} [Neg α] : Sign → α → α
  | .positive, x => x
  | .negative, x => -x

theorem valueOf_finite (sign : Sign) (mantissa : ℕ) (exponent : ℤ) (positive : 0 < mantissa) :
    valueOf (.finite sign mantissa exponent positive) =
      (signed sign (mantissa * 2 ^ exponent : ℝ) : ℝ) := by
  cases sign <;> rfl

theorem rounded_signed (sign : Sign) {x : ℝ} (natural : 0 ≤ x) :
    rounded (signed sign x : ℝ) = signed sign (limited (grained x)) := by
  cases sign with
  | positive =>
      exact if_neg natural.not_gt
  | negative =>
      rcases natural.eq_or_lt with rfl | positive
      · simp [signed, grained_zero]
      · rw [signed, rounded_coe, if_pos (neg_neg_of_pos positive), neg_neg]
        rfl

/-! ## Mantissas -/

/-- The mantissa with 53 bits is the number in grains. -/
theorem targetExponent_eq_grain {x : ℝ} (positive : 0 < x) {exponent : ℤ}
    (enough : 52 ≤ ⌊x / 2 ^ exponent⌋₊.log2 ∨ exponent ≤ -1074) :
    Format.binary64.targetExponent (totalExponent ⌊x / 2 ^ exponent⌋₊ exponent) = grain x := by
  rw [targetExponent_eq, grain]
  generalize whole : ⌊x / 2 ^ exponent⌋₊ = mantissa at *
  rcases Nat.eq_zero_or_pos mantissa with rfl | mantissaPositive
  · have small : x < 2 ^ exponent := by
      rw [Nat.floor_eq_zero, div_lt_one (by positivity)] at whole
      exact whole
    have log : Int.log 2 x < exponent :=
      (Int.lt_zpow_iff_log_lt one_lt_two positive).mp (by exact_mod_cast small)
    rw [Nat.log2_zero] at enough ⊢
    omega
  · obtain ⟨lower, upper⟩ := (Nat.floor_eq_iff (by positivity)).mp whole
    obtain ⟨atLeast, below⟩ := (Nat.log2_eq_iff mantissaPositive.ne').mp rfl
    rw [le_div_iff₀ (by positivity)] at lower
    rw [div_lt_iff₀ (by positivity)] at upper
    have least : mantissa.log2 + exponent ≤ Int.log 2 x := by
      rw [← Int.zpow_le_iff_le_log one_lt_two positive, zpow_add₀ (by norm_num)]
      refine le_trans ?_ lower
      push_cast
      rw [zpow_natCast]
      gcongr
      exact_mod_cast atLeast
    have most : Int.log 2 x < mantissa.log2 + 1 + exponent := by
      rw [← Int.lt_zpow_iff_log_lt one_lt_two positive, zpow_add₀ (by norm_num)]
      refine upper.trans_le ?_
      push_cast
      gcongr
      exact_mod_cast below
    omega

/-- At most 53 bits fit the format, once a last bit that rounding up has brought in is shifted
out. -/
theorem exists_shiftToTargetExponent {mantissa : ℕ} {exponent : ℤ} (atMost : mantissa ≤ 2 ^ 53)
    (least : -1074 ≤ exponent) (normal : -1074 < exponent → 2 ^ 52 ≤ mantissa) :
    ∃ shifted raised,
      shiftToTargetExponent Format.binary64 mantissa exponent .exact =
          (ExtendedMantissa.ofMantissaAndAccuracy shifted .exact, raised) ∧
        (shifted * 2 ^ raised : ℝ) = mantissa * 2 ^ exponent ∧
        (shifted = 0 ∨ shifted.log2 = 52 ∧ -1074 ≤ raised ∨
          shifted.log2 < 52 ∧ raised = -1074) := by
  rcases atMost.lt_or_eq with below | rfl
  · have log : mantissa.log2 ≤ 52 := by
      rcases Nat.eq_zero_or_pos mantissa with rfl | positive
      · decide
      · exact Nat.lt_succ_iff.mp ((Nat.log2_lt positive.ne').mpr below)
    refine ⟨mantissa, exponent, ?_, rfl, ?_⟩
    · have amount : (max (mantissa.log2 + exponent - 52) (-1074) - exponent).toNat = 0 := by
        omega
      rw [shiftToTargetExponent, targetExponent_eq, shiftToExponent, amount]
      simp [shiftRight_zero]
    · rcases least.eq_or_lt with rfl | above
      · omega
      · have full : 52 ≤ mantissa.log2 := by
          rw [Nat.le_log2 (by have := normal above; omega)]
          exact normal above
        omega
  · refine ⟨2 ^ 52, exponent + 1, ?_, ?_, .inr (.inl ⟨Nat.log2_two_pow, by omega⟩)⟩
    · have half : (2 ^ 53 : ℕ) = 2 ^ 52 * 2 ^ 1 := by
        decide
      rw [shiftToTargetExponent_normal (by rw [Nat.log2_two_pow]; decide) least,
        Nat.log2_two_pow, half, shiftRight_exact]
      rfl
    · rw [zpow_add_one₀ two_ne_zero]
      push_cast
      ring

theorem value_lt_limit {mantissa : ℕ} {exponent : ℤ} (fits : FitsFormat mantissa exponent) :
    (mantissa * 2 ^ exponent : ℝ) < 2 ^ (1024 : ℤ) := by
  have short : (mantissa : ℝ) < 2 ^ 53 := by
    exact_mod_cast mantissa_lt_two_pow fits
  calc
    (mantissa * 2 ^ exponent : ℝ) < 2 ^ 53 * 2 ^ exponent := by
      gcongr
    _ ≤ 2 ^ 53 * 2 ^ (971 : ℤ) := by
      gcongr
      · exact one_le_two
      · exact fits.bounded
    _ = 2 ^ (1024 : ℤ) := two_pow_mul_zpow 53 971

theorem limit_le_value {mantissa : ℕ} {exponent : ℤ} (full : 2 ^ 52 ≤ mantissa)
    (beyond : 971 < exponent) : (2 : ℝ) ^ (1024 : ℤ) ≤ mantissa * 2 ^ exponent := by
  have atLeast : (2 : ℝ) ^ 52 ≤ mantissa := by
    exact_mod_cast full
  calc
    (2 : ℝ) ^ (1024 : ℤ) = 2 ^ 52 * 2 ^ (972 : ℤ) := (two_pow_mul_zpow 52 972).symm
    _ ≤ mantissa * 2 ^ exponent := by
      gcongr
      · exact one_le_two
      · omega

/-- Exponents beyond the format are stored as an infinity. -/
theorem pack_beyond (sign : Sign) {mantissa : ℕ} {exponent : ℤ} (positive : 0 < mantissa)
    (beyond : 971 < exponent) :
    Float.Model.pack (.finite sign mantissa exponent positive) =
      Float.Model.pack (.infinity sign) := by
  have top : 2 ^ Format.binary64.exponentBits ≤ (exponent + Format.binary64.exponentBias +
      Format.binary64.mantissaBitsWithoutImplicit).toNat + 1 := by
    change 2048 ≤ (exponent + 1023 + 52).toNat + 1
    omega
  have bits : pack Format.binary64 (.finite sign mantissa exponent positive) =
      pack Format.binary64 (.infinity sign) := by
    rw [pack]
    exact if_pos top
  simp only [Float.Model.pack, bits]

/-- Of a mantissa with 53 bits, or fewer at the least exponent, only the size can be too large. -/
theorem valueOf_pack_finite (sign : Sign) {mantissa : ℕ} {exponent : ℤ} (positive : 0 < mantissa)
    (fitting : mantissa.log2 = 52 ∧ -1074 ≤ exponent ∨ mantissa.log2 < 52 ∧ exponent = -1074) :
    valueOf (Float.Model.pack (.finite sign mantissa exponent positive)).unpack =
      signed sign (limited (mantissa * 2 ^ exponent)) := by
  rw [limited_eq]
  rcases le_or_gt exponent 971 with bounded | beyond
  · have fits : FitsFormat mantissa exponent :=
      (fitsFormat_iff _ _).mpr ⟨positive, bounded, fitting⟩
    have stored : (Float.Model.pack (.finite sign mantissa exponent positive)).unpack =
        .finite sign mantissa exponent positive := unpack_pack fits
    rw [stored, valueOf_finite, if_pos (value_lt_limit fits)]
    cases sign <;> rfl
  · have full : 2 ^ 52 ≤ mantissa := (Nat.le_log2 positive.ne').mp (by omega)
    have stored : (Float.Model.pack (.infinity sign)).unpack = .infinity sign :=
      unpack_pack trivial
    rw [pack_beyond sign positive beyond, stored, if_neg (limit_le_value full beyond).not_gt]
    cases sign <;> rfl

/-- The two shifts of a rounding, when the first leaves at most 53 bits and the second what fits
the format. -/
theorem roundWithAccuracy_of_shifts (sign : Sign) {mantissa shifted : ℕ}
    {exponent target raised : ℤ} {accuracy : Accuracy} {extended : ExtendedMantissa}
    (first : shiftToTargetExponent Format.binary64 mantissa exponent accuracy = (extended, target))
    (second : shiftToTargetExponent Format.binary64 extended.roundedMantissa target .exact =
      (ExtendedMantissa.ofMantissaAndAccuracy shifted .exact, raised)) :
    roundWithAccuracy Format.binary64 sign mantissa exponent accuracy =
      if nonzero : shifted = 0 then .zero sign
      else .finite sign shifted raised (Nat.pos_of_ne_zero nonzero) := by
  rw [roundWithAccuracy, first]
  dsimp only
  rw [second]
  rfl

theorem valueOf_zero (sign : Sign) : valueOf (Float.Model.pack (.zero sign)).unpack = 0 := by
  have stored : (Float.Model.pack (.zero sign)).unpack = .zero sign := unpack_pack trivial
  rw [stored, valueOf]

section Mantissas

variable (sign : Sign) {mantissa : ℕ} {exponent : ℤ} {accuracy : Accuracy} {x : ℝ}

theorem mantissa_eq_floor
    (marked : weight (ExtendedMantissa.ofMantissaAndAccuracy mantissa accuracy) = mark x) :
    mantissa = ⌊x⌋₊ := by
  rw [floor_eq_mark_div, ← marked, weight]
  rcases accuracy with _ | ordering
  · simp [ExtendedMantissa.ofMantissaAndAccuracy]
  · cases ordering <;> simp [ExtendedMantissa.ofMantissaAndAccuracy] <;> omega

/-- A mantissa with its accuracy is rounded like the number that they are the digits of. -/
theorem valueOf_roundWithAccuracy_of_pos (positive : 0 < x)
    (marked : weight (ExtendedMantissa.ofMantissaAndAccuracy mantissa accuracy) =
      mark (x / 2 ^ exponent))
    (enough : 52 ≤ mantissa.log2 ∨ exponent ≤ -1074) :
    valueOf (Float.Model.pack
        (roundWithAccuracy Format.binary64 sign mantissa exponent accuracy)).unpack =
      rounded (signed sign x : ℝ) := by
  have isFloor := mantissa_eq_floor marked
  have target := targetExponent_eq_grain positive (isFloor ▸ enough)
  rw [← isFloor] at target
  have least : -1074 ≤ grain x := le_max_right _ _
  have raising : exponent ≤ grain x := by
    rw [targetExponent_eq] at target
    omega
  obtain ⟨places, reaches⟩ := Int.eq_ofNat_of_zero_le (sub_nonneg.mpr raising)
  have first : shiftToTargetExponent Format.binary64 mantissa exponent accuracy =
      (ExtendedMantissa.ofMantissaAndAccuracy mantissa accuracy >>> places, grain x) := by
    have reached : exponent + places = grain x := by
      omega
    rw [shiftToTargetExponent, target, shiftToExponent, reaches, Int.toNat_natCast, reached]
  -- After the first shift the mantissa counts grains.
  have nearest : (ExtendedMantissa.ofMantissaAndAccuracy mantissa accuracy >>> places
      ).roundedMantissa = nearestWhole (x / 2 ^ grain x) := by
    have scaled : x / 2 ^ exponent / 2 ^ places = x / 2 ^ grain x := by
      rw [div_div, mul_comm, two_pow_mul_zpow, ← reaches, sub_add_cancel]
    rw [roundedMantissa_eq, weight_shiftRight marked, scaled, nearestWhole]
  obtain ⟨shifted, raised, second, same, fitting⟩ := exists_shiftToTargetExponent
    (nearestWhole_le x) least (le_nearestWhole positive)
  rw [← nearest] at second
  rw [roundWithAccuracy_of_shifts sign first second, rounded_signed sign positive.le, grained_eq,
    ← same]
  split
  · rename_i isZero
    rw [valueOf_zero, isZero, Nat.cast_zero, zero_mul, limited_zero]
    cases sign <;> simp [signed]
  · rename_i nonzero
    exact valueOf_pack_finite sign (Nat.pos_of_ne_zero nonzero) (fitting.resolve_left nonzero)

end Mantissas

end InSitu.Number
