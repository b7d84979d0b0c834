import Mathlib
import InSitu.Binning.Accumulate
import InSitu.Proofs.Axis.Locating

/-!
# Bins as digit sequences

A bin number stands for one bin of every axis: its digits over the bin counts,
that of the first axis lowest.  A sample is counted in the bin whose digits its
coordinates select, and in no bin if an axis does not locate it.  The digits are
read off with quotients and remainders here, while the accumulation adds them up
in words on its way along the axes.  If a word holds the number of all bins, then
no step wraps; both directions meet in `binFrom?_eq_some_iff`.
-/

namespace InSitu.Binning

theorem wrap_of_lt {value : Nat} (inWord : value < UInt64.size) : Number.wrap value = value :=
  Nat.mod_eq_of_lt inWord

/-- A product that wraps at every factor is right up to multiples of the size of a word. -/
theorem foldl_wrap_modEq (axes : List (Axis Float)) (total : Nat) :
    axes.foldl (fun total axis => Number.wrap (total * axis.binCount)) total ≡
      total * (axes.map Axis.binCount).prod [MOD UInt64.size] := by
  induction axes generalizing total with
  | nil =>
      exact congrArg (· % UInt64.size) (Nat.mul_one total).symm
  | cons axis axes inductionHypothesis =>
      calc
        axes.foldl (fun total axis => Number.wrap (total * axis.binCount))
            (Number.wrap (total * axis.binCount))
          ≡ Number.wrap (total * axis.binCount) * (axes.map Axis.binCount).prod
            [MOD UInt64.size] := inductionHypothesis _
        _ ≡ total * axis.binCount * (axes.map Axis.binCount).prod [MOD UInt64.size] :=
          (Nat.mod_modEq _ _).mul_right _
        _ ≡ total * ((axis :: axes).map Axis.binCount).prod [MOD UInt64.size] := by
          rw [List.map_cons, List.prod_cons, Nat.mul_assoc]

theorem foldl_wrap_lt (axes : List (Axis Float)) {total : Nat} (inWord : total < UInt64.size) :
    axes.foldl (fun total axis => Number.wrap (total * axis.binCount)) total < UInt64.size := by
  induction axes generalizing total with
  | nil =>
      exact inWord
  | cons axis axes inductionHypothesis =>
      exact inductionHypothesis (Nat.mod_lt _ (by decide))

theorem totalBins_modEq (axes : List (Axis Float)) :
    totalBins axes ≡ (axes.map Axis.binCount).prod [MOD UInt64.size] := by
  cases axes with
  | nil =>
      rfl
  | cons first axes =>
      rw [List.map_cons, List.prod_cons]
      exact foldl_wrap_modEq axes first.binCount

theorem totalBins_lt {axes : List (Axis Float)}
    (inWord : ∀ axis ∈ axes, axis.binCount < UInt64.size) : totalBins axes < UInt64.size := by
  cases axes with
  | nil =>
      decide
  | cons first axes =>
      exact foldl_wrap_lt axes (inWord first List.mem_cons_self)

theorem prod_binCount_pos {axes : List (Axis Float)}
    (positive : ∀ axis ∈ axes, 0 < axis.binCount) : 0 < (axes.map Axis.binCount).prod := by
  refine List.prod_pos fun count member => ?_
  obtain ⟨axis, isAxis, rfl⟩ := List.mem_map.mp member
  exact positive axis isAxis

theorem binCount_le_prod {axes : List (Axis Float)} (positive : ∀ axis ∈ axes, 0 < axis.binCount)
    {axis : Axis Float} (member : axis ∈ axes) :
    axis.binCount ≤ (axes.map Axis.binCount).prod :=
  Nat.le_of_dvd (prod_binCount_pos positive) (List.dvd_prod (List.mem_map_of_mem member))

theorem totalBins_eq_prod {axes : List (Axis Float)}
    (positive : ∀ axis ∈ axes, 0 < axis.binCount)
    (inWord : (axes.map Axis.binCount).prod < UInt64.size) :
    totalBins axes = (axes.map Axis.binCount).prod := by
  have eachInWord : ∀ axis ∈ axes, axis.binCount < UInt64.size := fun axis member =>
    (binCount_le_prod positive member).trans_lt inWord
  exact (totalBins_modEq axes).eq_of_lt_of_lt (totalBins_lt eachInWord) inWord

/-- Seven times the second number of bins is one more than three words hold. -/
example : totalBins [⟨"x", false, .uniform 0.0 1.0 7⟩,
    ⟨"y", false, .uniform 0.0 1.0 7905747460161236407⟩] = 1 := by
  decide

/-- The distance of two bins that are neighbours along the axis at a position. -/
def stride (axes : List (Axis Float)) (position : Nat) : Nat :=
  ((axes.take position).map Axis.binCount).prod

/-- The bin of the axis at a position within a bin of all axes. -/
def digit (axes : List (Axis Float)) (bin position : Nat) : Nat :=
  bin / stride axes position % ((axes[position]?).map Axis.binCount).getD 1

/-- Where the axis at a position puts its coordinate. -/
def located? (axes : List (Axis Float)) (coordinates : List Float) (position : Nat) :
    Option Nat := do
  let axis ← axes[position]?
  let coordinate ← coordinates[position]?
  axis.locateSample? coordinate

@[simp]
theorem digit_cons_zero (axis : Axis Float) (axes : List (Axis Float)) (bin : Nat) :
    digit (axis :: axes) bin 0 = bin % axis.binCount := by
  simp [digit, stride]

@[simp]
theorem digit_cons_succ (axis : Axis Float) (axes : List (Axis Float)) (bin position : Nat) :
    digit (axis :: axes) bin (position + 1) = digit axes (bin / axis.binCount) position := by
  have strideSucc :
      stride (axis :: axes) (position + 1) = axis.binCount * stride axes position := by
    simp [stride]
  rw [digit, digit, strideSucc, ← Nat.div_div_eq_div_mul, List.getElem?_cons_succ]

@[simp]
theorem located?_cons_zero (axis : Axis Float) (axes : List (Axis Float)) (coordinate : Float)
    (coordinates : List Float) :
    located? (axis :: axes) (coordinate :: coordinates) 0 = axis.locateSample? coordinate := rfl

@[simp]
theorem located?_cons_succ (axis : Axis Float) (axes : List (Axis Float)) (coordinate : Float)
    (coordinates : List Float) (position : Nat) :
    located? (axis :: axes) (coordinate :: coordinates) (position + 1) =
      located? axes coordinates position := rfl

theorem binFrom?_cons (number stride : Nat) (axis : Axis Float) (coordinate : Float)
    (rest : List (Axis Float × Float)) :
    binFrom? number stride ((axis, coordinate) :: rest) =
      (axis.locateSample? coordinate).bind fun bin =>
        binFrom? (Number.wrap (number + bin * stride)) (Number.wrap (stride * axis.binCount))
          rest := rfl

theorem binOf?_cons (axis : Axis Float) (axes : List (Axis Float)) (coordinate : Float)
    (coordinates : List Float) :
    binOf? (axis :: axes) (coordinate :: coordinates) =
      (axis.locateSample? coordinate).bind fun bin =>
        binFrom? bin axis.binCount (axes.zip coordinates) := rfl

/-- One more digit is added to a number below the stride exactly if both are what remains of the
bin. -/
theorem mod_mul_eq_add_iff {bin stride count number digit : Nat} (below : number < stride) :
    bin % (stride * count) = number + digit * stride ↔
      bin % stride = number ∧ bin / stride % count = digit := by
  have unique : bin % (stride * count) / stride = digit ∧ bin % (stride * count) % stride = number ↔
      number + stride * digit = bin % (stride * count) ∧ number < stride :=
    Nat.div_mod_unique (Nat.zero_lt_of_lt below)
  rw [Nat.mod_mul_right_mod, Nat.mod_mul_right_div_self] at unique
  rw [and_comm, unique, and_iff_left below, Nat.mul_comm digit, eq_comm]

/-- The number stays below the stride, and the stride is a word up to the last axis. -/
theorem binFrom?_eq_some_iff {axes : List (Axis Float)} {coordinates : List Float}
    {number stride : Nat} (positive : ∀ axis ∈ axes, 0 < axis.binCount)
    (matching : coordinates.length = axes.length) (below : number < stride)
    (inWord : stride * (axes.map Axis.binCount).prod < UInt64.size) (bin : Nat) :
    binFrom? number stride (axes.zip coordinates) = some bin ↔
      bin < stride * (axes.map Axis.binCount).prod ∧ bin % stride = number ∧
        ∀ position < axes.length,
          located? axes coordinates position = some (digit axes (bin / stride) position) := by
  induction axes generalizing coordinates number stride with
  | nil =>
      rw [List.zip_nil_left, binFrom?, Option.some_inj]
      simp only [List.map_nil, List.prod_nil, Nat.mul_one, List.length_nil]
      constructor
      · rintro rfl
        exact ⟨below, Nat.mod_eq_of_lt below, fun _ none => absurd none (Nat.not_lt_zero _)⟩
      · rintro ⟨inRange, remainder, _⟩
        rw [← remainder, Nat.mod_eq_of_lt inRange]
  | cons axis axes inductionHypothesis =>
      obtain ⟨coordinate, coordinates, rfl⟩ :=
        List.exists_cons_of_length_eq_add_one matching
      have firstPositive : 0 < axis.binCount := positive axis List.mem_cons_self
      have othersPositive : ∀ other ∈ axes, 0 < other.binCount := fun other member =>
        positive other (List.mem_cons_of_mem axis member)
      rw [List.map_cons, List.prod_cons, ← Nat.mul_assoc] at inWord ⊢
      have strideInWord : stride * axis.binCount < UInt64.size :=
        (Nat.le_mul_of_pos_right _ (prod_binCount_pos othersPositive)).trans_lt inWord
      rw [List.zip_cons_cons, binFrom?_cons, Option.bind_eq_some_iff, List.length_cons,
        Nat.forall_lt_succ_left']
      simp only [digit_cons_zero, digit_cons_succ, located?_cons_zero, located?_cons_succ]
      have continued : ∀ first, axis.locateSample? coordinate = some first →
          (binFrom? (Number.wrap (number + first * stride)) (Number.wrap (stride * axis.binCount))
              (axes.zip coordinates) = some bin ↔
            bin < stride * axis.binCount * (axes.map Axis.binCount).prod ∧
              (bin % stride = number ∧ bin / stride % axis.binCount = first) ∧
                ∀ position < axes.length, located? axes coordinates position =
                  some (digit axes (bin / stride / axis.binCount) position)) := by
        intro first isFirst
        have small : first < axis.binCount :=
          Axis.lt_binCount_of_locateSample? firstPositive isFirst
        have nextBelow : number + first * stride < stride * axis.binCount := by
          calc
            number + first * stride < stride + first * stride := Nat.add_lt_add_right below _
            _ = stride * (first + 1) := by ring
            _ ≤ stride * axis.binCount := Nat.mul_le_mul_left _ small
        rw [wrap_of_lt (nextBelow.trans strideInWord), wrap_of_lt strideInWord,
          inductionHypothesis othersPositive (Nat.succ_inj.mp matching) nextBelow inWord,
          mod_mul_eq_add_iff below, Nat.div_div_eq_div_mul]
      constructor
      · rintro ⟨first, isFirst, isBin⟩
        obtain ⟨inRange, ⟨remainder, rfl⟩, others⟩ := (continued first isFirst).mp isBin
        exact ⟨inRange, remainder, isFirst, others⟩
      · rintro ⟨inRange, remainder, isFirst, others⟩
        exact ⟨_, isFirst, (continued _ isFirst).mpr ⟨inRange, ⟨remainder, rfl⟩, others⟩⟩

theorem binFrom?_isSome_iff {axes : List (Axis Float)} {coordinates : List Float}
    (matching : coordinates.length = axes.length) (number stride : Nat) :
    (binFrom? number stride (axes.zip coordinates)).isSome ↔
      ∀ position < axes.length, (located? axes coordinates position).isSome := by
  induction axes generalizing coordinates number stride with
  | nil =>
      simp [binFrom?]
  | cons axis axes inductionHypothesis =>
      obtain ⟨coordinate, coordinates, rfl⟩ :=
        List.exists_cons_of_length_eq_add_one matching
      have restIff := inductionHypothesis (Nat.succ_inj.mp matching)
      rw [List.zip_cons_cons, binFrom?_cons, Option.isSome_bind, List.length_cons,
        Nat.forall_lt_succ_left']
      simp only [located?_cons_zero, located?_cons_succ]
      cases axis.locateSample? coordinate with
      | none =>
          simp
      | some first =>
          simpa using restIff _ _

section Numbers

variable {axes : List (Axis Float)} {coordinates : List Float}
  (positive : ∀ axis ∈ axes, 0 < axis.binCount)
  (inWord : (axes.map Axis.binCount).prod < UInt64.size)
  (matching : coordinates.length = axes.length)

include positive inWord matching

/-- Before the first axis the number is zero, and neighbours along it are one apart. -/
theorem binOf?_eq_binFrom? : binOf? axes coordinates = binFrom? 0 1 (axes.zip coordinates) := by
  cases axes with
  | nil =>
      rfl
  | cons axis axes =>
      obtain ⟨coordinate, coordinates, rfl⟩ :=
        List.exists_cons_of_length_eq_add_one matching
      have countInWord : axis.binCount < UInt64.size :=
        (binCount_le_prod positive List.mem_cons_self).trans_lt inWord
      rw [binOf?_cons, List.zip_cons_cons, binFrom?_cons]
      refine Option.bind_congr fun first isFirst => ?_
      have small : first < axis.binCount :=
        Axis.lt_binCount_of_locateSample? (positive axis List.mem_cons_self) isFirst
      rw [Nat.zero_add, Nat.mul_one, Nat.one_mul, wrap_of_lt (small.trans countInWord),
        wrap_of_lt countInWord]

/-- The number of a sample is in range, and its digits are the located bins. -/
theorem binOf?_eq_some_iff (bin : Nat) :
    binOf? axes coordinates = some bin ↔
      bin < totalBins axes ∧
        ∀ position < axes.length,
          located? axes coordinates position = some (digit axes bin position) := by
  have numbered := binFrom?_eq_some_iff positive matching Nat.zero_lt_one
    ((Nat.one_mul _).trans_lt inWord) bin
  rw [Nat.one_mul, Nat.mod_one, Nat.div_one] at numbered
  rw [binOf?_eq_binFrom? positive inWord matching, totalBins_eq_prod positive inWord, numbered]
  simp

/-- A sample has a number exactly if every axis locates it. -/
theorem binOf?_isSome_iff :
    (binOf? axes coordinates).isSome ↔
      ∀ position < axes.length, (located? axes coordinates position).isSome := by
  rw [binOf?_eq_binFrom? positive inWord matching, binFrom?_isSome_iff matching]

end Numbers

end InSitu.Binning
