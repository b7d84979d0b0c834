import Mathlib
import InSitu.Binning.Lookup
import InSitu.Proofs.Number.Distance

/-!
# Searching bins

A search goes through the bins once and keeps the best bin so far; a bin takes its place only by
being better, so the best one in the end is the first of several equals.  What the bins are compared
by is a key in a linear order.
-/

namespace InSitu

open Number

section Pass

variable {α β κ : Type} [LinearOrder κ] {key : α → κ} {place : α → Nat} {items : List α}
  {best item : α}

/-- The best of some items: of those with the greatest key the one with the least place. -/
structure IsBest (key : α → κ) (place : α → Nat) (items : List α) (best : α) : Prop where
  mem : best ∈ items
  wins : ∀ item ∈ items, key item < key best ∨ key item = key best ∧ place best ≤ place item

theorem isBest_singleton (item : α) : IsBest key place [item] item := by
  refine ⟨List.mem_singleton_self item, fun other member => ?_⟩
  rw [List.mem_singleton.mp member]
  exact .inr ⟨rfl, le_rfl⟩

/-- What one more item does to the best so far. -/
theorem IsBest.next (isBest : IsBest key place items best) (later : place best < place item) :
    IsBest key place (items ++ [item]) (if key best < key item then item else best) := by
  have atMost : ∀ other ∈ items, key other ≤ key best := fun other member =>
    (isBest.wins other member).elim le_of_lt fun same => same.1.le
  split
  · rename_i better
    refine ⟨List.mem_append_right items (List.mem_singleton_self item), fun other member => ?_⟩
    rcases List.mem_append.mp member with earlier | itself
    · exact .inl ((atMost other earlier).trans_lt better)
    · rw [List.mem_singleton.mp itself]
      exact .inr ⟨rfl, le_rfl⟩
  · rename_i notBetter
    refine ⟨List.mem_append_left [item] isBest.mem, fun other member => ?_⟩
    rcases List.mem_append.mp member with earlier | itself
    · exact isBest.wins other earlier
    · rw [List.mem_singleton.mp itself]
      exact (not_lt.mp notBetter).lt_or_eq.imp_right fun same => ⟨same, later.le⟩

/-- A pass that keeps what it reads of the best item so far ends with the best of all. -/
theorem exists_foldl_isBest (key : α → κ) (place : α → Nat) (read : α → β)
    (step : Option β → α → Option β) (nonempty : items ≠ [])
    (rising : items.Pairwise fun earlier later => place earlier < place later)
    (first : ∀ item ∈ items, step none item = some (read item))
    (taken : ∀ best ∈ items, ∀ item ∈ items, key best < key item →
      step (some (read best)) item = some (read item))
    (kept : ∀ best ∈ items, ∀ item ∈ items, ¬ key best < key item →
      step (some (read best)) item = some (read best)) :
    ∃ best, items.foldl step none = some (read best) ∧ IsBest key place items best := by
  -- The pass goes on at the end of the list, so what is kept of the items before is known first.
  induction items using List.reverseRecOn with
  | nil =>
      exact absurd rfl nonempty
  | append_singleton items item inductionHypothesis =>
      have last : item ∈ items ++ [item] := List.mem_append_right items (List.mem_singleton_self item)
      by_cases none : items = []
      · subst none
        exact ⟨item, first item last, isBest_singleton item⟩
      · have earlier : ∀ other ∈ items, other ∈ items ++ [item] := fun other member =>
          List.mem_append_left [item] member
        obtain ⟨itemsRising, _, later⟩ := List.pairwise_append.mp rising
        obtain ⟨best, isKept, isBest⟩ := inductionHypothesis none itemsRising
          (fun other member => first other (earlier other member))
          (fun best member other otherMember =>
            taken best (earlier best member) other (earlier other otherMember))
          fun best member other otherMember =>
            kept best (earlier best member) other (earlier other otherMember)
        refine ⟨_, ?_, isBest.next (later best isBest.mem item (List.mem_singleton_self item))⟩
        rw [List.foldl_append, isKept, List.foldl_cons, List.foldl_nil]
        split
        · exact taken best (earlier best isBest.mem) item last ‹_›
        · exact kept best (earlier best isBest.mem) item last ‹_›

end Pass

theorem Axis.isSome_binBounds? {α : Type} [Scalar α] (axis : Axis α) (index : Nat) :
    (axis.binBounds? index).isSome = true ↔ index < axis.binCount := by
  rw [binBounds?, binCount]
  cases axis.bins with
  | uniform low high count =>
      dsimp only
      split <;> simp_all
  | edged edges =>
      dsimp only
      by_cases within : index + 1 < edges.length
      · have lower : index < edges.length := by
          omega
        simp [within, lower, Nat.lt_sub_iff_add_lt]
      · have beyond : edges[index + 1]? = none := List.getElem?_eq_none (by omega)
        rw [beyond]
        cases edges[index]? <;> simp <;> omega

namespace Binning

section Candidates

variable {α : Type} [Scalar α] {values : List α} {axis : Axis α} {index : Nat} {value center : α}

theorem lt_binCount_of_center? (isCenter : axis.center? index = some center) :
    index < axis.binCount := by
  obtain ⟨bounds, isBounds, _⟩ := Option.map_eq_some_iff.mp isCenter
  exact (axis.isSome_binBounds? index).mp (Option.isSome_of_eq_some isBounds)

theorem mem_candidates :
    (index, value, center) ∈ candidates values axis ↔
      values[index]? = some value ∧ axis.center? index = some center := by
  rw [candidates, List.mem_filterMap]
  constructor
  · rintro ⟨⟨_, _⟩, member, isItem⟩
    obtain ⟨_, isCenter, same⟩ := Option.map_eq_some_iff.mp isItem
    cases same
    rw [List.mem_zipIdx_iff_getElem?, List.getElem?_take_of_lt (lt_binCount_of_center? isCenter)] at member
    exact ⟨member, isCenter⟩
  · rintro ⟨isValue, isCenter⟩
    refine ⟨(value, index), ?_, congrArg (Option.map _) isCenter⟩
    rwa [List.mem_zipIdx_iff_getElem?, List.getElem?_take_of_lt (lt_binCount_of_center? isCenter)]

theorem candidates_rising :
    (candidates values axis).Pairwise fun earlier later => earlier.1 < later.1 := by
  have rising : (values.take axis.binCount).zipIdx.Pairwise fun earlier later =>
      earlier.2 < later.2 := by
    rw [← List.pairwise_map, List.zipIdx_map_snd]
    exact List.pairwise_lt_range'
  refine List.Pairwise.filterMap _ (fun earlier later before first isFirst second isSecond => ?_)
    rising
  obtain ⟨_, _, rfl⟩ := Option.map_eq_some_iff.mp isFirst
  obtain ⟨_, _, rfl⟩ := Option.map_eq_some_iff.mp isSecond
  exact before

end Candidates

/-- The distances of all centers to the point are numbers. -/
def HasDistances (axis : Axis Float) (point : Float) : Prop :=
  ∀ index center, axis.center? index = some center → (center - point).isNaN = false

theorem hasDistances_iff {axis : Axis Float} {point : Float} :
    HasDistances axis point ↔ ∀ index < axis.binCount, ∀ center ∈ axis.center? index,
      (center - point).isNaN = false :=
  ⟨fun distances index _ center => distances index center,
    fun distances index center isCenter =>
      distances index (lt_binCount_of_center? isCenter) center isCenter⟩

instance (axis : Axis Float) (point : Float) : Decidable (HasDistances axis point) :=
  decidable_of_iff _ hasDistances_iff.symm

/-- Four bins of one width, two on either side of four. -/
def aroundFour : Axis Float := ⟨"x", false, .edged [0.0, 2.0, 4.0, 6.0, 8.0]⟩

/-- One bin comes before another in a search from a point: its center is nearer, or it is as near
and the place of the bin is lower. -/
def IsNearerBin (point : Float) (first second : Nat × Float) : Prop :=
  (first.2 - point).abs < (second.2 - point).abs ∨
    ((first.2 - point).abs == (second.2 - point).abs) = true ∧ first.1 < second.1

instance (point : Float) (first second : Nat × Float) :
    Decidable (IsNearerBin point first second) :=
  inferInstanceAs (Decidable (_ ∨ _))

example : IsNearerBin 4.0 (1, 3.0) (2, 5.0) := by
  decide +kernel

/-- Bins whose distances are numbers are in the order of their distances and places. -/
theorem isNearerBin_iff {point : Float} {first second : Nat × Float}
    (firstIsNumber : (first.2 - point).isNaN = false)
    (secondIsNumber : (second.2 - point).isNaN = false) :
    IsNearerBin point first second ↔
      exact (first.2 - point).abs < exact (second.2 - point).abs ∨
        exact (first.2 - point).abs = exact (second.2 - point).abs ∧ first.1 < second.1 := by
  have firstValue := HasValue.abs firstIsNumber
  have secondValue := HasValue.abs secondIsNumber
  rw [IsNearerBin, firstValue.lt_iff secondValue, firstValue.beq_iff secondValue]

theorem IsNearerBin.asymm {point : Float} {first second : Nat × Float}
    (before : IsNearerBin point first second) (firstIsNumber : (first.2 - point).isNaN = false)
    (secondIsNumber : (second.2 - point).isNaN = false) : ¬ IsNearerBin point second first := by
  intro after
  rw [isNearerBin_iff firstIsNumber secondIsNumber] at before
  rw [isNearerBin_iff secondIsNumber firstIsNumber] at after
  rcases before with nearer | ⟨asNear, lower⟩
  · exact after.elim nearer.not_gt fun same => nearer.ne' same.1
  · exact after.elim asNear.not_gt fun same => lower.not_gt same.2

end Binning

end InSitu
