import Mathlib
import InSitu.Proofs.Sample.FirstBest

/-!
# Champions

The winner of two entries is one of the two, so no entry is changed on its way through the rounds:
whatever the comparison is, the champion is a sample at its own place.  If the comparison is a total
preorder, then no other sample beats the champion, and it is the first of those of which that is
true.
-/

namespace InSitu

variable {α : Type} {compare : α → α → Ordering} {samples : List α} {champion : Indexed α}

/-- The place has a sample that none of the others beats. -/
def Unbeaten (compare : α → α → Ordering) (samples : List α) (place : Nat) : Prop :=
  ∃ sample, samples[place]? = some sample ∧ ∀ otherPlace other, otherPlace ≠ place →
    samples[otherPlace]? = some other → compare other sample ≠ .lt

theorem winner_eq_or (compare : α → α → Ordering) (first second : Indexed α) :
    winner compare first second = first ∨ winner compare first second = second := by
  rw [winner]
  cases compare first.value second.value with
  | lt =>
      exact .inl rfl
  | gt =>
      exact .inr rfl
  | eq =>
      exact ite_eq_or_eq (first.index ≤ second.index) first second

theorem champion?_eq_none_iff : champion? compare samples = none ↔ samples = [] := by
  rw [champion?, reduceInRounds?_eq_none_iff, indexed_eq_nil_iff]

/-- Every entry of a round is a sample at its own place. -/
def ArePlaced (samples : List α) (entries : List (Indexed α)) : Prop :=
  ∀ entry ∈ entries, samples[entry.index]? = some entry.value

theorem arePlaced_indexed (samples : List α) : ArePlaced samples (indexed samples) := by
  intro entry isEntry
  obtain ⟨place, isEntry⟩ := List.mem_iff_getElem?.mp isEntry
  rw [getElem?_indexed] at isEntry
  obtain ⟨value, isSample, rfl⟩ := Option.map_eq_some_iff.mp isEntry
  exact isSample

theorem ArePlaced.next {entries : List (Indexed α)} (arePlaced : ArePlaced samples entries) :
    ArePlaced samples (pairUp (winner compare) entries) := by
  intro entry isEntry
  rcases mem_pairUp isEntry with before | ⟨first, isFirst, second, isSecond, rfl⟩
  · exact arePlaced entry before
  · rcases winner_eq_or compare first second with firstWins | secondWins
    · rw [firstWins]
      exact arePlaced first isFirst
    · rw [secondWins]
      exact arePlaced second isSecond

theorem getElem?_of_champion? (isFound : champion? compare samples = some champion) :
    samples[champion.index]? = some champion.value := by
  have nonempty : samples ≠ [] := by
    rintro rfl
    rw [champion?_eq_none_iff.mpr rfl] at isFound
    cases isFound
  obtain ⟨last, _, isLast, arePlaced⟩ :=
    exists_reduceInRounds? (fun _ => ArePlaced samples) 0 (indexed_eq_nil_iff.not.mpr nonempty)
      (arePlaced_indexed samples) fun _ _ _ arePlaced => arePlaced.next
  have same : last = champion := Option.some_inj.mp (isLast.symm.trans isFound)
  exact same ▸ arePlaced last List.mem_cons_self

theorem IsFirstBest.isLeast_unbeaten [Std.TransCmp compare]
    (isBest : IsFirstBest compare samples champion) :
    IsLeast {place | Unbeaten compare samples place} champion.index := by
  constructor
  · refine ⟨champion.value, isBest.sample, fun otherPlace other _ isOther beats => ?_⟩
    exact (isBest.best otherPlace other isOther).1 (Std.OrientedCmp.gt_of_lt beats)
  · rintro place ⟨sample, isSample, unbeaten⟩
    by_contra later
    have before : place < champion.index := not_le.mp later
    have beats := (isBest.best place sample isSample).2 before
    exact unbeaten champion.index champion.value before.ne' isBest.sample beats

/-- There is no champion exactly if there are no samples, and every champion is the sample at its
place.  If the comparison is a total preorder, that place is the first of those with a sample that
no other beats. -/
theorem champion?_is_first_unbeaten (compare : α → α → Ordering) (samples : List α) :
    (champion? compare samples = none ↔ samples = []) ∧
      ∀ champion, champion? compare samples = some champion →
        samples[champion.index]? = some champion.value ∧
          (Std.TransCmp compare →
            IsLeast {place | Unbeaten compare samples place} champion.index) := by
  refine ⟨champion?_eq_none_iff, fun champion isFound => ?_⟩
  have isSample := getElem?_of_champion? isFound
  refine ⟨isSample, fun _ => ?_⟩
  have nonempty : samples ≠ [] := List.ne_nil_of_mem (List.mem_of_getElem? isSample)
  have orders : OrdersAllBut compare fun _ => False := ordersAllBut_of_transCmp
  obtain ⟨best, isBestFound, isBest⟩ := exists_firstBest orders nonempty fun _ _ => not_false
  have same : best = champion := Option.some_inj.mp (isBestFound.symm.trans isFound)
  exact same ▸ isBest.isLeast_unbeaten

/-- Marked numbers, compared by the number alone: two of them are the least ones, and the last has
no partner in two rounds. -/
def markedNumbers : List (ℤ × Char) := [(3, 'a'), (1, 'b'), (5, 'c'), (1, 'd'), (5, 'e')]

theorem markedNumbers_first_least :
    ∃ champion, champion? (compareOn Prod.fst) markedNumbers = some champion ∧
      champion.value = (1, 'b') ∧
      Std.TransCmp (compareOn (Prod.fst : ℤ × Char → ℤ)) ∧
      IsLeast {place | Unbeaten (compareOn Prod.fst) markedNumbers place} 1 := by
  have isOrder : Std.TransCmp (compareOn (Prod.fst : ℤ × Char → ℤ)) := inferInstance
  have found : (champion? (compareOn Prod.fst) markedNumbers).map
      (fun champion => (champion.index, champion.value)) = some (1, (1, 'b')) := by
    decide +kernel
  obtain ⟨champion, isFound, isPair⟩ := Option.map_eq_some_iff.mp found
  obtain ⟨isPlace, isValue⟩ := Prod.mk.inj isPair
  obtain ⟨_, isFirst⟩ := champion?_is_first_unbeaten (compareOn Prod.fst) markedNumbers
  refine ⟨champion, isFound, isValue, isOrder, ?_⟩
  rw [← isPlace]
  exact (isFirst champion isFound).2 isOrder

end InSitu
