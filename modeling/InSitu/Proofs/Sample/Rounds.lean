import Mathlib
import InSitu.Proofs.Number.Order
import InSitu.Sample.Statistics

/-!
# Rounds

A round puts the combination of two neighbours in the place of both, so every entry of a later
round stands for a block of the list, twice as long after each round.  What one round keeps holds
of the element that is left in the end, and a map that agrees with combining can be applied before
the rounds or after them.
-/

namespace InSitu

variable {α β : Type} {combine : α → α → α} {combineImages : β → β → β} {image : α → β}

theorem length_pairUp (combine : α → α → α) :
    ∀ elements : List α, (pairUp combine elements).length = (elements.length + 1) / 2
  | [] => by
      simp [pairUp]
  | [_] => by
      simp [pairUp]
  | first :: second :: rest => by
      rw [pairUp, List.length_cons, length_pairUp combine rest]
      simp only [List.length_cons]
      omega

/-- An entry of the next round combines two neighbours, or is the last element without one. -/
theorem getElem?_pairUp (combine : α → α → α) :
    ∀ (elements : List α) (place : Nat),
      (pairUp combine elements)[place]? =
        Option.merge combine elements[2 * place]? elements[2 * place + 1]?
  | [], _ => rfl
  | [_], 0 => rfl
  | [_], _ + 1 => rfl
  | _ :: _ :: _, 0 => rfl
  | _ :: _ :: rest, place + 1 => getElem?_pairUp combine rest place

/-- A round leaves elements that were there before and combinations of two of them. -/
theorem mem_pairUp {elements : List α} {entry : α} (isEntry : entry ∈ pairUp combine elements) :
    entry ∈ elements ∨ ∃ first ∈ elements, ∃ second ∈ elements, combine first second = entry := by
  obtain ⟨place, isEntry⟩ := List.mem_iff_getElem?.mp isEntry
  rw [getElem?_pairUp, Option.merge_eq_some_iff] at isEntry
  rcases isEntry with ⟨isFirst, _⟩ | ⟨_, isSecond⟩ | ⟨first, second, isFirst, isSecond, combined⟩
  · exact .inl (List.mem_of_getElem? isFirst)
  · exact .inl (List.mem_of_getElem? isSecond)
  · exact .inr ⟨first, List.mem_of_getElem? isFirst, second, List.mem_of_getElem? isSecond,
      combined⟩

theorem pairUp_map
    (agrees : ∀ first second, image (combine first second) =
      combineImages (image first) (image second)) (elements : List α) :
    pairUp combineImages (elements.map image) = (pairUp combine elements).map image := by
  refine List.ext_getElem? fun place => ?_
  simp only [getElem?_pairUp, List.getElem?_map]
  cases elements[2 * place]? <;> cases elements[2 * place + 1]? <;> simp [agrees]

/-- What every round keeps holds of the element that is left. -/
theorem exists_reduceInRounds? (Keeps : Nat → List α → Prop) (round : Nat) {elements : List α}
    (nonempty : elements ≠ []) (start : Keeps round elements)
    (step : ∀ round elements, 1 < elements.length → Keeps round elements →
      Keeps (round + 1) (pairUp combine elements)) :
    ∃ last rounds, reduceInRounds? combine elements = some last ∧ Keeps rounds [last] := by
  fun_induction reduceInRounds? combine elements generalizing round with
  | case1 =>
      exact absurd rfl nonempty
  | case2 last =>
      exact ⟨last, round, rfl, start⟩
  | case3 first second rest inductionHypothesis =>
      have several : 1 < (first :: second :: rest).length :=
        Nat.lt_add_of_pos_left (Nat.succ_pos rest.length)
      exact inductionHypothesis (round + 1) (List.cons_ne_nil _ _) (step round _ several start)

theorem reduceInRounds?_map
    (agrees : ∀ first second, image (combine first second) =
      combineImages (image first) (image second)) (elements : List α) :
    reduceInRounds? combineImages (elements.map image) =
      (reduceInRounds? combine elements).map image := by
  fun_induction reduceInRounds? combine elements with
  | case1 =>
      rw [List.map_nil, reduceInRounds?, Option.map_none]
  | case2 last =>
      rw [List.map_cons, List.map_nil, reduceInRounds?, Option.map_some]
  | case3 first second rest inductionHypothesis =>
      rw [← inductionHypothesis, List.map_cons, List.map_cons, reduceInRounds?, List.map_cons,
        agrees, pairUp_map agrees]

@[simp]
theorem reduceInRounds?_eq_none_iff {elements : List α} :
    reduceInRounds? combine elements = none ↔ elements = [] := by
  constructor
  · intro isNone
    by_contra nonempty
    obtain ⟨last, _, isLast, _⟩ := exists_reduceInRounds? (fun _ _ => True) 0 nonempty trivial
      fun _ _ _ _ => trivial
    rw [isNone] at isLast
    cases isLast
  · rintro rfl
    rw [reduceInRounds?]

theorem sum_pairUp {M : Type} [AddMonoid M] (elements : List M) :
    (pairUp (fun first second => first + second) elements).sum = elements.sum := by
  fun_induction pairUp (fun first second : M => first + second) elements with
  | case1 first second rest inductionHypothesis =>
      rw [List.sum_cons, inductionHypothesis, List.sum_cons, List.sum_cons, add_assoc]
  | case2 =>
      rfl

/-- Without rounding, sums taken in rounds are the ordinary ones. -/
theorem Sample.sum_rat (samples : List ℚ) : Sample.sum samples = samples.sum := by
  by_cases none : samples = []
  · rw [none, sum, reduceInRounds?, Option.getD_none, zero_rat, List.sum_nil]
  · have kept : ∀ (_ : Nat) (elements : List ℚ), 1 < elements.length →
        elements.sum = samples.sum →
          (pairUp (fun first second => first + second) elements).sum = samples.sum :=
      fun _ elements _ same => (sum_pairUp elements).trans same
    obtain ⟨last, _, isLast, same⟩ :=
      exists_reduceInRounds? (fun _ elements => elements.sum = samples.sum) 0 none rfl kept
    rw [sum, ← same, List.sum_singleton]
    exact congrArg (fun found => found.getD Scalar.zero) isLast

end InSitu
