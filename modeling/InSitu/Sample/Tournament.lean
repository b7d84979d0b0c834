/-!
Reduction of a list in rounds.

Every round combines neighbours, first with second, third with fourth and so on; an element
without a partner goes on to the next round. The order of combination depends on the length of
the list alone.
-/

namespace InSitu

variable {α : Type}

/-- One round: combines neighbours in pairs. -/
def pairUp (combine : α → α → α) : List α → List α
  | first :: second :: rest => combine first second :: pairUp combine rest
  | rest => rest

theorem length_pairUp_le (combine : α → α → α) (elements : List α) :
    (pairUp combine elements).length ≤ elements.length := by
  fun_induction pairUp combine elements with
  | case1 first second rest ih => simp only [List.length_cons]; omega
  | case2 => exact Nat.le_refl _

/-- Combines neighbours round after round until one element is left; none for no elements. -/
def reduceInRounds? (combine : α → α → α) : List α → Option α
  | [] => none
  | [last] => some last
  | first :: second :: rest =>
    reduceInRounds? combine (combine first second :: pairUp combine rest)
termination_by elements => elements.length
decreasing_by
  have := length_pairUp_le combine rest
  simp only [List.length_cons]
  omega

/-- An element and its place in a list. -/
structure Indexed (α : Type) where
  index : Nat
  value : α

def indexed (elements : List α) : List (Indexed α) :=
  elements.zipIdx.map fun (value, index) => ⟨index, value⟩

/-- The winner of two elements: the one that compares as less, or else the earlier one. -/
def winner (compare : α → α → Ordering) (first second : Indexed α) : Indexed α :=
  match compare first.value second.value with
  | .lt => first
  | .gt => second
  | .eq => if first.index ≤ second.index then first else second

/-- The element that wins all its rounds, with its place. -/
def champion? (compare : α → α → Ordering) (elements : List α) : Option (Indexed α) :=
  reduceInRounds? (winner compare) (indexed elements)

end InSitu
