import Mathlib
import InSitu.Proofs.Sample.Rounds

/-!
# Trees of combinations

A reduction in rounds makes the combinations of a binary tree.  The tree is found by a reduction of
its own, one that puts two trees under a new node where others combine two elements, and so it is
the same for all ways of combining.  Its leaves are the list, from left to right, since only
neighbours meet.  It is as high as the rounds are many, since the first entry of a round always has
a partner, and a round halves the number of entries.

Where combining is associative, only the leaves of a tree matter, and every tree gives the left
fold.
-/

namespace InSitu

/-- An element, or the combination of what two trees give. -/
inductive CombinationTree (α : Type) where
  | leaf (element : α)
  | node (left right : CombinationTree α)

namespace CombinationTree

variable {α : Type}

/-- The elements, from left to right. -/
def leaves : CombinationTree α → List α
  | leaf element => [element]
  | node left right => left.leaves ++ right.leaves

/-- The most combinations that an element goes through. -/
def height : CombinationTree α → Nat
  | leaf _ => 0
  | node left right => max left.height right.height + 1

/-- The element that is left when all combinations are made. -/
def value (combine : α → α → α) : CombinationTree α → α
  | leaf element => element
  | node left right => combine (left.value combine) (right.value combine)

theorem exists_leaves_eq_cons (tree : CombinationTree α) :
    ∃ first rest, tree.leaves = first :: rest := by
  induction tree with
  | leaf element =>
      exact ⟨element, [], rfl⟩
  | node left right leftHypothesis _ =>
      obtain ⟨first, rest, isLeft⟩ := leftHypothesis
      exact ⟨first, rest ++ right.leaves, by rw [leaves, isLeft, List.cons_append]⟩

theorem value_eq_foldl {combine : α → α → α} [Std.Associative combine] (tree : CombinationTree α)
    {first : α} {rest : List α} (isLeaves : tree.leaves = first :: rest) :
    tree.value combine = rest.foldl combine first := by
  induction tree generalizing first rest with
  | leaf element =>
      cases isLeaves
      rfl
  | node left right leftHypothesis rightHypothesis =>
      obtain ⟨leftFirst, leftRest, isLeft⟩ := left.exists_leaves_eq_cons
      obtain ⟨rightFirst, rightRest, isRight⟩ := right.exists_leaves_eq_cons
      rw [leaves, isLeft, isRight, List.cons_append] at isLeaves
      cases isLeaves
      rw [value, leftHypothesis isLeft, rightHypothesis isRight, List.foldl_append,
        List.foldl_cons, List.foldl_assoc]

theorem flatMap_leaves_pairUp (trees : List (CombinationTree α)) :
    (pairUp node trees).flatMap leaves = trees.flatMap leaves := by
  fun_induction pairUp node trees with
  | case1 first second rest inductionHypothesis =>
      simp only [List.flatMap_cons, inductionHypothesis, leaves, List.append_assoc]
  | case2 =>
      rfl

theorem height_le_of_mem_pairUp {round : Nat} {trees : List (CombinationTree α)}
    (bounded : ∀ tree ∈ trees, tree.height ≤ round) {tree : CombinationTree α}
    (member : tree ∈ pairUp node trees) : tree.height ≤ round + 1 := by
  rcases mem_pairUp member with before | ⟨left, isLeft, right, isRight, rfl⟩
  · exact Nat.le_succ_of_le (bounded tree before)
  · exact Nat.succ_le_succ (max_le (bounded left isLeft) (bounded right isRight))

/-- What the trees of a round are: together they hold the list, the first is as high as the rounds
before are many and none is higher, and the rounds to come are those that their number needs. -/
structure GrowFrom (elements : List α) (round : Nat) (trees : List (CombinationTree α)) : Prop where
  leaves : trees.flatMap leaves = elements
  first : trees.head?.map height = some round
  bounded : ∀ tree ∈ trees, tree.height ≤ round
  rounds : round + Nat.clog 2 trees.length = Nat.clog 2 elements.length

theorem growFrom_leaves {elements : List α} (nonempty : elements ≠ []) :
    GrowFrom elements 0 (elements.map leaf) where
  leaves := by
    rw [List.flatMap_map]
    exact List.flatMap_singleton' elements
  first := by
    obtain ⟨first, rest, rfl⟩ := List.exists_cons_of_ne_nil nonempty
    rfl
  bounded := by
    simp [height]
  rounds := by
    rw [List.length_map, Nat.zero_add]

theorem GrowFrom.next {elements : List α} {round : Nat} {trees : List (CombinationTree α)}
    (several : 1 < trees.length) (grow : GrowFrom elements round trees) :
    GrowFrom elements (round + 1) (pairUp node trees) where
  leaves := (flatMap_leaves_pairUp trees).trans grow.leaves
  first := by
    obtain ⟨first, second, rest, rfl⟩ : ∃ first second rest, trees = first :: second :: rest := by
      match trees, several with
      | first :: second :: rest, _ => exact ⟨first, second, rest, rfl⟩
    have isHighest : first.height = round := Option.some_inj.mp grow.first
    have atMost : second.height ≤ round := grow.bounded second (by simp)
    rw [pairUp, List.head?_cons, Option.map_some, height, isHighest, max_eq_left atMost]
  bounded _ member := height_le_of_mem_pairUp grow.bounded member
  rounds := by
    have halved : Nat.clog 2 trees.length = Nat.clog 2 ((trees.length + 1) / 2) + 1 :=
      Nat.clog_of_one_lt Nat.one_lt_two several
    rw [← grow.rounds, length_pairUp, halved]
    omega

theorem exists_reduceInRounds?_node {elements : List α} (nonempty : elements ≠ []) :
    ∃ tree, reduceInRounds? node (elements.map leaf) = some tree ∧ tree.leaves = elements ∧
      tree.height = Nat.clog 2 elements.length := by
  obtain ⟨tree, rounds, isLast, grow⟩ :=
    exists_reduceInRounds? (GrowFrom elements) 0 (List.map_eq_nil_iff.not.mpr nonempty)
      (growFrom_leaves nonempty) fun _ _ several grow => grow.next several
  refine ⟨tree, isLast, ?_, ?_⟩
  · simpa using grow.leaves
  · have isHighest : tree.height = rounds := Option.some_inj.mp grow.first
    rw [isHighest, ← grow.rounds, List.length_singleton, Nat.clog_one_right, Nat.add_zero]

theorem reduceInRounds?_eq_map_value (combine : α → α → α) (elements : List α) :
    reduceInRounds? combine elements =
      (reduceInRounds? node (elements.map leaf)).map (value combine) := by
  rw [← reduceInRounds?_map (fun _ _ => rfl), List.map_map]
  exact congrArg (reduceInRounds? combine) (List.map_id elements).symm

end CombinationTree

open CombinationTree

theorem isLeast_clog (count : Nat) : IsLeast {height | count ≤ 2 ^ height} (Nat.clog 2 count) :=
  ⟨Nat.le_pow_clog Nat.one_lt_two count, fun _ => Nat.clog_le_of_le_pow⟩

/-- A list that is not empty has one tree that gives the result of its reduction in rounds whatever
the combination is.  The leaves of the tree, from left to right, are the list, and its height is the
least for so many leaves.  So an associative combination gives the left fold. -/
theorem reduceInRounds?_makes_tree {α : Type} (first : α) (rest : List α) :
    ∃ tree : CombinationTree α, tree.leaves = first :: rest ∧
      IsLeast {height | (first :: rest).length ≤ 2 ^ height} tree.height ∧
      ∀ combine : α → α → α,
        reduceInRounds? combine (first :: rest) = some (tree.value combine) ∧
          (Std.Associative combine →
            reduceInRounds? combine (first :: rest) = some (rest.foldl combine first)) := by
  obtain ⟨tree, isLast, isLeaves, isHeight⟩ :=
    exists_reduceInRounds?_node (List.cons_ne_nil first rest)
  refine ⟨tree, isLeaves, ?_, fun combine => ?_⟩
  · rw [isHeight]
    exact isLeast_clog _
  · have isValue : reduceInRounds? combine (first :: rest) = some (tree.value combine) := by
      rw [reduceInRounds?_eq_map_value, isLast, Option.map_some]
    refine ⟨isValue, fun _ => ?_⟩
    rw [isValue, tree.value_eq_foldl isLeaves]

/-- Five amounts, so that in the first two rounds one of them has no partner. -/
def fiveAmounts : List ℤ := [16, 8, 4, 2, 1]

theorem fiveAmounts_added_and_subtracted :
    Std.Associative (fun first second : ℤ => first + second) ∧
      ∃ tree : CombinationTree ℤ, tree.leaves = fiveAmounts ∧ tree.height = 3 ∧
        tree.value (fun first second => first - second) = 5 ∧
        reduceInRounds? (fun first second => first + second) fiveAmounts = some 31 := by
  have associative : Std.Associative (fun first second : ℤ => first + second) := ⟨add_assoc⟩
  obtain ⟨tree, isLeaves, isHeight, makes⟩ := reduceInRounds?_makes_tree (16 : ℤ) [8, 4, 2, 1]
  have difference : reduceInRounds? (fun first second => first - second) fiveAmounts = some 5 := by
    decide +kernel
  refine ⟨associative, tree, isLeaves, isHeight.unique (isLeast_clog 5), ?_, ?_⟩
  · exact Option.some_inj.mp ((makes _).1.symm.trans difference)
  · exact (makes _).2 associative

end InSitu
