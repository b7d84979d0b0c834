import InSitu.Proofs.History.Addressing

/-!
# Scans for the ends of a range

The ends of a range in time or in cycles are found by scanning the entries from
either side.  Where the entries are in order, what a scan finds is the place at
which a property begins or stops to hold.
-/

namespace InSitu

/-- The element at a position has a property. -/
def HoldsAt {α : Type} (elements : List α) (property : α → Prop) (position : Nat) : Prop :=
  ∃ element, elements[position]? = some element ∧ property element

theorem holdsAt_iff {α : Type} {elements : List α} {property : α → Prop} {position : Nat}
    (known : position < elements.length) :
    HoldsAt elements property position ↔ property elements[position] := by
  simp only [HoldsAt, List.getElem?_eq_getElem known, Option.some.injEq, exists_eq_left']

theorem forall_not_holdsAt_iff {α : Type} {elements : List α} {property : α → Prop} :
    (∀ position < elements.length, ¬ HoldsAt elements property position) ↔
      ∀ element ∈ elements, ¬ property element := by
  constructor
  · intro nowhere element member
    obtain ⟨position, known, rfl⟩ := List.getElem_of_mem member
    exact mt (holdsAt_iff known).mpr (nowhere position known)
  · intro none position known
    exact mt (holdsAt_iff known).mp (none _ (List.getElem_mem known))

/-- What a range resolved to leaves no choice of the positions it addresses. -/
theorem Addresses.selected_iff_selected {resolved : Option Span} {size : Nat}
    {selected others : Nat → Prop} (addresses : Addresses resolved size selected)
    (addressesOthers : Addresses resolved size others) {position : Nat} (known : position < size) :
    selected position ↔ others position := by
  cases resolved with
  | none =>
      exact iff_of_false (addresses.none_iff.mp rfl position known)
        (addressesOthers.none_iff.mp rfl position known)
  | some span =>
      rw [← addresses.selected_iff span rfl position known,
        addressesOthers.selected_iff span rfl position known]

theorem Addresses.congr {resolved : Option Span} {size : Nat} {selected others : Nat → Prop}
    (addresses : Addresses resolved size selected)
    (alike : ∀ position < size, (selected position ↔ others position)) :
    Addresses resolved size others where
  none_iff := by
    rw [addresses.none_iff]
    exact forall₂_congr fun position known => not_congr (alike position known)
  within := addresses.within
  selected_iff span found position known :=
    (addresses.selected_iff span found position known).trans (alike position known)

namespace RangeSelector

variable {α : Type} {test : α → Bool} {elements : List α}

/-- A scan finds the place from which on a property holds, if all that passes its
test has the property and all that has the property in front of what passes, too. -/
theorem reached_iff_of_findIdx? (reached : α → Prop) {start : Nat}
    (found : elements.findIdx? test = some start)
    (upward : elements.Pairwise fun earlier later => reached earlier → reached later)
    (sound : ∀ element ∈ elements, test element = true → reached element)
    (complete : elements.Pairwise fun earlier later =>
      test later = true → reached earlier → test earlier = true) :
    ∃ inside : start < elements.length, test elements[start] = true ∧
      ∀ position (known : position < elements.length),
        (reached elements[position] ↔ start ≤ position) := by
  obtain ⟨inside, passes, before⟩ := List.findIdx?_eq_some_iff_getElem.mp found
  have reachedStart := sound _ (List.getElem_mem inside) passes
  refine ⟨inside, passes, fun position known => ⟨fun isReached => ?_, fun after => ?_⟩⟩
  · by_contra earlier
    have inFront : position < start := by
      omega
    exact before position inFront
      (List.pairwise_iff_getElem.mp complete position start known inside inFront passes isReached)
  · rcases after.eq_or_lt with rfl | later
    · exact reachedStart
    · exact List.pairwise_iff_getElem.mp upward start position inside known later reachedStart

theorem lt_length_of_lastIdx? {stop : Nat} (found : lastIdx? test elements = some stop) :
    stop < elements.length := by
  obtain ⟨back, isBack, rfl⟩ := Option.map_eq_some_iff.mp found
  obtain ⟨inside, _, _⟩ := List.findIdx?_eq_some_iff_getElem.mp isBack
  rw [List.length_reverse] at inside
  omega

/-- A scan from the end finds the last place up to which a property holds. -/
theorem test_iff_of_lastIdx? {stop : Nat} (found : lastIdx? test elements = some stop)
    (downward : elements.Pairwise fun earlier later => test later = true → test earlier = true) :
    ∀ position (known : position < elements.length),
      (test elements[position] = true ↔ position ≤ stop) := by
  intro position known
  obtain ⟨back, isBack, rfl⟩ := Option.map_eq_some_iff.mp found
  have backwards : elements.reverse.Pairwise fun earlier later =>
      test earlier = true → test later = true :=
    List.pairwise_reverse.mpr downward
  obtain ⟨inside, _, fromThere⟩ := reached_iff_of_findIdx?
    (fun element => test element = true) isBack backwards (fun _ _ passes => passes)
    (List.pairwise_of_forall fun _ _ _ passes => passes)
  rw [List.length_reverse] at inside
  have place : elements.length - 1 - (elements.length - 1 - position) = position := by
    omega
  have mirrored := fromThere (elements.length - 1 - position) (by rw [List.length_reverse]; omega)
  simp only [List.getElem_reverse, place] at mirrored
  rw [mirrored]
  omega

theorem lastIdx?_eq_none_iff :
    lastIdx? test elements = none ↔ ∀ element ∈ elements, test element = false := by
  rw [lastIdx?, Option.map_eq_none_iff, List.findIdx?_eq_none_iff]
  simp only [List.mem_reverse]

end RangeSelector

end InSitu
