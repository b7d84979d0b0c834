import InSitu.Proofs.History.Addressing
import InSitu.Proofs.History.CycleWindow
import InSitu.Proofs.Number.Merging

/-!
# Integer bounds of ranges

A range of indices or of cycles is refused for its bounds alone: a negative one,
or a last one before the first.  The bounds are compared as doubles.  Beyond
`2 ^ 53` two of them may be one double, and then their order is overlooked; the
range misses every history that is not as long as that.
-/

namespace InSitu

/-- The families of ranges with integer bounds. -/
inductive IntegerFamily where
  | absoluteIndex
  | relativeIndex
  | absoluteCycle
  deriving DecidableEq

namespace IntegerFamily

def selector : IntegerFamily → Int64 → Int64 → RangeSelector
  | absoluteIndex, first, last => .absoluteIndex first last
  | relativeIndex, first, last => .relativeIndex first last
  | absoluteCycle, first, last => .absoluteCycle first last

variable (family : IntegerFamily) (first last : Int64)

theorem selector_family_ne : (family.selector first last).family ≠ .absoluteTime := by
  cases family <;> exact Family.noConfusion

theorem selector_family_eq (otherFirst otherLast : Int64) :
    (family.selector first last).family = (family.selector otherFirst otherLast).family := by
  cases family <;> rfl

theorem selector_ends :
    (family.selector first last).ends = (Number.ofInt64 first, Number.ofInt64 last) := by
  cases family <;> rfl

/-- What a range resolves to once its bounds are accepted. -/
def span? : IntegerFamily → ValueTimeline → Int64 → Int64 → Option Span
  | absoluteIndex, timeline, first, last =>
    if (timeline.size : Int) ≤ first.toInt then none
    else some ⟨first.toInt.toNat, (min last.toInt (timeline.size - 1)).toNat⟩
  | relativeIndex, timeline, first, last =>
    if (timeline.size : Int) - first.toInt - 1 < 0 then none
    else some ⟨(max ((timeline.size : Int) - last.toInt - 1) 0).toNat,
      ((timeline.size : Int) - first.toInt - 1).toNat⟩
  | absoluteCycle, timeline, first, last =>
    RangeSelector.cycleSpan? timeline.entries first last

theorem span?_of_empty (natural : 0 ≤ first.toInt) {timeline : ValueTimeline}
    (empty : timeline.entries = []) : family.span? timeline first last = none := by
  have size : timeline.size = 0 := by
    rw [Timeline.size, empty, List.length_nil]
  cases family with
  | absoluteIndex =>
      exact if_pos (by omega)
  | relativeIndex =>
      exact if_pos (by omega)
  | absoluteCycle =>
      rw [span?, empty]
      rfl

end IntegerFamily

namespace RangeSelector

/-- Bounds out of order, of which one double stands for both. -/
def Overlooked (first last : Int64) : Prop :=
  0 ≤ last.toInt ∧ last.toInt < first.toInt ∧ Number.ofInt64 first = Number.ofInt64 last

theorem Overlooked.large {first last : Int64} (overlooked : Overlooked first last) :
    2 ^ 53 ≤ last.toInt := by
  obtain ⟨natural, unordered, merged⟩ := overlooked
  by_contra small
  have same := Number.toInt_eq_of_ofInt64_eq (natural.trans unordered.le) natural
    (Int.not_le.mp small) merged
  exact unordered.ne' same

variable (family : IntegerFamily) {first last : Int64}

theorem check_of_negative (negative : first.toInt < 0 ∨ last.toInt < 0) (node : String) :
    (family.selector first last).check node =
      .error (.badArgument node (.negativeBounds (family.selector first last).family
        (Number.ofInt64 first) (Number.ofInt64 last))) := by
  have zero : (0.0 : Float) = 0 := by
    rfl
  have below : Number.ofInt64 first < 0.0 ∨ Number.ofInt64 last < 0.0 := by
    rwa [zero, Number.ofInt64_lt_zero_iff, Number.ofInt64_lt_zero_iff]
  rw [check, family.selector_ends]
  exact if_pos ⟨family.selector_family_ne first last, below⟩

theorem check_of_natural (firstNatural : 0 ≤ first.toInt) (lastNatural : 0 ≤ last.toInt)
    (node : String) :
    (family.selector first last).check node =
      if Number.ofInt64 first ≤ Number.ofInt64 last then .ok ()
      else .error (.badArgument node (.unorderedBounds (family.selector first last).family
        (Number.ofInt64 first) (Number.ofInt64 last))) := by
  have zero : (0.0 : Float) = 0 := by
    rfl
  have above : ¬ (Number.ofInt64 first < 0.0 ∨ Number.ofInt64 last < 0.0) := by
    rw [zero, not_or]
    exact ⟨Number.not_ofInt64_lt_zero firstNatural, Number.not_ofInt64_lt_zero lastNatural⟩
  rw [check, family.selector_ends]
  dsimp only
  rw [if_neg (mt And.right above), ite_not]

/-- The check passes bounds in order, and those whose order it overlooks. -/
theorem check_integers_eq_ok_iff (first last : Int64) (node : String) :
    (family.selector first last).check node = .ok () ↔
      0 ≤ first.toInt ∧ first.toInt ≤ last.toInt ∨ Overlooked first last := by
  by_cases negative : first.toInt < 0 ∨ last.toInt < 0
  · rw [check_of_negative family negative]
    apply iff_of_false (fun passed => by cases passed)
    rintro (⟨natural, ordered⟩ | ⟨natural, unordered, _⟩) <;> omega
  · have firstNatural : 0 ≤ first.toInt := by
      omega
    have lastNatural : 0 ≤ last.toInt := by
      omega
    have below_iff := Number.ofInt64_le_ofInt64_iff firstNatural lastNatural
    rw [check_of_natural family firstNatural lastNatural]
    by_cases below : Number.ofInt64 first ≤ Number.ofInt64 last
    · rw [if_pos below]
      refine iff_of_true rfl ?_
      by_cases ordered : first.toInt ≤ last.toInt
      · exact .inl ⟨firstNatural, ordered⟩
      · have merged := (below_iff.mp below).resolve_left ordered
        exact .inr ⟨lastNatural, Int.not_le.mp ordered, merged⟩
    · rw [if_neg below]
      apply iff_of_false (fun passed => by cases passed)
      rw [below_iff, not_or] at below
      rintro (⟨_, ordered⟩ | ⟨_, _, merged⟩)
      · exact below.1 ordered
      · exact below.2 merged

theorem naturals_of_check {node : String}
    (passed : (family.selector first last).check node = .ok ()) :
    0 ≤ first.toInt ∧ 0 ≤ last.toInt := by
  rcases (check_integers_eq_ok_iff family first last node).mp passed with
    ⟨natural, ordered⟩ | ⟨natural, unordered, _⟩ <;> omega

/-- Nothing but the check refuses a range. -/
theorem resolve_of_check {node : String}
    (passed : (family.selector first last).check node = .ok ()) (timeline : ValueTimeline) :
    (family.selector first last).resolve node timeline =
      .ok (family.span? timeline first last) := by
  have natural := (naturals_of_check family passed).1
  rw [resolve, passed]
  simp only [bind, Except.bind]
  split
  · rename_i isEmpty
    rw [family.span?_of_empty first last natural (List.isEmpty_iff.mp isEmpty)]
    rfl
  · cases family with
    | absoluteIndex | relativeIndex =>
        dsimp only [IntegerFamily.selector, IntegerFamily.span?]
        rw [apply_ite Except.ok]
        rfl
    | absoluteCycle =>
        rfl

theorem exists_badArgument_of_check {selector : RangeSelector} {node : String}
    (refused : selector.check node ≠ .ok ()) (timeline : ValueTimeline) :
    ∃ cause, selector.resolve node timeline = .error (.badArgument node cause) := by
  rw [resolve]
  rw [check] at refused ⊢
  dsimp only at refused ⊢
  split at refused
  · rename_i negative
    rw [if_pos negative]
    exact ⟨_, rfl⟩
  · rename_i natural
    rw [if_neg natural]
    split at refused
    · rename_i unordered
      rw [if_pos unordered]
      exact ⟨_, rfl⟩
    · exact absurd rfl refused

/-- A range resolves to something if its bounds pass the check, and otherwise
they are a bad argument. -/
theorem resolve_iff_check (first last : Int64) (node : String) (timeline : ValueTimeline) :
    ((∃ resolved, (family.selector first last).resolve node timeline = .ok resolved) ↔
        (family.selector first last).check node = .ok ()) ∧
      ((∃ cause, (family.selector first last).resolve node timeline =
          .error (.badArgument node cause)) ↔
        (family.selector first last).check node ≠ .ok ()) := by
  by_cases passed : (family.selector first last).check node = .ok ()
  · rw [resolve_of_check family passed]
    refine ⟨iff_of_true ⟨_, rfl⟩ passed, iff_of_false ?_ (not_not_intro passed)⟩
    rintro ⟨cause, impossible⟩
    cases impossible
  · obtain ⟨cause, refuses⟩ := exists_badArgument_of_check passed timeline
    rw [refuses]
    refine ⟨iff_of_false ?_ passed, iff_of_true ⟨cause, rfl⟩ passed⟩
    rintro ⟨resolved, impossible⟩
    cases impossible

theorem cycleSpan?_of_unordered (entries : List ValueEntry) (unordered : last.toInt < first.toInt) :
    cycleSpan? entries first last = none := by
  cases isStart : entries.findIdx? fun entry => first ≤ entry.cycle.toInt64 with
  | none =>
      rw [cycleSpan?, isStart]
      rfl
  | some start =>
      obtain ⟨inside, reached, _⟩ := List.findIdx?_eq_some_iff_getElem.mp isStart
      have begun := Int64.le_iff_toInt_le.mp (of_decide_eq_true reached)
      rw [cycleSpan?_of_start inside isStart, if_neg]
      rw [Int64.le_iff_toInt_le]
      omega

/-- A range whose order is overlooked misses every history that is not as long. -/
theorem resolve_of_overlooked (overlooked : Overlooked first last) {timeline : ValueTimeline}
    (short : timeline.size ≤ 2 ^ 53) (node : String) :
    (family.selector first last).resolve node timeline = .ok none := by
  have large := overlooked.large
  have checked := (check_integers_eq_ok_iff family first last node).mpr (.inr overlooked)
  have unordered := overlooked.2.1
  rw [resolve_of_check family checked]
  refine congrArg Except.ok ?_
  cases family with
  | absoluteIndex =>
      exact if_pos (by omega)
  | relativeIndex =>
      exact if_pos (by omega)
  | absoluteCycle =>
      exact cycleSpan?_of_unordered timeline.entries unordered

/-! ## All integer bounds -/

/-- A range with integer bounds is refused if one of them is negative or they
are out of order, unless this is overlooked; else it resolves to something.  The
order is overlooked from `2 ^ 53` on. -/
theorem resolve_integers (first last : Int64) (node : String) (timeline : ValueTimeline) :
    ((∃ cause, (family.selector first last).resolve node timeline =
          .error (.badArgument node cause)) ↔
        (first.toInt < 0 ∨ last.toInt < 0 ∨ last.toInt < first.toInt) ∧
          ¬ Overlooked first last) ∧
      ((∃ resolved, (family.selector first last).resolve node timeline = .ok resolved) ↔
        0 ≤ first.toInt ∧ first.toInt ≤ last.toInt ∨ Overlooked first last) ∧
      (Overlooked first last → 2 ^ 53 ≤ last.toInt ∧
        (timeline.size ≤ 2 ^ 53 →
          (family.selector first last).resolve node timeline = .ok none)) := by
  obtain ⟨resolves_iff, refuses_iff⟩ := resolve_iff_check family first last node timeline
  refine ⟨?_, ?_, fun overlooked => ⟨overlooked.large, fun short =>
    resolve_of_overlooked family overlooked short node⟩⟩
  · rw [refuses_iff, ne_eq, check_integers_eq_ok_iff, not_or]
    apply and_congr_left
    intro _
    omega
  · rw [resolves_iff, check_integers_eq_ok_iff]

/-- Two bounds out of order, `2 ^ 53 + 1` and `2 ^ 53`, find nothing and are not
refused. -/
theorem overlooked_bounds_not_refused :
    (0x20000000000000 : Int64).toInt < (0x20000000000001 : Int64).toInt ∧
      (IntegerFamily.absoluteIndex.selector 0x20000000000001 0x20000000000000).resolve "w"
          Timeline.threeReadings = .ok none ∧
        ¬ ∃ cause, (IntegerFamily.absoluteIndex.selector 0x20000000000001
          0x20000000000000).resolve "w" Timeline.threeReadings =
            .error (.badArgument "w" cause) := by
  have unordered : (0x20000000000000 : Int64).toInt < (0x20000000000001 : Int64).toInt := by
    decide
  have overlooked : Overlooked 0x20000000000001 0x20000000000000 :=
    ⟨by decide, unordered, by decide +kernel⟩
  have short : Timeline.threeReadings.size ≤ 2 ^ 53 := by
    decide
  have missed := resolve_of_overlooked .absoluteIndex overlooked short "w"
  refine ⟨unordered, missed, ?_⟩
  rw [missed]
  rintro ⟨cause, impossible⟩
  cases impossible

end RangeSelector

end InSitu
