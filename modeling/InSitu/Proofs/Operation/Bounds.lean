import InSitu.Mesh.PointMesh
import InSitu.Operation.Recall
import InSitu.Proofs.History.Bounds

/-!
# Bounds at the inlets of a range

A node reads the two bounds of a range from its inlets and carries them through
doubles before it looks at the history.  A bound beyond `2 ^ 53` may come out as
a neighbour.  The node then answers for the window that it was asked for as long
as no entry is addressed between a bound and what became of it.
-/

namespace InSitu

namespace Run

open Number

theorem ofInt64_throughDouble (word : Int64) : ofInt64 (throughDouble word) = ofInt64 word :=
  cut_ofInt64 word

theorem throughDouble_of_small {word : Int64} (small : word.toInt.natAbs ≤ 2 ^ 53) :
    throughDouble word = word :=
  (toInt64_and_ofInt_of_isInteger (isInteger_ofInt64_of_small small)).1

theorem throughDouble_natural_iff (word : Int64) :
    0 ≤ (throughDouble word).toInt ↔ 0 ≤ word.toInt := by
  have same := ofInt64_lt_zero_iff (throughDouble word)
  rw [ofInt64_throughDouble, ofInt64_lt_zero_iff] at same
  omega

theorem throughDouble_mono {first second : Int64} (natural : 0 ≤ first.toInt)
    (ordered : first.toInt ≤ second.toInt) :
    (throughDouble first).toInt ≤ (throughDouble second).toInt := by
  obtain ⟨_, _, _, firstInteger, _⟩ := exists_isInteger_ofInt64 first
  obtain ⟨_, _, _, secondInteger, _⟩ := exists_isInteger_ofInt64 second
  have below := ofInt64_le_ofInt64 natural ordered
  by_contra crossed
  have above := ofInt64_le_ofInt64
    ((throughDouble_natural_iff second).mpr (natural.trans ordered)) (Int.not_le.mp crossed).le
  rw [ofInt64_throughDouble, ofInt64_throughDouble] at above
  have merged := firstInteger.eq_of_le_of_le secondInteger below above
  exact crossed (by rw [throughDouble, throughDouble, merged])

/-- An address below `2 ^ 53` stays on its side of a bound. -/
theorem throughDouble_le_iff {word : Int64} (natural : 0 ≤ word.toInt) {address : Int}
    (small : address < 2 ^ 53) : (throughDouble word).toInt ≤ address ↔ word.toInt ≤ address := by
  by_cases within : word.toInt ≤ 2 ^ 53
  · rw [throughDouble_of_small (by omega)]
  · have limit : (throughDouble 0x20000000000000).toInt = 2 ^ 53 := by
      decide +kernel
    have beyond : (throughDouble 0x20000000000000).toInt ≤ (throughDouble word).toInt :=
      throughDouble_mono (by decide) (Int.not_le.mp within).le
    omega

end Run

namespace IntegerFamily

/-- The number by which a family addresses the entry at a position. -/
def address (timeline : ValueTimeline) : IntegerFamily → Fin timeline.size → Int
  | absoluteIndex, position => position.val
  | relativeIndex, position => timeline.size - 1 - position.val
  | absoluteCycle, position => (timeline.entries.get position).cycle.toInt64.toInt

/-- The entry at a position lies between two bounds. -/
def InWindow (family : IntegerFamily) (timeline : ValueTimeline) (first last : Int64)
    (position : Fin timeline.size) : Prop :=
  first.toInt ≤ family.address timeline position ∧ family.address timeline position ≤ last.toInt

/-- No entry is on another side of a bound once the bounds went through doubles. -/
def SidesKept (family : IntegerFamily) (timeline : ValueTimeline) (first last : Int64) : Prop :=
  ∀ position : Fin timeline.size,
    (first.toInt ≤ family.address timeline position ↔
        (Run.throughDouble first).toInt ≤ family.address timeline position) ∧
      (family.address timeline position ≤ last.toInt ↔
        family.address timeline position ≤ (Run.throughDouble last).toInt)

variable {family : IntegerFamily} {timeline : ValueTimeline} {first last : Int64}

/-- All numbers below the size are indices. -/
theorem exists_address_eq (isIndex : family ≠ absoluteCycle) {index : Int} (natural : 0 ≤ index)
    (below : index < timeline.size) : ∃ position, family.address timeline position = index := by
  cases family with
  | absoluteIndex =>
      refine ⟨⟨index.toNat, by omega⟩, ?_⟩
      exact Int.toNat_of_nonneg natural
  | relativeIndex =>
      refine ⟨⟨((timeline.size : Int) - 1 - index).toNat, by omega⟩, ?_⟩
      dsimp only [address]
      omega
  | absoluteCycle =>
      exact absurd rfl isIndex

theorem sidesKept_of_small_bounds (firstSmall : first.toInt.natAbs ≤ 2 ^ 53)
    (lastSmall : last.toInt.natAbs ≤ 2 ^ 53) : family.SidesKept timeline first last := by
  rw [SidesKept, Run.throughDouble_of_small firstSmall, Run.throughDouble_of_small lastSmall]
  exact fun _ => ⟨Iff.rfl, Iff.rfl⟩

theorem sidesKept_of_small_addresses (firstNatural : 0 ≤ first.toInt)
    (lastNatural : 0 ≤ last.toInt)
    (small : ∀ position, family.address timeline position < 2 ^ 53) :
    family.SidesKept timeline first last := by
  intro position
  have below := small position
  have firstKept := Run.throughDouble_le_iff firstNatural below
  have previousBelow : family.address timeline position - 1 < 2 ^ 53 := by
    omega
  have lastKept := Run.throughDouble_le_iff lastNatural previousBelow
  omega

end IntegerFamily

/-- What a range resolved to is the one answer for the positions it addresses. -/
theorem Addresses.unique {resolved other : Option Span} {size : Nat} {selected : Nat → Prop}
    (addresses : Addresses resolved size selected)
    (otherAddresses : Addresses other size selected) : resolved = other := by
  cases resolved with
  | none =>
      exact (otherAddresses.none_iff.mpr (addresses.none_iff.mp rfl)).symm
  | some span =>
      cases other with
      | none =>
          exact addresses.none_iff.mpr (otherAddresses.none_iff.mp rfl)
      | some otherSpan =>
          obtain ⟨ordered, inside⟩ := addresses.within span rfl
          obtain ⟨otherOrdered, otherInside⟩ := otherAddresses.within otherSpan rfl
          have same (position : Nat) (known : position < size) :
              span.first ≤ position ∧ position ≤ span.last ↔
                otherSpan.first ≤ position ∧ position ≤ otherSpan.last :=
            (addresses.selected_iff span rfl position known).trans
              (otherAddresses.selected_iff otherSpan rfl position known).symm
          have atFirst := same span.first (by omega)
          have atLast := same span.last inside
          have atOtherFirst := same otherSpan.first (by omega)
          have atOtherLast := same otherSpan.last otherInside
          have sameSpan : span = otherSpan := by
            obtain ⟨start, stop⟩ := span
            obtain ⟨otherStart, otherStop⟩ := otherSpan
            simp only [Span.mk.injEq] at *
            omega
          rw [sameSpan]

namespace RangeSelector

open IntegerFamily

variable {family : IntegerFamily} {timeline : ValueTimeline} {first last : Int64}

theorem check_congr {selector other : RangeSelector} (sameFamily : selector.family = other.family)
    (sameEnds : selector.ends = other.ends) (node : String) :
    selector.check node = other.check node := by
  rw [check, check, sameFamily, sameEnds]

/-- The check does not see that the bounds went through doubles. -/
theorem check_throughDouble (family : IntegerFamily) (first last : Int64) (node : String) :
    (family.selector (Run.throughDouble first) (Run.throughDouble last)).check node =
      (family.selector first last).check node := by
  apply check_congr (family.selector_family_eq _ _ first last)
  rw [selector_ends, selector_ends, Run.ofInt64_throughDouble, Run.ofInt64_throughDouble]

theorem resolve_of_check_error {selector : RangeSelector} {node : String} {fault : Fault}
    (refused : selector.check node = .error fault) (timeline : ValueTimeline) :
    selector.resolve node timeline = .error fault := by
  rw [resolve, refused]
  rfl

theorem findIdx?_congr {α : Type} {test other : α → Bool} {elements : List α}
    (alike : ∀ element ∈ elements, test element = other element) :
    elements.findIdx? test = elements.findIdx? other := by
  induction elements with
  | nil =>
      rfl
  | cons element rest inductionHypothesis =>
      have restAlike := inductionHypothesis fun later member =>
        alike later (List.mem_cons_of_mem element member)
      rw [List.findIdx?_cons, List.findIdx?_cons, alike element List.mem_cons_self, restAlike]

theorem cycleSpan?_congr {entries : List ValueEntry} {otherFirst otherLast : Int64}
    (alike : ∀ entry ∈ entries,
      (first.toInt ≤ entry.cycle.toInt64.toInt ↔ otherFirst.toInt ≤ entry.cycle.toInt64.toInt) ∧
        (entry.cycle.toInt64.toInt ≤ last.toInt ↔
          entry.cycle.toInt64.toInt ≤ otherLast.toInt)) :
    cycleSpan? entries first last = cycleSpan? entries otherFirst otherLast := by
  have begins : entries.findIdx? (fun entry => decide (first ≤ entry.cycle.toInt64)) =
      entries.findIdx? fun entry => decide (otherFirst ≤ entry.cycle.toInt64) := by
    refine findIdx?_congr fun entry member => ?_
    rw [decide_eq_decide, Int64.le_iff_toInt_le, Int64.le_iff_toInt_le]
    exact (alike entry member).1
  have ends : entries.findIdx? (fun entry => decide (last < entry.cycle.toInt64)) =
      entries.findIdx? fun entry => decide (otherLast < entry.cycle.toInt64) := by
    refine findIdx?_congr fun entry member => ?_
    rw [decide_eq_decide, Int64.lt_iff_toInt_lt, Int64.lt_iff_toInt_lt, ← Int.not_le, ← Int.not_le]
    exact not_congr (alike entry member).2
  cases isStart : entries.findIdx? fun entry => decide (otherFirst ≤ entry.cycle.toInt64) with
  | none =>
      rw [cycleSpan?, cycleSpan?, begins, isStart, Option.bind_none, Option.bind_none]
  | some start =>
      obtain ⟨inside, _⟩ := List.findIdx?_eq_some_iff_getElem.mp isStart
      have within := (alike _ (List.getElem_mem inside)).2
      rw [← Int64.le_iff_toInt_le, ← Int64.le_iff_toInt_le] at within
      rw [cycleSpan?_of_start inside (begins.trans isStart), cycleSpan?_of_start inside isStart,
        ends]
      simp only [within]

/-- A bound is cut at a size, and up to there it is known by the addresses that
it leaves on either side. -/
theorem min_eq_min_of_sides {size bound other : Int} (natural : 0 ≤ bound)
    (otherNatural : 0 ≤ other)
    (sides : ∀ address, 0 ≤ address → address < size → (bound ≤ address ↔ other ≤ address)) :
    min bound size = min other size := by
  have atBound := sides bound
  have atOther := sides other
  omega

theorem span?_of_sidesKept (kept : family.SidesKept timeline first last)
    (firstNatural : 0 ≤ first.toInt) (lastNatural : 0 ≤ last.toInt) :
    family.span? timeline (Run.throughDouble first) (Run.throughDouble last) =
      family.span? timeline first last := by
  have firstKept := (Run.throughDouble_natural_iff first).mpr firstNatural
  have lastKept := (Run.throughDouble_natural_iff last).mpr lastNatural
  cases isFamily : family with
  | absoluteIndex | relativeIndex =>
      have isIndex : family ≠ IntegerFamily.absoluteCycle := by
        rw [isFamily]
        exact IntegerFamily.noConfusion
      have sameFirst : min first.toInt timeline.size =
          min (Run.throughDouble first).toInt timeline.size :=
        min_eq_min_of_sides firstNatural firstKept fun address natural below => by
          obtain ⟨position, rfl⟩ := exists_address_eq isIndex natural below
          exact (kept position).1
      have sameLast : min (last.toInt + 1) timeline.size =
          min ((Run.throughDouble last).toInt + 1) timeline.size :=
        min_eq_min_of_sides (by omega) (by omega) fun address natural below => by
          obtain ⟨position, rfl⟩ := exists_address_eq isIndex natural below
          have sides := (kept position).2
          omega
      dsimp only [span?]
      split <;> split <;> first | omega | skip
      · rfl
      · congr 2 <;> omega
  | absoluteCycle =>
      subst isFamily
      refine cycleSpan?_congr fun entry member => ?_
      obtain ⟨position, rfl⟩ := List.get_of_mem member
      exact ⟨(kept position).1.symm, (kept position).2.symm⟩

/-- Bounds that keep all addresses on their sides resolve as if they had not
gone through doubles. -/
theorem resolve_of_sidesKept
    (kept : 0 ≤ first.toInt → 0 ≤ last.toInt → family.SidesKept timeline first last)
    (node : String) :
    (family.selector (Run.throughDouble first) (Run.throughDouble last)).resolve node timeline =
      (family.selector first last).resolve node timeline := by
  have sameCheck := check_throughDouble family first last node
  cases checked : (family.selector first last).check node with
  | error fault =>
      rw [checked] at sameCheck
      rw [resolve_of_check_error checked, resolve_of_check_error sameCheck]
  | ok passed =>
      have natural := naturals_of_check family checked
      rw [resolve_of_check family checked, resolve_of_check family (sameCheck.trans checked),
        span?_of_sidesKept (kept natural.1 natural.2) natural.1 natural.2]

/-- A range in order resolves to the entries in its window, where cycles rise and
words hold them. -/
theorem span?_addresses (natural : 0 ≤ first.toInt) (ordered : first.toInt ≤ last.toInt)
    (ascending : Timeline.Ascending timeline.entries)
    (inWords : ∀ entry ∈ timeline.entries, ¬ BeyondWords entry) :
    Addresses (family.span? timeline first last) timeline.size fun position =>
      ∃ known, family.InWindow timeline first last ⟨position, known⟩ := by
  cases family with
  | absoluteIndex | relativeIndex =>
      dsimp only [span?, InWindow, address]
      split
      · exact addresses_none fun position inside ⟨_, within⟩ => by omega
      · refine addresses_some (by dsimp only; omega) (by dsimp only; omega)
          fun position inside => ?_
        simp only [inside, exists_true_left]
        omega
  | absoluteCycle =>
      have within : ¬ Overruns timeline.entries first last := by
        rintro ⟨_, ⟨entry, member, beyond⟩, _⟩
        exact inWords entry member beyond
      have addresses := (cycleSpan?_addresses ascending natural ordered).resolve_right
        fun overruns => within overruns.2
      refine addresses.1.congr fun position known => ?_
      have inWord := inWords _ (List.getElem_mem known)
      rw [BeyondWords, Nat.not_le] at inWord
      have signed : timeline.entries[position].cycle.toInt64.toInt =
          timeline.entries[position].cycle.toNat := by
        rw [toInt_toInt64, if_pos inWord]
      have same : IntegerFamily.absoluteCycle.InWindow timeline first last ⟨position, known⟩ ↔
          InCycles first last timeline.entries[position] := by
        change first.toInt ≤ timeline.entries[position].cycle.toInt64.toInt ∧
          timeline.entries[position].cycle.toInt64.toInt ≤ last.toInt ↔ _
        rw [signed]
        exact Iff.rfl
      rw [holdsAt_iff known, ← same]
      constructor
      · exact fun inWindow => ⟨known, inWindow⟩
      · rintro ⟨_, inWindow⟩
        exact inWindow

/-- Two ranges in order resolve alike exactly if the same entries are in their
windows. -/
theorem resolve_eq_iff_inWindow {otherFirst otherLast : Int64} (natural : 0 ≤ first.toInt)
    (ordered : first.toInt ≤ last.toInt) (otherNatural : 0 ≤ otherFirst.toInt)
    (otherOrdered : otherFirst.toInt ≤ otherLast.toInt)
    (ascending : Timeline.Ascending timeline.entries)
    (inWords : ∀ entry ∈ timeline.entries, ¬ BeyondWords entry) (node : String) :
    (family.selector otherFirst otherLast).resolve node timeline =
        (family.selector first last).resolve node timeline ↔
      ∀ position, family.InWindow timeline otherFirst otherLast position ↔
        family.InWindow timeline first last position := by
  have passed := (check_integers_eq_ok_iff family first last node).mpr (.inl ⟨natural, ordered⟩)
  have otherPassed := (check_integers_eq_ok_iff family otherFirst otherLast node).mpr
    (.inl ⟨otherNatural, otherOrdered⟩)
  have addresses := @span?_addresses family _ _ _ natural ordered ascending inWords
  have otherAddresses :=
    @span?_addresses family _ _ _ otherNatural otherOrdered ascending inWords
  rw [resolve_of_check family passed, resolve_of_check family otherPassed, Except.ok.injEq]
  constructor
  · intro same position
    rw [same] at otherAddresses
    have selected := otherAddresses.selected_iff_selected addresses position.isLt
    simpa only [position.isLt, exists_true_left] using selected
  · intro same
    refine otherAddresses.unique (addresses.congr fun position known => ?_)
    exact exists_congr fun _ => (same ⟨position, known⟩).symm

end RangeSelector

/-! ## Nodes that read their bounds -/

namespace IntegerFamily

def firstInlet : IntegerFamily → String
  | absoluteIndex => "first_absolute_index"
  | relativeIndex => "first_relative_index"
  | absoluteCycle => "first_absolute_cycle"

def lastInlet : IntegerFamily → String
  | absoluteIndex => "last_absolute_index"
  | relativeIndex => "last_relative_index"
  | absoluteCycle => "last_absolute_cycle"

theorem firstInlet_injective : Function.Injective firstInlet := by
  intro family other same
  cases family <;> cases other <;> first | rfl | exact absurd same (by decide)

theorem lastInlet_injective : Function.Injective lastInlet := by
  intro family other same
  cases family <;> cases other <;> first | rfl | exact absurd same (by decide)

theorem firstInlet_ne_lastInlet (family other : IntegerFamily) :
    family.firstInlet ≠ other.lastInlet := by
  cases family <;> cases other <;> decide

theorem inlets_mem_rangeInlets (family : IntegerFamily) :
    family.firstInlet ∈ Run.rangeInlets ∧ family.lastInlet ∈ Run.rangeInlets := by
  cases family <;> decide

end IntegerFamily

namespace Inputs

/-- Two integers at the inlets of one family, and nothing at those of the others. -/
structure Bounds (inputs : Inputs) (family : IntegerFamily) (first last : Int64) : Prop where
  first : inputs.get? family.firstInlet = some (.int first)
  last : inputs.get? family.lastInlet = some (.int last)
  others : ∀ inlet ∈ Run.rangeInlets, inlet ≠ family.firstInlet → inlet ≠ family.lastInlet →
    inputs.get? inlet = none

variable {inputs : Inputs} {inlet : String}

theorem int?_of_get? {number : Int64} (found : inputs.get? inlet = some (.int number)) :
    inputs.int? inlet = .ok (some number) := by
  rw [int?, read?, found]
  rfl

theorem read?_of_get?_none {α : Type} {expected : Expected} {reading : Value → Option α}
    (nothing : inputs.get? inlet = none) : inputs.read? inlet expected reading = .ok none := by
  rw [read?, nothing]

end Inputs

namespace Run

variable {inputs : Inputs} {environment : Environment} {family : IntegerFamily}
  {first last : Int64}

/-- The inlets of one family have ends, and those of the others have none. -/
theorem integerEnds_of_bounds (bounds : inputs.Bounds family first last)
    (asked : IntegerFamily) :
    integerEnds inputs asked.firstInlet asked.lastInlet =
      .ok (if asked = family then some (throughDouble first, throughDouble last) else none) := by
  by_cases same : asked = family
  · rw [if_pos same, same, integerEnds, Inputs.int?_of_get? bounds.first,
      Inputs.int?_of_get? bounds.last]
    rfl
  · obtain ⟨firstInlet, lastInlet⟩ := asked.inlets_mem_rangeInlets
    have noFirst : inputs.get? asked.firstInlet = none :=
      bounds.others _ firstInlet (IntegerFamily.firstInlet_injective.ne same)
        (asked.firstInlet_ne_lastInlet family)
    have noLast : inputs.get? asked.lastInlet = none :=
      bounds.others _ lastInlet (family.firstInlet_ne_lastInlet asked).symm
        (IntegerFamily.lastInlet_injective.ne same)
    rw [if_neg same, integerEnds, Inputs.int?, Inputs.int?, Inputs.read?_of_get?_none noFirst,
      Inputs.read?_of_get?_none noLast]
    rfl

theorem rangeSelector_of_bounds (bounds : inputs.Bounds family first last) :
    rangeSelector inputs = .ok (family.selector (throughDouble first) (throughDouble last)) := by
  have noTime (inlet : String) (isTime : inlet = "first_absolute_time" ∨
      inlet = "last_absolute_time") : inputs.number? inlet = .ok none := by
    apply Inputs.read?_of_get?_none
    apply bounds.others
    · rcases isTime with rfl | rfl <;> simp [rangeInlets]
    · rcases isTime with rfl | rfl <;> cases family <;> decide
    · rcases isTime with rfl | rfl <;> cases family <;> decide
  have absolute := integerEnds_of_bounds bounds .absoluteIndex
  have relative := integerEnds_of_bounds bounds .relativeIndex
  have cycle := integerEnds_of_bounds bounds .absoluteCycle
  dsimp only [IntegerFamily.firstInlet, IntegerFamily.lastInlet] at absolute relative cycle
  rw [rangeSelector, absolute, relative, noTime _ (.inl rfl), noTime _ (.inr rfl), cycle]
  cases family <;> rfl

/-- The value that stands for a range. -/
def rangeValue (timeline : ValueTimeline) (node : String) (selector : RangeSelector) :
    Except Fault Value :=
  (timeline.range node selector none).map fun
    | some window => .array window.values
    | none => .null

/-- The value that stands for the rates of change in a range. -/
def rangeGradientValue (timeline : ValueTimeline) (node : String) (selector : RangeSelector) :
    Except Fault Value :=
  (timeline.rangeGradient node selector).map fun gradients => .array (.doubles gradients)

variable {timeline : ValueTimeline}

theorem range_of_check_error {selector : RangeSelector} {node : String} {fault : Fault}
    (refused : selector.check node = .error fault) (timeline : ValueTimeline)
    (unit : Option DeltaUnit) : timeline.range node selector unit = .error fault := by
  rw [Timeline.range, RangeSelector.resolve_of_check_error refused]
  rfl

/-- The node checks its bounds before it looks for the history, and the range
does so again. -/
theorem historyRange_of_bounds (bounds : inputs.Bounds family first last)
    (known : knownTimeline inputs environment = .ok timeline) :
    historyRange inputs environment =
      rangeValue timeline inputs.node
        (family.selector (throughDouble first) (throughDouble last)) := by
  rw [historyRange, rangeSelector_of_bounds bounds, rangeValue]
  generalize family.selector (throughDouble first) (throughDouble last) = selector
  cases checked : selector.check inputs.node with
  | error fault =>
      rw [range_of_check_error checked]
      simp only [bind, Except.bind, checked]
      rfl
  | ok passed =>
      simp only [bind, Except.bind, checked, known]
      cases timeline.range inputs.node selector none with
      | error fault =>
          rfl
      | ok window =>
          cases window <;> rfl

theorem historyRangeGradient_of_bounds (bounds : inputs.Bounds family first last)
    (known : knownTimeline inputs environment = .ok timeline) :
    historyRangeGradient inputs environment =
      rangeGradientValue timeline inputs.node
        (family.selector (throughDouble first) (throughDouble last)) := by
  rw [historyRangeGradient, rangeSelector_of_bounds bounds, rangeGradientValue]
  generalize family.selector (throughDouble first) (throughDouble last) = selector
  cases checked : selector.check inputs.node with
  | error fault =>
      rw [Timeline.rangeGradient, range_of_check_error checked]
      simp only [bind, Except.bind, checked]
      rfl
  | ok passed =>
      simp only [bind, Except.bind, checked, known]
      cases timeline.rangeGradient inputs.node selector <;> rfl

/-- Ranges that resolve alike have the same values and rates of change. -/
theorem rangeValue_of_resolve {selector other : RangeSelector} {node : String}
    (alike : selector.resolve node timeline = other.resolve node timeline) :
    rangeValue timeline node selector = rangeValue timeline node other ∧
      rangeGradientValue timeline node selector = rangeGradientValue timeline node other := by
  have same (unit : Option DeltaUnit) :
      timeline.range node selector unit = timeline.range node other unit := by
    rw [Timeline.range, Timeline.range, alike]
  rw [rangeValue, rangeValue, rangeGradientValue, rangeGradientValue, Timeline.rangeGradient,
    Timeline.rangeGradient, same, same]
  exact ⟨rfl, rfl⟩

/-- Both nodes that take a range answer for the one that a selector chooses. -/
def AnswersFor (inputs : Inputs) (environment : Environment) (timeline : ValueTimeline)
    (selector : RangeSelector) : Prop :=
  historyRange inputs environment = rangeValue timeline inputs.node selector ∧
    historyRangeGradient inputs environment = rangeGradientValue timeline inputs.node selector

theorem AnswersFor.of_resolve {selector other : RangeSelector}
    (answers : AnswersFor inputs environment timeline selector)
    (alike : selector.resolve inputs.node timeline = other.resolve inputs.node timeline) :
    AnswersFor inputs environment timeline other := by
  obtain ⟨sameValue, sameGradient⟩ := rangeValue_of_resolve alike
  exact ⟨answers.1.trans sameValue, answers.2.trans sameGradient⟩

/-- A node answers for its two bounds as doubles carry them.  It answers for the
bounds themselves if no entry changes its side of one, and so if the bounds or
the addresses of all entries are small.  A range in order resolves as it should
exactly if no entry comes into its window or falls out of it. -/
theorem answersFor_bounds (bounds : inputs.Bounds family first last)
    (known : knownTimeline inputs environment = .ok timeline) :
    AnswersFor inputs environment timeline
        (family.selector (throughDouble first) (throughDouble last)) ∧
      (family.SidesKept timeline first last ∨
          first.toInt.natAbs ≤ 2 ^ 53 ∧ last.toInt.natAbs ≤ 2 ^ 53 ∨
          (∀ position, family.address timeline position < 2 ^ 53) →
        AnswersFor inputs environment timeline (family.selector first last)) ∧
      (0 ≤ first.toInt → first.toInt ≤ last.toInt → Timeline.Ascending timeline.entries →
        (∀ entry ∈ timeline.entries, ¬ RangeSelector.BeyondWords entry) →
          ((family.selector (throughDouble first) (throughDouble last)).resolve inputs.node
                timeline = (family.selector first last).resolve inputs.node timeline ↔
            ∀ position, family.InWindow timeline (throughDouble first) (throughDouble last)
                position ↔ family.InWindow timeline first last position)) := by
  have answers : AnswersFor inputs environment timeline
      (family.selector (throughDouble first) (throughDouble last)) :=
    ⟨historyRange_of_bounds bounds known, historyRangeGradient_of_bounds bounds known⟩
  refine ⟨answers, fun near => ?_, fun natural ordered ascending inWords => ?_⟩
  · refine answers.of_resolve (RangeSelector.resolve_of_sidesKept ?_ inputs.node)
    intro firstNatural lastNatural
    rcases near with kept | ⟨firstSmall, lastSmall⟩ | small
    · exact kept
    · exact IntegerFamily.sidesKept_of_small_bounds firstSmall lastSmall
    · exact IntegerFamily.sidesKept_of_small_addresses firstNatural lastNatural small
  · apply RangeSelector.resolve_eq_iff_inWindow natural ordered _ _ ascending inWords
    · exact (throughDouble_natural_iff first).mpr natural
    · exact throughDouble_mono natural ordered

/-- A window of cycles of the expression `far`. -/
def farInputs (first last : Int64) : Inputs :=
  ⟨"node", Table.ofList [("expr_name", ⟨.null, some "far"⟩),
    ("first_absolute_cycle", ⟨.int first, none⟩), ("last_absolute_cycle", ⟨.int last, none⟩)]⟩

/-- One entry, in cycle `2 ^ 53`. -/
def farTimeline : ValueTimeline := ⟨[⟨0x20000000000000, none, .double 1.0⟩]⟩

def farEnvironment : Environment :=
  ⟨⟨Table.ofList [("far", farTimeline)], none⟩,
    PointMesh.toDataset ⟨0, none, "mesh", [], Table.empty⟩, {}⟩

theorem farInputs_bounds (first last : Int64) :
    (farInputs first last).Bounds .absoluteCycle first last where
  first := rfl
  last := rfl
  others := by
    intro inlet member isNotFirst isNotLast
    simp only [rangeInlets, List.mem_cons, List.not_mem_nil, or_false] at member
    rcases member with rfl | rfl | rfl | rfl | rfl | rfl | rfl | rfl
    all_goals first | rfl | exact absurd rfl isNotFirst | exact absurd rfl isNotLast

theorem farTimeline_known (first last : Int64) :
    knownTimeline (farInputs first last) farEnvironment = .ok farTimeline := by
  rfl

theorem answersFor_far_bounds :
    (farInputs 0 0x20000000000000).Bounds .absoluteCycle 0 0x20000000000000 ∧
      knownTimeline (farInputs 0 0x20000000000000) farEnvironment = .ok farTimeline ∧
      AnswersFor (farInputs 0 0x20000000000000) farEnvironment farTimeline
        (.absoluteCycle 0 0x20000000000000) := by
  have bounds := farInputs_bounds 0 0x20000000000000
  have known := farTimeline_known 0 0x20000000000000
  have small : (0 : Int64).toInt.natAbs ≤ 2 ^ 53 ∧
      (0x20000000000000 : Int64).toInt.natAbs ≤ 2 ^ 53 := by
    decide
  exact ⟨bounds, known, (answersFor_bounds bounds known).2.1 (.inr (.inl small))⟩

/-- The window begins and ends at cycle `2 ^ 53 + 1`, and the node finds the entry
of the cycle before. -/
theorem far_bounds_misread :
    (farInputs 0x20000000000001 0x20000000000001).Bounds .absoluteCycle 0x20000000000001
        0x20000000000001 ∧
      knownTimeline (farInputs 0x20000000000001 0x20000000000001) farEnvironment =
        .ok farTimeline ∧
      historyRange (farInputs 0x20000000000001 0x20000000000001) farEnvironment =
        .ok (.array ⟨.float64, [1.0]⟩) ∧
      rangeValue farTimeline "node" (.absoluteCycle 0x20000000000001 0x20000000000001) =
        .ok .null ∧
      ¬ AnswersFor (farInputs 0x20000000000001 0x20000000000001) farEnvironment farTimeline
        (.absoluteCycle 0x20000000000001 0x20000000000001) := by
  have bounds := farInputs_bounds 0x20000000000001 0x20000000000001
  have known := farTimeline_known 0x20000000000001 0x20000000000001
  have resolves (cycle : Int64) (natural : 0 ≤ cycle.toInt) :
      (RangeSelector.absoluteCycle cycle cycle).resolve "node" farTimeline =
        .ok (RangeSelector.cycleSpan? farTimeline.entries cycle cycle) :=
    RangeSelector.resolve_absoluteCycle_eq natural le_rfl "node"
  have rounded : throughDouble 0x20000000000001 = 0x20000000000000 := by
    decide +kernel
  have found : historyRange (farInputs 0x20000000000001 0x20000000000001) farEnvironment =
      .ok (.array ⟨.float64, [1.0]⟩) := by
    have answer := historyRange_of_bounds bounds known
    rw [rounded] at answer
    change historyRange _ _ = rangeValue farTimeline "node"
      (.absoluteCycle 0x20000000000000 0x20000000000000) at answer
    rw [answer, rangeValue, Timeline.range, resolves 0x20000000000000 (by decide)]
    rfl
  have missed : rangeValue farTimeline "node"
      (.absoluteCycle 0x20000000000001 0x20000000000001) = .ok .null := by
    rw [rangeValue, Timeline.range, resolves 0x20000000000001 (by decide)]
    rfl
  refine ⟨bounds, known, found, missed, ?_⟩
  rintro ⟨answers, _⟩
  rw [found] at answers
  have impossible := answers.trans missed
  cases impossible

end Run

end InSitu
