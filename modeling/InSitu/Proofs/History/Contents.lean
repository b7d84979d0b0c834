import InSitu.Proofs.History.CycleWindow
import InSitu.Proofs.History.TimeWindow
import InSitu.Proofs.Number.Words
import InSitu.Proofs.Wire.Payload
import InSitu.Proofs.Yielding

/-!
# The array of a window

A window has one number for every entry of its span.  The element type of its
array is that of the first entry alone, and the elements of an array of integers
are read and stored as words.  So the numbers are read back as they are, unless
the first entry is an integer and a later one is no word; then the later one is
cut.
-/

namespace InSitu

namespace NumericArray

/-- The double that an element is read as. -/
def reading? (array : NumericArray) (position : Nat) : Option Float :=
  (array.element? position).bind Value.double?

theorem reading?_eq (array : NumericArray) (position : Nat) :
    array.reading? position = array.elements[position]?.map fun number =>
      if array.elementType.isInteger then Number.cut number else number := by
  rw [reading?, element?]
  cases array.elements[position]? with
  | none =>
      rfl
  | some number =>
      cases array.elementType <;> rfl

/-- An array is stored with the elements that are read from it. -/
theorem exists_stored_reading (array : NumericArray) :
    ∃ stored, (Wire.ofValue (.array array)).toValue = .ok (.array stored) ∧
      ∀ position, stored.elements[position]? = array.reading? position := by
  have read (stored : NumericArray) (isStored : Wire.arrayOf .array (Wire.arrayJson array) =
      .ok stored) : (Wire.ofValue (.array array)).toValue = .ok (.array stored) := by
    change (Wire.arrayOf .array (Wire.arrayJson array)).map Value.array = _
    rw [isStored]
    rfl
  cases isInteger : array.elementType.isInteger with
  | false =>
      have written := Wire.arrayJson_of_not_isInteger isInteger
      refine ⟨_, read _ (by rw [written, Wire.arrayOf_numberJson]), fun position => ?_⟩
      simp [reading?_eq, isInteger, doubles]
  | true =>
      refine ⟨_, read _ (Wire.arrayOf_arrayJson_of_isInteger .array isInteger), fun position => ?_⟩
      simp [reading?_eq, isInteger, Number.cut, Number.ofInt64]

end NumericArray

namespace RangeSelector

theorem natural_of_check {selector : RangeSelector} {first last : Int64} {node : String}
    (ends : selector.ends = (Number.ofInt64 first, Number.ofInt64 last))
    (untimed : selector.family ≠ .absoluteTime) (checked : selector.check node = .ok ()) :
    0 ≤ first.toInt := by
  by_contra negative
  have below : Number.ofInt64 first < 0.0 :=
    (Number.ofInt64_lt_zero_iff first).mpr (Int.not_le.mp negative)
  rw [check, ends] at checked
  dsimp only at checked
  rw [if_pos ⟨untimed, .inl below⟩] at checked
  cases checked

theorem resolve_within (selector : RangeSelector) (node : String) (timeline : ValueTimeline) :
    Yields (fun resolved => ∀ span, resolved = some span → span.last < timeline.size)
      (selector.resolve node timeline) := by
  rw [resolve]
  simp only [yields_bind]
  intro _ checked
  by_cases recorded : timeline.entries.isEmpty
  · simp [recorded]
  · have positive : 0 < timeline.size := by
      rw [List.isEmpty_iff] at recorded
      exact List.length_pos_iff.mpr recorded
    rw [if_neg recorded]
    cases selector with
    | absoluteIndex first last =>
        simp only [yields_ite, yields_pure]
        refine ⟨by simp, ?_⟩
        rintro _ _ ⟨⟩
        change (min last.toInt (timeline.size - 1)).toNat < timeline.size
        omega
    | relativeIndex first last =>
        have natural := natural_of_check rfl (by simp [family]) checked
        simp only [yields_ite, yields_pure]
        refine ⟨by simp, ?_⟩
        rintro _ _ ⟨⟩
        change ((timeline.size : Int) - first.toInt - 1).toNat < timeline.size
        omega
    | absoluteTime first last =>
        simp only [yields_bind, yields_pure]
        intro times areTimes span found
        have inside := timeSpan?_within found
        rwa [yields_times node timeline.entries times areTimes] at inside
    | absoluteCycle first last =>
        simp only [yields_pure]
        intro span found
        exact cycleSpan?_within found

end RangeSelector

namespace Timeline

/-! ## The numbers of a window -/

theorem yields_windowValues (node : String) (entries : List ValueEntry) :
    Yields (fun values => entries.map (fun entry => entry.value.scalar?) =
          values.elements.map some ∧
        (values.elementType.isInteger = true ↔
          ∃ entry word, entries[0]? = some entry ∧ entry.value = .int word))
      (windowValues node entries) := by
  unfold windowValues
  simp only [yields_bind, yields_pure]
  intro elements areElements
  constructor
  · refine yields_mapM_map (fun entry => entry.value.scalar?) (fun entry => ?_) elements areElements
    split <;> simp [*]
  · split
    · exact iff_of_true rfl ⟨_, _, rfl, rfl⟩
    · rename_i notInteger
      refine iff_of_false Bool.false_ne_true ?_
      rintro ⟨⟨cycle, time, _⟩, word, isFirst, rfl⟩
      rw [← List.head?_eq_getElem?, List.head?_eq_some_iff] at isFirst
      obtain ⟨rest, rfl⟩ := isFirst
      exact notInteger _ _ _ _ rfl

section Windows

variable {timeline : ValueTimeline} {span : Span} {values : NumericArray}

/-- The first entry of a span is an integer. -/
def BeginsWithInteger (timeline : ValueTimeline) (span : Span) : Prop :=
  ∃ entry word, timeline.entries[span.first]? = some entry ∧ entry.value = .int word

/-- The elements of an array are the numbers of the entries of a span, and they
are integers if the first entry is one. -/
structure Gathers (timeline : ValueTimeline) (span : Span) (values : NumericArray) : Prop where
  length : values.elements.length = span.last + 1 - span.first
  numbers : ∀ position, span.first + position ≤ span.last →
    ∃ entry number, timeline.entries[span.first + position]? = some entry ∧
      entry.value.scalar? = some number ∧ values.elements[position]? = some number
  isInteger_iff : values.elementType.isInteger = true ↔
    span.first ≤ span.last ∧ BeginsWithInteger timeline span

/-- Every element is read back as the number of its entry. -/
def ReadsBack (timeline : ValueTimeline) (span : Span) (values : NumericArray) : Prop :=
  ∀ position, span.first + position ≤ span.last →
    ∃ entry number element, timeline.entries[span.first + position]? = some entry ∧
      entry.value.scalar? = some number ∧ values.reading? position = some element ∧
      Number.Same element number

/-- The first entry of a span is an integer, and the number of another is none of a word. -/
def Truncates (timeline : ValueTimeline) (span : Span) : Prop :=
  BeginsWithInteger timeline span ∧
    ∃ position entry number, span.first + position ≤ span.last ∧
      timeline.entries[span.first + position]? = some entry ∧
      entry.value.scalar? = some number ∧ ¬ Number.IsWord number

theorem yields_gathers (node : String) (inside : span.last < timeline.size) :
    Yields (Gathers timeline span) (windowValues node (timeline.slice span)) := by
  intro values areValues
  obtain ⟨numbers, isInteger_iff⟩ := yields_windowValues node (timeline.slice span) values areValues
  have length := congrArg List.length numbers
  rw [List.length_map, List.length_map, length_slice inside] at length
  refine ⟨length.symm, fun position within => ?_, ?_⟩
  · have found := congrArg (fun items => items[position]?) numbers
    have known : span.first + position < timeline.entries.length := within.trans_lt inside
    simp only [List.getElem?_map, getElem?_slice, if_pos within,
      List.getElem?_eq_getElem known, Option.map_some] at found
    obtain ⟨number, isNumber, same⟩ := Option.map_eq_some_iff.mp found.symm
    exact ⟨_, number, List.getElem?_eq_getElem known, same.symm, isNumber⟩
  · rw [isInteger_iff, getElem?_slice, Nat.add_zero]
    by_cases ordered : span.first ≤ span.last
    · rw [if_pos ordered, and_iff_right ordered, BeginsWithInteger]
    · simp [ordered]

theorem Gathers.getElem?_elements (gathers : Gathers timeline span values) {position : Nat}
    {entry : ValueEntry} {number : Float} (within : span.first + position ≤ span.last)
    (isEntry : timeline.entries[span.first + position]? = some entry)
    (isNumber : entry.value.scalar? = some number) : values.elements[position]? = some number := by
  obtain ⟨_, _, heldEntry, heldNumber, held⟩ := gathers.numbers position within
  cases isEntry.symm.trans heldEntry
  cases isNumber.symm.trans heldNumber
  exact held

theorem Gathers.readsBack_iff (gathers : Gathers timeline span values) :
    ReadsBack timeline span values ↔ ¬ Truncates timeline span := by
  constructor
  · rintro readsBack ⟨begins, position, entry, number, within, isEntry, isNumber, notWord⟩
    have isInteger := gathers.isInteger_iff.mpr ⟨(Nat.le_add_right _ _).trans within, begins⟩
    obtain ⟨_, _, element, readEntry, readNumber, isElement, same⟩ := readsBack position within
    cases isEntry.symm.trans readEntry
    cases isNumber.symm.trans readNumber
    rw [NumericArray.reading?_eq, gathers.getElem?_elements within isEntry isNumber,
      isInteger] at isElement
    cases isElement
    exact notWord ((Number.same_cut_iff number).mp same)
  · intro notTruncated position within
    obtain ⟨entry, number, isEntry, isNumber, held⟩ := gathers.numbers position within
    refine ⟨entry, number, _, isEntry, isNumber, by rw [NumericArray.reading?_eq, held]; rfl, ?_⟩
    split
    · rename_i isInteger
      rw [Number.same_cut_iff]
      by_contra notWord
      exact notTruncated ⟨(gathers.isInteger_iff.mp isInteger).2, position, entry, number, within,
        isEntry, isNumber, notWord⟩
    · exact Number.same_self number

theorem Gathers.reading?_of_truncates (gathers : Gathers timeline span values)
    (truncates : Truncates timeline span) (position : Nat) :
    values.reading? position = values.elements[position]?.map Number.cut := by
  obtain ⟨begins, other, _, _, within, _⟩ := truncates
  have isInteger := gathers.isInteger_iff.mpr ⟨(Nat.le_add_right _ other).trans within, begins⟩
  simp only [NumericArray.reading?_eq, isInteger, if_true]

end Windows

section Ranges

variable {timeline : ValueTimeline} {node : String} {selector : RangeSelector}
  {unit : Option DeltaUnit} {window : HistoryWindow}

theorem exists_span_of_range (found : timeline.range node selector unit = .ok (some window)) :
    ∃ span, selector.resolve node timeline = .ok (some span) ∧ span.last < timeline.size ∧
      Gathers timeline span window.values := by
  have yields : Yields (fun result => ∀ window, result = some window →
      ∃ span, selector.resolve node timeline = .ok (some span) ∧ span.last < timeline.size ∧
        Gathers timeline span window.values) (timeline.range node selector unit) := by
    rw [range]
    simp only [yields_bind]
    intro resolved isResolved
    cases resolved with
    | none =>
        simp
    | some span =>
        have inside := selector.resolve_within node timeline _ isResolved span rfl
        simp only [yields_bind, yields_pure]
        rintro values areValues _ _ _ ⟨⟩
        exact ⟨span, isResolved, inside, yields_gathers node inside values areValues⟩
  exact yields _ found window rfl

/-- A window has one number for every entry of its span, and reads them back as
they are, unless it begins with an integer and has a number that is no word;
then all of them are cut.  Its array is stored with the elements that are read. -/
theorem range_reads_back (found : timeline.range node selector unit = .ok (some window)) :
    ∃ span, selector.resolve node timeline = .ok (some span) ∧ span.last < timeline.size ∧
      Gathers timeline span window.values ∧
      (ReadsBack timeline span window.values ↔ ¬ Truncates timeline span) ∧
      (Truncates timeline span → ∀ position,
        window.values.reading? position = window.values.elements[position]?.map Number.cut) ∧
      ∃ stored, (Wire.ofValue (.array window.values)).toValue = .ok (.array stored) ∧
        ∀ position, stored.elements[position]? = window.values.reading? position := by
  obtain ⟨span, resolves, inside, gathers⟩ := exists_span_of_range found
  exact ⟨span, resolves, inside, gathers, gathers.readsBack_iff, gathers.reading?_of_truncates,
    window.values.exists_stored_reading⟩

end Ranges

/-- A double, an integer and a bin without a value. -/
def mixedReadings : ValueTimeline :=
  ⟨[⟨1, none, .double 0.5⟩, ⟨2, none, .int 3⟩,
    ⟨3, none, .bin ⟨none, Number.notANumber, 0.0, 1.0, 0.5⟩⟩]⟩

theorem mixedReadings_read_back :
    ∃ window, mixedReadings.range "w" (.absoluteIndex 0 5) none = .ok (some window) ∧
      ReadsBack mixedReadings ⟨0, 2⟩ window.values := by
  have resolves : (RangeSelector.absoluteIndex 0 5).resolve "w" mixedReadings =
      .ok (some ⟨0, 2⟩) :=
    RangeSelector.resolve_absoluteIndex (by decide) (by decide) (List.cons_ne_nil _ _) "w"
  have found : mixedReadings.range "w" (.absoluteIndex 0 5) none =
      .ok (some ⟨⟨.float64, [0.5, Number.ofInt64 3, Number.notANumber]⟩, none⟩) := by
    rw [range, resolves]
    rfl
  obtain ⟨span, resolvesAlso, _, _, readsBack_iff, _⟩ := range_reads_back found
  cases resolves.symm.trans resolvesAlso
  refine ⟨_, found, readsBack_iff.mpr ?_⟩
  rintro ⟨⟨_, _, isFirst, isInteger⟩, _⟩
  cases isFirst
  cases isInteger

/-- An integer and a double that is none. -/
def wholeThenHalf : ValueTimeline := ⟨[⟨0, none, .int 1⟩, ⟨1, none, .double 2.5⟩]⟩

theorem wholeThenHalf_is_cut :
    ∃ window, wholeThenHalf.range "w" (.absoluteIndex 0 1) none = .ok (some window) ∧
      wholeThenHalf.entries[1]?.bind (fun entry => entry.value.scalar?) = some 2.5 ∧
      window.values.reading? 1 = some 2.0 ∧ ¬ Number.Same 2.0 2.5 ∧
      ¬ ReadsBack wholeThenHalf ⟨0, 1⟩ window.values := by
  have resolves : (RangeSelector.absoluteIndex 0 1).resolve "w" wholeThenHalf =
      .ok (some ⟨0, 1⟩) :=
    RangeSelector.resolve_absoluteIndex (by decide) (by decide) (List.cons_ne_nil _ _) "w"
  have found : wholeThenHalf.range "w" (.absoluteIndex 0 1) none =
      .ok (some ⟨⟨.int64, [Number.ofInt64 1, 2.5]⟩, none⟩) := by
    rw [range, resolves]
    rfl
  have isCut : (⟨.int64, [Number.ofInt64 1, 2.5]⟩ : NumericArray).reading? 1 = some 2.0 := by
    have cut : Number.cut 2.5 = 2.0 := by
      decide +kernel
    rw [NumericArray.reading?_eq, ← cut]
    rfl
  have differs : ¬ Number.Same 2.0 2.5 := by
    decide +kernel
  refine ⟨_, found, rfl, isCut, differs, fun readsBack => ?_⟩
  obtain ⟨_, _, element, isEntry, isNumber, isElement, same⟩ := readsBack 1 le_rfl
  cases isEntry
  cases isNumber
  cases isCut.symm.trans isElement
  exact differs same

end Timeline

end InSitu
