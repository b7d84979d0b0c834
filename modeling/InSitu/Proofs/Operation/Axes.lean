import InSitu.Operation.Basic
import InSitu.Proofs.History.Soundness
import InSitu.Proofs.Operation.Reading
import InSitu.Proofs.Wire.Meaning
import InSitu.Proofs.Yielding

/-!
# The axes that operations make

Only a few operations make axes, and these check them; all others hand on axes that they are given,
or make none.  So the axes in a value are well formed if those in its inputs, its literals and the
history are.
-/

namespace InSitu

namespace Operation

/-- The literal of an operation holds axes that can be asked for. -/
def WellFormed : Operation → Prop
  | .literal _ value => value.WellFormed
  | _ => True

end Operation

/-- The values that feed a node hold axes that can be asked for. -/
def Inputs.WellFormed (inputs : Inputs) : Prop :=
  ∀ inlet output, inputs.bound.get? inlet = some output → output.value.WellFormed

/-- The recorded values hold axes that can be asked for. -/
def History.WellFormed (history : ValueHistory) : Prop :=
  ∀ name, ∀ entry ∈ (history.timelineOf name).entries, entry.value.WellFormed

/-- What an evaluation sees holds axes that can be asked for, and so would an axis with the default
number of bins. -/
structure Environment.WellFormed (environment : Environment) : Prop where
  history : environment.history.WellFormed
  defaultBins : environment.config.defaultBins < UInt64.size

namespace Run

variable (inputs : Inputs) (environment : Environment)

theorem wellFormed_histogram : Yields Value.WellFormed (histogram inputs environment) := by
  unfold histogram
  simp only [yields_bind, Prod.forall]
  intro field component _
  cases component with
  | some component =>
      simp
  | none =>
      simp only [yields_bind]
      intro count _ low _ high _
      split <;> simp [Value.WellFormed]

theorem wellFormed_transform (result : HistogramTransform) :
    Yields Value.WellFormed (transform result inputs) := by
  rw [transform, yields_map]
  intro found _
  cases result <;> trivial

theorem wellFormed_quantile : Yields Value.WellFormed (quantile inputs) := by
  simp only [quantile, yields_bind]
  intro found _ q _ rule _
  split <;> simp [Value.WellFormed]

theorem wellFormed_vector : Yields Value.WellFormed (vector inputs) := by
  simp [vector, Value.WellFormed]

theorem wellFormed_magnitude : Yields Value.WellFormed (magnitude inputs) := by
  simp [magnitude, Value.WellFormed]

theorem wellFormed_element? {array : NumericArray} {index : Nat} {element : Value}
    (found : array.element? index = some element) : element.WellFormed := by
  obtain ⟨x, _, rfl⟩ := Option.map_eq_some_iff.mp found
  split <;> trivial

theorem wellFormed_elementAt : Yields Value.WellFormed (elementAt inputs) := by
  simp only [elementAt, yields_bind]
  intro array _ index _
  split
  · simp
  · split
    · rename_i found
      exact yields_pure.mpr (wellFormed_element? found)
    · simp

theorem wellFormed_replaceElements : Yields Value.WellFormed (replaceElements inputs) := by
  simp [replaceElements, Value.WellFormed]

theorem wellFormed_historyRange :
    Yields Value.WellFormed (historyRange inputs environment) := by
  simp only [historyRange, yields_bind]
  intro selector _ _ _ timeline _ window _
  split <;> simp [Value.WellFormed]

theorem wellFormed_historyGradient :
    Yields Value.WellFormed (historyGradient inputs environment) := by
  simp only [historyGradient, yields_bind]
  intro length _ unit _
  split
  · simp [Value.WellFormed]
  · split <;> simp [Value.WellFormed]

theorem wellFormed_historyRangeGradient :
    Yields Value.WellFormed (historyRangeGradient inputs environment) := by
  simp [historyRangeGradient, Value.WellFormed]

theorem wellFormed_time : Yields Value.WellFormed (time environment) := by
  rw [time]
  split <;> simp [Value.WellFormed]

theorem wellFormed_field : Yields Value.WellFormed (field inputs environment) := by
  simp [field, Value.WellFormed]

theorem wellFormed_topology : Yields Value.WellFormed (topology inputs environment) := by
  simp only [topology, yields_bind]
  intro chosen _
  split
  · simp [Value.WellFormed]
  · split <;> simp [Value.WellFormed]

theorem wellFormed_bounds : Yields Value.WellFormed (bounds inputs environment) := by
  simp [bounds, Value.WellFormed]

theorem wellFormed_lineout : Yields Value.WellFormed (lineout inputs environment) := by
  simp [lineout, Value.WellFormed]

theorem wellFormed_fieldStatistic (statistic : FieldStatistic) :
    Yields Value.WellFormed (fieldStatistic statistic inputs environment) := by
  simp [fieldStatistic, Value.WellFormed]

theorem wellFormed_binByIndex : Yields Value.WellFormed (binByIndex inputs) := by
  simp [binByIndex, Value.WellFormed]

theorem wellFormed_binByValue : Yields Value.WellFormed (binByValue inputs) := by
  simp [binByValue, Value.WellFormed]

theorem wellFormed_pointAndAxis : Yields Value.WellFormed (pointAndAxis inputs) := by
  simp [pointAndAxis, Value.WellFormed]

theorem wellFormed_maxFromPoint : Yields Value.WellFormed (maxFromPoint inputs) := by
  simp [maxFromPoint, Value.WellFormed]

end Run

theorem NumberFunction.wellFormed_run (function : NumberFunction) (inputs : Inputs) :
    Yields Value.WellFormed (function.run inputs) := by
  have picks (onIntegers : Int64 → Int64 → Int64) (onDoubles : Float → Float → Float) :
      Yields Value.WellFormed (pick inputs onIntegers onDoubles) := by
    simp only [pick, yields_bind]
    intro first _ second _
    split <;> simp [Value.WellFormed]
  cases function with
  | min =>
      exact picks _ _
  | max =>
      exact picks _ _
  | abs =>
      simp only [run, yields_bind]
      intro value _
      split
      · split <;> simp [Value.WellFormed]
      · simp [Value.WellFormed]
  | exp =>
      simp [run, Value.WellFormed]
  | log =>
      simp [run, Value.WellFormed]
  | pow =>
      simp [run, Value.WellFormed]

theorem ArrayStatistic.wellFormed_run (statistic : ArrayStatistic) (inputs : Inputs) :
    Yields Value.WellFormed (statistic.run inputs) := by
  simp [run, Value.WellFormed]

theorem Operator.wellFormed_apply (operator : Operator) (node : String) (left : Option Value)
    (right : Value) : Yields Value.WellFormed (operator.apply node left right) := by
  unfold Operator.apply
  split
  · simp [Value.WellFormed]
  · simp
  · simp [Value.WellFormed]
  · simp [Value.WellFormed]
  · unfold MathOperator.apply
    split <;> simp [Value.WellFormed]
  · simp [Value.WellFormed]

section Inlets

variable {inputs : Inputs}

theorem Inputs.WellFormed.of_get? (wellFormed : inputs.WellFormed) {inlet : String} {value : Value}
    (found : inputs.get? inlet = some value) : value.WellFormed := by
  obtain ⟨output, bound, shown⟩ := Option.bind_eq_some_iff.mp found
  split at shown
  · cases shown
  · cases shown
    exact wellFormed inlet output bound

theorem Inputs.WellFormed.required (wellFormed : inputs.WellFormed) (inlet : String) :
    Yields Value.WellFormed (inputs.required inlet) := by
  rw [Inputs.required]
  split
  · rename_i found
    exact yields_ok.mpr (wellFormed.of_get? found)
  · exact yields_error _

theorem Inputs.WellFormed.axes (wellFormed : inputs.WellFormed) {inlet : String}
    {specs : List (AxisSpec Float)}
    (read : inputs.read inlet .axisList Run.axesOf? = .ok specs) :
    ∀ spec ∈ specs, spec.WellFormed := by
  obtain ⟨value, found, shown⟩ := Inputs.exists_of_read read
  have axes := wellFormed.of_get? found
  cases value with
  | axisList listed =>
      cases shown
      exact axes
  | _ =>
      cases shown

end Inlets

/-- A number of bins that is given is that of a signed word. -/
theorem Run.positiveBins_lt {inputs : Inputs} {count : Nat}
    (given : Run.positiveBins inputs = .ok (some count)) : count < UInt64.size := by
  have bounded : Yields (fun count : Option Nat => ∀ given ∈ count, given < UInt64.size)
      (Run.positiveBins inputs) := by
    simp only [Run.positiveBins, yields_bind]
    intro number _
    split
    · simp
    · rename_i number _
      have greatest := number.toInt_le
      have high : Int64.maxValue.toInt = 2 ^ 63 - 1 := rfl
      have size : UInt64.size = 2 ^ 64 := rfl
      have fits : number.toInt.toNat < UInt64.size := by omega
      simp only [yields_ite, yields_bind, yields_pure, Option.mem_some_iff, forall_eq']
      exact ⟨by simp, fun _ => fits⟩
  exact bounded _ given count rfl

theorem Run.wellFormed_axis (inputs : Inputs) (environment : Environment) :
    Yields Value.WellFormed (Run.axis inputs environment) := by
  simp only [Run.axis, yields_bind, yields_pure, Prod.forall]
  intro name _ _ count given edges _ low _ high _ clamps _ spec checked _ _
  have counted : ∀ bins ∈ count, bins < UInt64.size := by
    rintro bins rfl
    exact Run.positiveBins_lt given
  have wellFormed : Yields AxisSpec.WellFormed
      ((⟨name, low, high, count, edges, clamps.getD false⟩ : AxisLiteral Float).toSpec.mapError
        (Fault.ofAxis inputs.node)) :=
    yields_mapError.mpr (AxisLiteral.wellFormed_toSpec counted)
  intro other member
  rw [List.mem_singleton.mp member]
  exact wellFormed spec checked

theorem Run.wellFormed_axisList {inputs : Inputs} (wellFormed : inputs.WellFormed) (arity : Nat) :
    Yields Value.WellFormed (Run.axisList arity inputs) := by
  simp only [Run.axisList, yields_bind, yields_pure]
  intro lists read spec member
  obtain ⟨specs, isList, inList⟩ := List.mem_flatten.mp member
  exact yields_mapM (Q := fun specs => ∀ spec ∈ specs, spec.WellFormed)
    (fun _ _ _ => wellFormed.axes) lists read specs isList spec inList

theorem Binning.wellFormed_resolveAxes {node : String} {mesh : Dataset}
    {specs : List (AxisSpec Float)} {defaultBins : Nat}
    (wellFormed : ∀ spec ∈ specs, spec.WellFormed) (counted : defaultBins < UInt64.size) :
    Yields (fun axes => ∀ axis ∈ axes, axis.WellFormed)
      (Binning.resolveAxes node mesh specs defaultBins) := by
  simp only [Binning.resolveAxes, yields_ite, yields_error, implies_true, true_and]
  intro _
  refine yields_mapM fun spec member => ?_
  simp only [Binning.resolveAxis, yields_bind]
  intro _ _ _ _
  split <;> simp only [yields_bind, yields_mapError] <;> intro range _ <;>
    exact Axis.wellFormed_resolve (wellFormed spec member) counted range

theorem Binning.wellFormed_run {node : String} {mesh : Dataset} {query : Binning.Query}
    {defaultBins : Nat} (wellFormed : ∀ spec ∈ query.axes, spec.WellFormed)
    (counted : defaultBins < UInt64.size) :
    Yields (fun bins : Binning => ∀ axis ∈ bins.axes, axis.WellFormed)
      (Binning.run node mesh query defaultBins) := by
  simp only [Binning.run, yields_bind, yields_ite, yields_pure]
  intro _ _ axes resolved _ _
  have all := Binning.wellFormed_resolveAxes wellFormed counted axes resolved
  exact ⟨fun _ _ _ => all, fun _ => all⟩

theorem Run.wellFormed_binning {inputs : Inputs} {environment : Environment}
    (wellFormed : inputs.WellFormed)
    (counted : environment.config.defaultBins < UInt64.size) :
    Yields Value.WellFormed (Run.binning inputs environment) := by
  simp only [Run.binning, yields_bind, yields_map]
  intro _ _ _ _ chosen _ _ _ _ _ specs read _ _ found answered
  exact Binning.wellFormed_run (wellFormed.axes read) counted found answered

/-- Of all attributes only the axes of a binning are axes. -/
theorem Value.WellFormed.attributes {value : Value} (wellFormed : value.WellFormed) :
    ∀ entry ∈ value.attributes?.getD [], entry.2.WellFormed := by
  cases value with
  | binning bins =>
      have specs : (Value.axisList (bins.axes.map Axis.toSpec)).WellFormed := by
        intro spec isSpec
        obtain ⟨axis, isAxis, rfl⟩ := List.mem_map.mp isSpec
        exact (wellFormed axis isAxis).toSpec
      simp only [attributes?, Option.getD_some, List.forall_mem_cons]
      exact ⟨trivial, trivial, trivial, trivial, specs, by simp⟩
  | vector point =>
      simp [attributes?, Value.WellFormed]
  | field name component =>
      cases component <;> simp [attributes?, Value.WellFormed]
  | histogram counts =>
      simp [attributes?, Value.WellFormed, doubles, count]
  | bin picked =>
      obtain ⟨index, number, low, high, center⟩ := picked
      cases index <;> simp [attributes?, Value.WellFormed, count]
  | aabb box =>
      simp [attributes?, Value.WellFormed]
  | valuePosition found =>
      obtain ⟨number, position, element⟩ := found
      cases element <;> simp [attributes?, Value.WellFormed]
  | lineout samples =>
      simp only [attributes?, Option.getD_some, List.forall_mem_append]
      refine ⟨by simp [Value.WellFormed, doubles, count], fun entry isColumn => ?_⟩
      obtain ⟨column, _, rfl⟩ := List.mem_map.mp isColumn
      trivial
  | _ =>
      simp [attributes?]

theorem Operation.wellFormed_attributeOf {inputs : Inputs} (wellFormed : inputs.WellFormed)
    (name : String) : Yields Value.WellFormed (Operation.attributeOf name inputs) := by
  simp only [Operation.attributeOf, yields_bind]
  intro value read
  have axes := (wellFormed.required "obj" value read).attributes
  split
  · rename_i found member
    exact yields_pure.mpr (axes _ (Entries.mem_of_get?_eq_some member))
  · exact yields_error _

theorem Operation.wellFormed_choose {inputs : Inputs} (wellFormed : inputs.WellFormed) :
    Yields Value.WellFormed (Operation.choose inputs) := by
  simp only [Operation.choose, yields_bind, yields_ite]
  intro _ _
  exact ⟨fun _ => wellFormed.required "if", fun _ => wellFormed.required "else"⟩

namespace History

variable {history : ValueHistory}

theorem WellFormed.lookup (wellFormed : history.WellFormed) (name : String) :
    Yields (fun timeline : ValueTimeline => ∀ entry ∈ timeline.entries, entry.value.WellFormed)
      (history.lookup name) := by
  simp only [History.lookup, History.declared, yields_bind]
  intro timeline found
  split at found
  · rename_i known
    cases found
    rw [← timelineOf_eq_of_get? known]
    simp only [yields_ite, yields_bind, yields_pure]
    exact ⟨by simp, fun _ => wellFormed name⟩
  · cases found

theorem WellFormed.latest (wellFormed : history.WellFormed) (name : String) :
    Yields (fun entry : ValueEntry => entry.value.WellFormed) (history.latest name) := by
  simp only [History.latest, yields_bind]
  intro timeline found
  split
  · rename_i entry newest
    exact yields_ok.mpr
      (wellFormed.lookup name timeline found entry (List.mem_of_getLast? newest))
  · exact yields_error _

end History

theorem Timeline.wellFormed_select {timeline : ValueTimeline}
    (wellFormed : ∀ entry ∈ timeline.entries, entry.value.WellFormed) (node : String)
    (index : EntryIndex) :
    Yields (fun entry : ValueEntry => entry.value.WellFormed) (timeline.select node index) := by
  unfold Timeline.select
  cases index with
  | absolute index =>
      simp only [yields_ite, yields_bind]
      refine ⟨by simp, fun _ position _ => ?_⟩
      split
      · rename_i entry found
        exact yields_pure.mpr (wellFormed entry (List.mem_of_getElem? found))
      · exact yields_error _
  | relative index =>
      simp only [yields_ite, yields_bind]
      refine ⟨by simp, fun _ position _ => ?_⟩
      split
      · rename_i entry found
        exact yields_pure.mpr (wellFormed entry (List.mem_of_getElem? found))
      · exact yields_error _

theorem Run.wellFormed_history (inputs : Inputs) {environment : Environment}
    (wellFormed : environment.history.WellFormed) :
    Yields Value.WellFormed (Run.history inputs environment) := by
  have recorded : Yields
      (fun timeline : ValueTimeline => ∀ entry ∈ timeline.entries, entry.value.WellFormed)
      (Run.recordedTimeline inputs environment) := by
    simp only [Run.recordedTimeline, yields_bind]
    intro name _
    exact wellFormed.lookup name
  have selected (index : EntryIndex) : Yields Value.WellFormed (do
      let timeline ← Run.recordedTimeline inputs environment
      let entry ← timeline.select inputs.node index
      return entry.value) := by
    simp only [yields_bind, yields_pure]
    intro timeline found
    exact Timeline.wellFormed_select (recorded timeline found) inputs.node index
  simp only [Run.history, yields_bind]
  intro absolute _ relative _
  split
  · exact selected _
  · exact selected _
  · simp
  · simp

/-! ## All operations -/

namespace Operation

theorem wellFormed_newestOf (name : String) {environment : Environment}
    (wellFormed : environment.history.WellFormed) :
    Yields (fun output : Output => output.value.WellFormed) (newestOf name environment) := by
  simp only [newestOf, yields_map]
  exact wellFormed.latest name

theorem wellFormed_value {operation : Operation} {inputs : Inputs} {environment : Environment}
    (literal : operation.WellFormed) (fed : inputs.WellFormed) (seen : environment.WellFormed) :
    Yields Value.WellFormed (operation.value inputs environment) := by
  cases operation with
  | literal type value =>
      exact yields_ok.mpr literal
  | identifier name =>
      exact yields_map.mpr (wellFormed_newestOf name seen.history)
  | «attribute» name =>
      exact wellFormed_attributeOf fed name
  | conditional =>
      exact wellFormed_choose fed
  | operator applied =>
      simp only [value, applyOperator, yields_bind]
      intro right _
      exact applied.wellFormed_apply inputs.node (inputs.get? "lhs") right
  | number function =>
      exact function.wellFormed_run inputs
  | vector =>
      exact Run.wellFormed_vector inputs
  | magnitude =>
      exact Run.wellFormed_magnitude inputs
  | elementAt =>
      exact Run.wellFormed_elementAt inputs
  | replaceElements =>
      exact Run.wellFormed_replaceElements inputs
  | arrayStatistic statistic =>
      exact statistic.wellFormed_run inputs
  | history =>
      exact Run.wellFormed_history inputs seen.history
  | historyRange =>
      exact Run.wellFormed_historyRange inputs environment
  | historyGradient =>
      exact Run.wellFormed_historyGradient inputs environment
  | historyRangeGradient =>
      exact Run.wellFormed_historyRangeGradient inputs environment
  | histogram =>
      exact Run.wellFormed_histogram inputs environment
  | transform result =>
      exact Run.wellFormed_transform inputs result
  | quantile =>
      exact Run.wellFormed_quantile inputs
  | cycle =>
      exact yields_ok.mpr trivial
  | time =>
      exact Run.wellFormed_time environment
  | field =>
      exact Run.wellFormed_field inputs environment
  | topology =>
      exact Run.wellFormed_topology inputs environment
  | bounds =>
      exact Run.wellFormed_bounds inputs environment
  | lineout =>
      exact Run.wellFormed_lineout inputs environment
  | fieldStatistic statistic =>
      exact Run.wellFormed_fieldStatistic inputs environment statistic
  | binning =>
      exact Run.wellFormed_binning fed seen.defaultBins
  | axis =>
      exact Run.wellFormed_axis inputs environment
  | axisList arity =>
      exact Run.wellFormed_axisList fed arity
  | binByIndex =>
      exact Run.wellFormed_binByIndex inputs
  | binByValue =>
      exact Run.wellFormed_binByValue inputs
  | pointAndAxis =>
      exact Run.wellFormed_pointAndAxis inputs
  | maxFromPoint =>
      exact Run.wellFormed_maxFromPoint inputs

/-- What an operation hands on holds well formed axes if all that it sees does. -/
theorem wellFormed_run {operation : Operation} {inputs : Inputs} {environment : Environment}
    (literal : operation.WellFormed) (fed : inputs.WellFormed) (seen : environment.WellFormed) :
    Yields (fun output : Output => output.value.WellFormed)
      (operation.run inputs environment) := by
  unfold run
  split
  · exact wellFormed_newestOf _ seen.history
  · exact yields_map.mpr (wellFormed_value literal fed seen)

end Operation

end InSitu
