import InSitu.Mesh.PointMesh
import InSitu.Operation.Basic
import InSitu.Proofs.Sequence
import InSitu.Proofs.Table

/-!
# What operations read

A node reads an inlet through the value that is shown there and the name of the expression from
which it was recalled, and it reads no inlet but those that its operation declares.  So two bindings
that are alike at the declared inlets run alike, and an input without a value and without an origin
is like none.
-/

namespace InSitu

namespace Inputs

/-- Feeds one more output into an inlet. -/
def feed (inputs : Inputs) (inlet : String) (output : Output) : Inputs :=
  { inputs with bound := inputs.bound.insert inlet output }

variable {inputs : Inputs} {inlet : String}

theorem get?_of_required {value : Value} (read : inputs.required inlet = .ok value) :
    inputs.get? inlet = some value := by
  rw [required] at read
  split at read
  · rename_i shown
    cases read
    exact shown
  · cases read

/-- What is read from an inlet is read from a value that feeds it. -/
theorem exists_of_read {α : Type} {expected : Expected} {reading : Value → Option α} {result : α}
    (isRead : inputs.read inlet expected reading = .ok result) :
    ∃ value, inputs.get? inlet = some value ∧ reading value = some result := by
  rw [read, read?] at isRead
  cases found : inputs.get? inlet with
  | none =>
      simp [found, bind, Except.bind] at isRead
  | some value =>
      refine ⟨value, rfl, ?_⟩
      cases shown : reading value with
      | none =>
          simp [found, shown, bind, Except.bind] at isRead
      | some other =>
          simp only [found, shown, bind, Except.bind, pure, Except.pure, Except.ok.injEq] at isRead
          rw [isRead]

/-- Two bindings of one node that show the same at some inlets. -/
structure Alike (inlets : List String) (first second : Inputs) : Prop where
  node : first.node = second.node
  get? : ∀ inlet ∈ inlets, first.get? inlet = second.get? inlet
  origin? : ∀ inlet ∈ inlets, first.origin? inlet = second.origin? inlet

namespace Alike

variable {inlets : List String} {first second : Inputs} (alike : Alike inlets first second)

include alike

theorem mono {fewer : List String} (subset : fewer ⊆ inlets) : Alike fewer first second :=
  ⟨alike.node, fun inlet member => alike.get? inlet (subset member),
    fun inlet member => alike.origin? inlet (subset member)⟩

theorem required {inlet : String} (member : inlet ∈ inlets) :
    first.required inlet = second.required inlet := by
  simp only [Inputs.required, missing, alike.get? inlet member, alike.node]

theorem read? {α : Type} {inlet : String} (member : inlet ∈ inlets) (expected : Expected)
    (reading : Value → Option α) :
    first.read? inlet expected reading = second.read? inlet expected reading := by
  simp only [Inputs.read?, mismatch, alike.get? inlet member, alike.node]

theorem read {α : Type} {inlet : String} (member : inlet ∈ inlets) (expected : Expected)
    (reading : Value → Option α) :
    first.read inlet expected reading = second.read inlet expected reading := by
  simp only [Inputs.read, missing, alike.read? member, alike.node]

end Alike

/-- Feeding an inlet changes what is shown there alone. -/
theorem alike_feed {inlets : List String} (output : Output) (other : inlet ∉ inlets) :
    Alike inlets (inputs.feed inlet output) inputs := by
  have same : ∀ shown ∈ inlets, (inputs.feed inlet output).bound.get? shown =
      inputs.bound.get? shown := by
    intro shown member
    have different : shown ≠ inlet := by
      rintro rfl
      exact other member
    exact Table.get?_insert_of_ne different _ _
  refine ⟨rfl, fun shown member => ?_, fun shown member => ?_⟩
  · rw [get?, get?, same shown member]
  · rw [origin?, origin?, same shown member]

end Inputs

section Congruence

variable {first second : Inputs} (environment : Environment)

theorem NumberFunction.run_congr {function : NumberFunction}
    (alike : Inputs.Alike (function.inlets.map Inlet.name) first second) :
    function.run first = function.run second := by
  cases function with
  | min | max =>
      simp (disch := simp [inlets, arity, Inlet.needed]) only
        [run, pick, Inputs.number, alike.required, alike.read]
  | abs =>
      simp (disch := simp [inlets, arity, Inlet.needed]) only
        [run, Inputs.number, alike.required, alike.read, alike.node]
  | exp | log | pow =>
      simp (disch := simp [inlets, arity, Inlet.needed]) only [run, Inputs.number, alike.read]

theorem ArrayStatistic.run_congr (statistic : ArrayStatistic)
    (alike : Inputs.Alike ["arg1"] first second) :
    statistic.run first = statistic.run second := by
  simp (disch := simp) only [run, Inputs.array, alike.read]

namespace Run

theorem vector_congr (alike : Inputs.Alike ["arg1", "arg2", "arg3"] first second) :
    vector first = vector second := by
  simp (disch := simp) only [vector, Inputs.number, alike.read]

theorem magnitude_congr (alike : Inputs.Alike ["arg1"] first second) :
    magnitude first = magnitude second := by
  simp (disch := simp) only [magnitude, Inputs.vector, alike.read]

theorem elementAt_congr (alike : Inputs.Alike ["array", "index"] first second) :
    elementAt first = elementAt second := by
  simp (disch := simp) only [elementAt, Inputs.array, Inputs.int, alike.read, alike.node]

theorem replaceElements_congr (alike : Inputs.Alike ["arg1", "find", "replace"] first second) :
    replaceElements first = replaceElements second := by
  simp (disch := simp) only [replaceElements, Inputs.array, Inputs.number, alike.read, alike.node]

/-- The name of a history is read by itself, so that an input which names it by its origin may show
any value. -/
theorem expressionName_congr (alike : Inputs.Alike ["expr_name"] first second) :
    expressionName first = expressionName second := by
  simp (disch := simp) only [expressionName, alike.origin?, alike.required, alike.node]

theorem history_congr (alike : Inputs.Alike ["absolute_index", "relative_index"] first second)
    (sameName : expressionName first = expressionName second) :
    history first environment = history second environment := by
  simp (disch := simp) only
    [history, recordedTimeline, Inputs.int?, alike.read?, alike.node, sameName]

theorem rangeSelector_congr (alike : Inputs.Alike rangeInlets first second) :
    rangeSelector first = rangeSelector second := by
  unfold rangeInlets at alike
  simp (disch := simp) only
    [rangeSelector, integerEnds, paired, Inputs.int?, Inputs.number?, alike.read?, alike.node]

theorem historyRange_congr (alike : Inputs.Alike rangeInlets first second)
    (sameName : expressionName first = expressionName second) :
    historyRange first environment = historyRange second environment := by
  simp only [historyRange, knownTimeline, rangeSelector_congr alike, alike.node, sameName]

theorem historyGradient_congr
    (alike : Inputs.Alike ["window_length", "window_length_unit"] first second)
    (sameName : expressionName first = expressionName second) :
    historyGradient first environment = historyGradient second environment := by
  simp (disch := simp) only [historyGradient, knownTimeline, Inputs.number?, Inputs.string?,
    alike.read?, alike.node, sameName]

theorem historyRangeGradient_congr (alike : Inputs.Alike rangeInlets first second)
    (sameName : expressionName first = expressionName second) :
    historyRangeGradient first environment = historyRangeGradient second environment := by
  simp only [historyRangeGradient, knownTimeline, rangeSelector_congr alike, alike.node, sameName]

theorem field_congr (alike : Inputs.Alike ["field_name", "component"] first second) :
    field first environment = field second environment := by
  simp (disch := simp) only
    [field, Inputs.string, Inputs.string?, alike.read, alike.read?, alike.node]

theorem topology_congr (alike : Inputs.Alike ["arg1"] first second) :
    topology first environment = topology second environment := by
  simp (disch := simp) only [topology, Inputs.string?, alike.read?, alike.node]

theorem bounds_congr (alike : Inputs.Alike ["topology"] first second) :
    bounds first environment = bounds second environment := by
  simp (disch := simp) only [bounds, alike.read?]

theorem fieldStatistic_congr (statistic : FieldStatistic)
    (alike : Inputs.Alike ["arg1"] first second) :
    fieldStatistic statistic first environment = fieldStatistic statistic second environment := by
  simp (disch := simp) only [fieldStatistic, Inputs.field, alike.read, alike.node]

theorem lineout_congr
    (alike : Inputs.Alike ["samples", "start", "end", "fields", "empty_val"] first second) :
    lineout first environment = lineout second environment := by
  simp (disch := simp) only [lineout, Inputs.int, Inputs.vector, Inputs.string?, Inputs.number?,
    alike.read, alike.read?, alike.node]

theorem positiveBins_congr (alike : Inputs.Alike ["num_bins"] first second) :
    positiveBins first = positiveBins second := by
  simp (disch := simp) only [positiveBins, Inputs.int?, alike.read?, alike.node]

theorem histogram_congr
    (alike : Inputs.Alike ["arg1", "num_bins", "min_val", "max_val"] first second) :
    histogram first environment = histogram second environment := by
  have sameBins := positiveBins_congr (alike.mono (by simp))
  unfold histogram
  simp -zeta (disch := simp) only
    [Inputs.field, Inputs.number?, sameBins, alike.read, alike.read?, alike.node]

theorem transform_congr (result : HistogramTransform) (alike : Inputs.Alike ["hist"] first second) :
    transform result first = transform result second := by
  simp (disch := simp) only [transform, alike.read]

theorem quantile_congr (alike : Inputs.Alike ["cdf", "q", "interpolation"] first second) :
    quantile first = quantile second := by
  simp (disch := simp) only
    [quantile, Inputs.number, Inputs.string?, alike.read, alike.read?, alike.node]

theorem binning_congr
    (alike : Inputs.Alike
      ["reduction_var", "reduction_op", "bin_axes", "empty_bin_val", "component"] first second) :
    binning first environment = binning second environment := by
  simp (disch := simp) only [binning, Inputs.string, Inputs.field?, Inputs.string?, Inputs.number?,
    alike.read, alike.read?, alike.node]

theorem axis_congr
    (alike : Inputs.Alike ["name", "min_val", "max_val", "num_bins", "bins", "clamp"]
      first second) :
    axis first environment = axis second environment := by
  have sameBins := positiveBins_congr (alike.mono (by simp))
  simp (disch := simp) only [axis, Inputs.field, Inputs.number?, Inputs.bool?, sameBins,
    alike.read, alike.read?, alike.node]

theorem axisList_congr {arity : Nat}
    (alike : Inputs.Alike ((List.range arity).map argumentName) first second) :
    axisList arity first = axisList arity second := by
  have sameLists : ∀ index ∈ List.range arity,
      first.read (argumentName index) .axisList axesOf? =
        second.read (argumentName index) .axisList axesOf? :=
    fun index member => alike.read (List.mem_map_of_mem member) _ _
  simp only [axisList, mapM_congr sameLists]

theorem binByIndex_congr (alike : Inputs.Alike ["binning", "index"] first second) :
    binByIndex first = binByIndex second := by
  simp (disch := simp) only [binByIndex, bins, Inputs.int, alike.read, alike.node]

theorem binByValue_congr (alike : Inputs.Alike ["binning", "value"] first second) :
    binByValue first = binByValue second := by
  simp (disch := simp) only [binByValue, bins, Inputs.number, alike.read, alike.node]

theorem pointAndAxis_congr
    (alike : Inputs.Alike ["binning", "axis", "threshold", "point", "miss_value", "direction"]
      first second) :
    pointAndAxis first = pointAndAxis second := by
  simp (disch := simp) only [pointAndAxis, bins, Inputs.number, Inputs.number?, Inputs.int?,
    alike.read, alike.read?, alike.node]

theorem maxFromPoint_congr (alike : Inputs.Alike ["binning", "axis", "point"] first second) :
    maxFromPoint first = maxFromPoint second := by
  simp (disch := simp) only
    [maxFromPoint, bins, Inputs.number, Inputs.string?, alike.read, alike.read?, alike.node]

end Run

end Congruence

/-! ## All operations -/

namespace Operation

variable {first second : Inputs}

theorem attributeOf_congr (alike : Inputs.Alike ["obj"] first second) (name : String) :
    attributeOf name first = attributeOf name second := by
  simp (disch := simp) only [attributeOf, alike.required]

theorem choose_congr (alike : Inputs.Alike ["condition", "if", "else"] first second) :
    choose first = choose second := by
  simp (disch := simp) only [choose, Inputs.bool, alike.required, alike.read]

theorem applyOperator_congr (alike : Inputs.Alike ["lhs", "rhs"] first second)
    (applied : Operator) : applyOperator applied first = applyOperator applied second := by
  simp (disch := simp) only [applyOperator, alike.required, alike.get?, alike.node]

variable {operation : Operation}

theorem value_congr (alike : Inputs.Alike (operation.inlets.map Inlet.name) first second)
    (environment : Environment) :
    operation.value first environment = operation.value second environment := by
  cases operation with
  | literal | identifier | cycle | time =>
      rfl
  | «attribute» name =>
      exact attributeOf_congr alike name
  | conditional =>
      exact choose_congr alike
  | operator applied =>
      exact applyOperator_congr alike applied
  | number function =>
      exact NumberFunction.run_congr alike
  | vector =>
      exact Run.vector_congr alike
  | magnitude =>
      exact Run.magnitude_congr alike
  | elementAt =>
      exact Run.elementAt_congr alike
  | replaceElements =>
      exact Run.replaceElements_congr alike
  | arrayStatistic statistic =>
      exact statistic.run_congr alike
  | history =>
      exact Run.history_congr environment (alike.mono (List.subset_cons_self _ _))
        (Run.expressionName_congr (alike.mono (by simp [inlets, Inlet.needed])))
  | historyRange =>
      exact Run.historyRange_congr environment (alike.mono (List.subset_cons_self _ _))
        (Run.expressionName_congr (alike.mono (by simp [inlets, Inlet.needed])))
  | historyGradient =>
      exact Run.historyGradient_congr environment (alike.mono (List.subset_cons_self _ _))
        (Run.expressionName_congr (alike.mono (by simp [inlets, Inlet.needed])))
  | historyRangeGradient =>
      exact Run.historyRangeGradient_congr environment (alike.mono (List.subset_cons_self _ _))
        (Run.expressionName_congr (alike.mono (by simp [inlets, Inlet.needed])))
  | histogram =>
      exact Run.histogram_congr environment alike
  | transform result =>
      exact Run.transform_congr result alike
  | quantile =>
      exact Run.quantile_congr alike
  | field =>
      exact Run.field_congr environment alike
  | topology =>
      exact Run.topology_congr environment alike
  | bounds =>
      exact Run.bounds_congr environment alike
  | lineout =>
      exact Run.lineout_congr environment alike
  | fieldStatistic statistic =>
      exact Run.fieldStatistic_congr environment statistic alike
  | binning =>
      exact Run.binning_congr environment alike
  | axis =>
      exact Run.axis_congr environment alike
  | axisList arity =>
      refine Run.axisList_congr ?_
      simpa [inlets, Inlet.needed, Function.comp_def] using alike
  | binByIndex =>
      exact Run.binByIndex_congr alike
  | binByValue =>
      exact Run.binByValue_congr alike
  | pointAndAxis =>
      exact Run.pointAndAxis_congr alike
  | maxFromPoint =>
      exact Run.maxFromPoint_congr alike

/-- An operation reads nothing but the inlets that it declares. -/
theorem run_congr (alike : Inputs.Alike (operation.inlets.map Inlet.name) first second)
    (environment : Environment) :
    operation.run first environment = operation.run second environment := by
  unfold run
  split
  · rfl
  · rw [value_congr alike environment]

/-- To feed an output without a value and without an origin into an open inlet is to leave the inlet
open. -/
theorem run_feed_null {inputs : Inputs} {inlet : String} (isOpen : inputs.bound.get? inlet = none)
    (operation : Operation) (environment : Environment) :
    operation.run (inputs.feed inlet ⟨.null, none⟩) environment =
      operation.run inputs environment := by
  have alike : Inputs.Alike (operation.inlets.map Inlet.name)
      (inputs.feed inlet ⟨.null, none⟩) inputs := by
    refine ⟨rfl, fun shown _ => ?_, fun shown _ => ?_⟩
    · by_cases same : shown = inlet
      · simp [Inputs.get?, Inputs.feed, same, isOpen, Value.isNull]
      · simp only [Inputs.get?, Inputs.feed, Table.get?_insert_of_ne same]
    · by_cases same : shown = inlet
      · simp [Inputs.origin?, Inputs.feed, same, isOpen]
      · simp only [Inputs.origin?, Inputs.feed, Table.get?_insert_of_ne same]
  exact run_congr alike environment

/-- A negation, with nothing at its left inlet, of a truth value at its right one. -/
def negatedInputs : Inputs := ⟨"node", Table.ofList [("rhs", ⟨.bool true, none⟩)]⟩

/-- A cycle without a mesh, in which the newest value of an expression is the empty one. -/
def fadingEnvironment : Environment :=
  ⟨⟨Table.ofList [("fading", ⟨[⟨0, none, .int 1⟩, ⟨1, none, .null⟩]⟩)], none⟩,
    PointMesh.toDataset ⟨0, none, "mesh", [], Table.empty⟩, {}⟩

theorem run_negation_feed_null :
    negatedInputs.bound.get? "lhs" = none ∧
      (operator .negation).run (negatedInputs.feed "lhs" ⟨.null, none⟩) fadingEnvironment =
        .ok ⟨.bool false, none⟩ := by
  have isOpen : negatedInputs.bound.get? "lhs" = none := rfl
  refine ⟨isOpen, ?_⟩
  rw [run_feed_null isOpen]
  rfl

end Operation

end InSitu
