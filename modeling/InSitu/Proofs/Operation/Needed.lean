import InSitu.Operation.Catalog
import InSitu.Proofs.Operation.Reading
import InSitu.Proofs.Yielding

/-!
# Needed inputs

An operation that gives a value has read a value at every inlet that it needs, but for those that it
passes over: the branch that a condition does not pick, and the name of a history whose input was
recalled from the expression itself.  What is fed into such an inlet makes no difference.
-/

namespace InSitu

namespace Operation

/-- The inlets without which an operation cannot run. -/
def needs (operation : Operation) : List String :=
  (operation.inlets.filter Inlet.required).map Inlet.name

/-- Whether an operation reads the history of the expression that it is given. -/
def readsHistory : Operation → Bool
  | .history | .historyRange | .historyGradient | .historyRangeGradient => true
  | _ => false

/-- A run passes over the branch that its condition does not pick, and over the value that names a
history if it was recalled from an expression. -/
inductive PassesOver (inputs : Inputs) : Operation → String → Prop
  | elseBranch : inputs.get? "condition" = some (.bool true) →
      PassesOver inputs .conditional "else"
  | ifBranch : inputs.get? "condition" = some (.bool false) →
      PassesOver inputs .conditional "if"
  | recalled {operation : Operation} {name : String} : operation.readsHistory = true →
      inputs.origin? "expr_name" = some name → PassesOver inputs operation "expr_name"

/-- The inlets that an operation needs but that show no value are all passed over. -/
def NeedsMet (operation : Operation) (inputs : Inputs) : Prop :=
  ∀ inlet ∈ operation.needs, inputs.get? inlet = none → PassesOver inputs operation inlet

end Operation

namespace Inputs

/-- There is something to read at some inlets. -/
def Supplies (inputs : Inputs) (inlets : List String) : Prop :=
  ∀ inlet ∈ inlets, inputs.get? inlet ≠ none

variable {inputs : Inputs} {inlet : String}

theorem supplies_nil : inputs.Supplies [] := by
  simp [Supplies]

theorem Supplies.required {rest : List String} (supplies : inputs.Supplies rest) {value : Value}
    (isRead : inputs.required inlet = .ok value) : inputs.Supplies (inlet :: rest) := by
  refine List.forall_mem_cons.mpr ⟨?_, supplies⟩
  rw [get?_of_required isRead]
  exact Option.some_ne_none value

theorem Supplies.read {rest : List String} (supplies : inputs.Supplies rest) {α : Type}
    {expected : Expected} {reading : Value → Option α} {result : α}
    (isRead : inputs.read inlet expected reading = .ok result) :
    inputs.Supplies (inlet :: rest) := by
  refine List.forall_mem_cons.mpr ⟨?_, supplies⟩
  obtain ⟨value, found, _⟩ := exists_of_read isRead
  rw [found]
  exact Option.some_ne_none value

end Inputs

section Supplying

open Inputs

variable (inputs : Inputs) (environment : Environment)

theorem NumberFunction.supplies_run (function : NumberFunction) :
    Yields (fun _ => inputs.Supplies (function.inlets.map Inlet.name)) (function.run inputs) := by
  have picks (onIntegers : Int64 → Int64 → Int64) (onDoubles : Float → Float → Float) :
      Yields (fun _ => inputs.Supplies ["arg1", "arg2"]) (pick inputs onIntegers onDoubles) := by
    refine yields_bind.mpr fun first isFirst => yields_bind.mpr fun second isSecond => ?_
    exact yields_of_forall fun _ => (supplies_nil.required isSecond).required isFirst
  cases function with
  | min =>
      exact picks _ _
  | max =>
      exact picks _ _
  | abs =>
      refine yields_bind.mpr fun value isValue => ?_
      exact yields_of_forall fun _ => supplies_nil.required isValue
  | exp | log =>
      exact yields_map.mpr fun value isValue => supplies_nil.read isValue
  | pow =>
      refine yields_bind.mpr fun base isBase => yields_bind.mpr fun exponent isExponent => ?_
      exact yields_of_forall fun _ => (supplies_nil.read isExponent).read isBase

theorem ArrayStatistic.supplies_run (statistic : ArrayStatistic) :
    Yields (fun _ => inputs.Supplies ["arg1"]) (statistic.run inputs) :=
  yields_map.mpr fun _ isArray => supplies_nil.read isArray

namespace Run

theorem supplies_vector :
    Yields (fun _ => inputs.Supplies ["arg1", "arg2", "arg3"]) (vector inputs) := by
  refine yields_bind.mpr fun x isX => yields_bind.mpr fun y isY => ?_
  refine yields_bind.mpr fun z isZ => ?_
  exact yields_of_forall fun _ => ((supplies_nil.read isZ).read isY).read isX

theorem supplies_magnitude : Yields (fun _ => inputs.Supplies ["arg1"]) (magnitude inputs) :=
  yields_map.mpr fun _ isVector => supplies_nil.read isVector

theorem supplies_elementAt :
    Yields (fun _ => inputs.Supplies ["array", "index"]) (elementAt inputs) := by
  refine yields_bind.mpr fun array isArray => yields_bind.mpr fun index isIndex => ?_
  exact yields_of_forall fun _ => (supplies_nil.read isIndex).read isArray

theorem supplies_replaceElements :
    Yields (fun _ => inputs.Supplies ["arg1", "find", "replace"]) (replaceElements inputs) := by
  refine yields_bind.mpr fun array isArray => yields_ite.mpr ⟨fun _ => by simp, fun _ => ?_⟩
  refine yields_bind.mpr fun sought isSought => ?_
  refine yields_bind.mpr fun replacement isReplacement => ?_
  exact yields_of_forall fun _ => ((supplies_nil.read isReplacement).read isSought).read isArray

theorem supplies_field :
    Yields (fun _ => inputs.Supplies ["field_name"]) (field inputs environment) :=
  yields_bind.mpr fun _ isName => yields_of_forall fun _ => supplies_nil.read isName

theorem supplies_fieldStatistic (statistic : FieldStatistic) :
    Yields (fun _ => inputs.Supplies ["arg1"]) (fieldStatistic statistic inputs environment) :=
  yields_bind.mpr fun _ isField => yields_of_forall fun _ => supplies_nil.read isField

theorem supplies_lineout :
    Yields (fun _ => inputs.Supplies ["samples", "start", "end"])
      (lineout inputs environment) := by
  refine yields_bind.mpr fun samples isSamples => yields_ite.mpr ⟨fun _ => by simp, fun _ => ?_⟩
  refine yields_bind.mpr fun start isStart => yields_bind.mpr fun stop isStop => ?_
  exact yields_of_forall fun _ => ((supplies_nil.read isStop).read isStart).read isSamples

theorem supplies_histogram :
    Yields (fun _ => inputs.Supplies ["arg1"]) (histogram inputs environment) :=
  yields_bind.mpr fun _ isField => yields_of_forall fun _ => supplies_nil.read isField

theorem supplies_transform (result : HistogramTransform) :
    Yields (fun _ => inputs.Supplies ["hist"]) (transform result inputs) :=
  yields_map.mpr fun _ isHistogram => supplies_nil.read isHistogram

theorem supplies_quantile : Yields (fun _ => inputs.Supplies ["cdf", "q"]) (quantile inputs) := by
  refine yields_bind.mpr fun found isHistogram => yields_bind.mpr fun q isNumber => ?_
  exact yields_of_forall fun _ => (supplies_nil.read isNumber).read isHistogram

theorem supplies_binning :
    Yields (fun _ => inputs.Supplies ["reduction_op", "bin_axes"])
      (binning inputs environment) := by
  refine yields_bind.mpr fun text isText => yields_bind.mpr fun _ _ => ?_
  refine yields_bind.mpr fun chosen _ => yields_bind.mpr fun asArgument _ => ?_
  refine yields_bind.mpr fun component _ => yields_bind.mpr fun axes isAxes => ?_
  exact yields_of_forall fun _ => (supplies_nil.read isAxes).read isText

theorem supplies_axis : Yields (fun _ => inputs.Supplies ["name"]) (axis inputs environment) :=
  yields_bind.mpr fun _ isField => yields_of_forall fun _ => supplies_nil.read isField

theorem supplies_axisList (arity : Nat) :
    Yields (fun _ => inputs.Supplies ((List.range arity).map argumentName))
      (axisList arity inputs) := by
  refine yields_bind.mpr fun lists areLists => yields_of_forall fun _ => ?_
  intro inlet member nothing
  obtain ⟨index, isIndex, rfl⟩ := List.mem_map.mp member
  have unread : ∃ fault, inputs.read (argumentName index) .axisList axesOf? = .error fault := by
    simp [Inputs.read, Inputs.read?, nothing, bind, Except.bind]
  have unreadable : ∃ fault, (List.range arity).mapM (fun index =>
      inputs.read (argumentName index) .axisList axesOf?) = .error fault :=
    exists_mapM_eq_error_iff.mpr ⟨index, isIndex, unread⟩
  obtain ⟨fault, failed⟩ := unreadable
  rw [failed] at areLists
  cases areLists

theorem supplies_binByIndex :
    Yields (fun _ => inputs.Supplies ["binning", "index"]) (binByIndex inputs) := by
  refine yields_bind.mpr fun found areBins => yields_bind.mpr fun index isIndex => ?_
  exact yields_of_forall fun _ => (supplies_nil.read isIndex).read areBins

theorem supplies_binByValue :
    Yields (fun _ => inputs.Supplies ["binning", "value"]) (binByValue inputs) := by
  refine yields_bind.mpr fun found areBins => yields_bind.mpr fun value isValue => ?_
  exact yields_of_forall fun _ => (supplies_nil.read isValue).read areBins

theorem supplies_pointAndAxis :
    Yields (fun _ => inputs.Supplies ["binning", "threshold", "point"])
      (pointAndAxis inputs) := by
  refine yields_bind.mpr fun found areBins => yields_bind.mpr fun threshold isThreshold => ?_
  refine yields_bind.mpr fun point isPoint => ?_
  exact yields_of_forall fun _ => ((supplies_nil.read isPoint).read isThreshold).read areBins

theorem supplies_maxFromPoint :
    Yields (fun _ => inputs.Supplies ["binning", "point"]) (maxFromPoint inputs) := by
  refine yields_bind.mpr fun found areBins => yields_bind.mpr fun named _ => ?_
  refine yields_bind.mpr fun point isPoint => ?_
  exact yields_of_forall fun _ => (supplies_nil.read isPoint).read areBins

/-- The name of a history is told by the origin of the input, or else by its value. -/
def NamesHistory (inputs : Inputs) : Prop :=
  inputs.origin? "expr_name" = none → inputs.Supplies ["expr_name"]

theorem names_expressionName :
    Yields (fun _ => NamesHistory inputs) (expressionName inputs) := by
  rw [expressionName]
  split
  · rename_i origin found
    simp [NamesHistory, found]
  · refine yields_bind.mpr fun value isValue => ?_
    exact yields_of_forall fun _ _ => supplies_nil.required isValue

theorem names_recordedTimeline :
    Yields (fun _ => NamesHistory inputs) (recordedTimeline inputs environment) :=
  yields_bind.mpr fun name isName =>
    yields_of_forall fun _ => names_expressionName inputs name isName

theorem names_knownTimeline :
    Yields (fun _ => NamesHistory inputs) (knownTimeline inputs environment) :=
  yields_bind.mpr fun name isName =>
    yields_of_forall fun _ => names_expressionName inputs name isName

theorem names_history : Yields (fun _ => NamesHistory inputs) (history inputs environment) := by
  have selected (index : EntryIndex) : Yields (fun _ => NamesHistory inputs) (do
      let timeline ← recordedTimeline inputs environment
      let entry ← timeline.select inputs.node index
      return entry.value) :=
    yields_bind.mpr fun timeline isTimeline =>
      yields_of_forall fun _ => names_recordedTimeline inputs environment timeline isTimeline
  refine yields_bind.mpr fun absolute _ => yields_bind.mpr fun relative _ => ?_
  split
  · exact selected _
  · exact selected _
  · simp
  · simp

theorem names_historyRange :
    Yields (fun _ => NamesHistory inputs) (historyRange inputs environment) := by
  refine yields_bind.mpr fun selector _ => yields_bind.mpr fun _ _ => ?_
  refine yields_bind.mpr fun timeline isTimeline => ?_
  exact yields_of_forall fun _ => names_knownTimeline inputs environment timeline isTimeline

theorem names_historyGradient :
    Yields (fun _ => NamesHistory inputs) (historyGradient inputs environment) := by
  have graded (length : Option Float) (unit : DeltaUnit) :
      Yields (fun _ => NamesHistory inputs) (do
        let timeline ← knownTimeline inputs environment
        (timeline.gradient inputs.node (length.getD 1.0) unit).map Value.double) :=
    yields_bind.mpr fun timeline isTimeline =>
      yields_of_forall fun _ => names_knownTimeline inputs environment timeline isTimeline
  refine yields_bind.mpr fun length _ => yields_bind.mpr fun text _ => ?_
  split
  · exact graded length _
  · split
    · exact graded length _
    · simp

theorem names_historyRangeGradient :
    Yields (fun _ => NamesHistory inputs) (historyRangeGradient inputs environment) := by
  refine yields_bind.mpr fun selector _ => yields_bind.mpr fun _ _ => ?_
  refine yields_bind.mpr fun timeline isTimeline => ?_
  exact yields_of_forall fun _ => names_knownTimeline inputs environment timeline isTimeline

end Run

namespace Operation

theorem supplies_attributeOf (name : String) :
    Yields (fun _ => inputs.Supplies ["obj"]) (attributeOf name inputs) :=
  yields_bind.mpr fun _ isValue => yields_of_forall fun _ => supplies_nil.required isValue

theorem supplies_applyOperator (applied : Operator) :
    Yields (fun _ => inputs.Supplies ["rhs"]) (applyOperator applied inputs) :=
  yields_bind.mpr fun _ isRight => yields_of_forall fun _ => supplies_nil.required isRight

/-- A choice has read its condition and the branch that the condition picks. -/
theorem reads_choose : Yields (fun _ => ∃ picked, inputs.get? "condition" = some (.bool picked) ∧
    inputs.Supplies [if picked then "if" else "else"]) (choose inputs) := by
  refine yields_bind.mpr fun picked isBool => ?_
  have condition : inputs.get? "condition" = some (.bool picked) := by
    obtain ⟨value, found, shown⟩ := exists_of_read isBool
    cases value <;> cases shown
    exact found
  refine yields_ite.mpr ⟨fun isTrue => ?_, fun isFalse => ?_⟩
  · intro value isValue
    refine ⟨picked, condition, ?_⟩
    simpa [isTrue] using supplies_nil.required isValue
  · intro value isValue
    refine ⟨picked, condition, ?_⟩
    simpa [isFalse] using supplies_nil.required isValue

variable {inputs}

theorem needsMet_of_supplies {operation : Operation} {computation : Except Fault Value}
    (supplied : Yields (fun _ => inputs.Supplies operation.needs) computation) :
    Yields (fun _ => NeedsMet operation inputs) computation :=
  supplied.imp fun _ supplies inlet member nothing => absurd nothing (supplies inlet member)

theorem needsMet_of_names {operation : Operation} (reads : operation.readsHistory = true)
    (needed : operation.needs = ["expr_name"]) {computation : Except Fault Value}
    (named : Yields (fun _ => Run.NamesHistory inputs) computation) :
    Yields (fun _ => NeedsMet operation inputs) computation := by
  refine named.imp fun _ names inlet member nothing => ?_
  obtain rfl : inlet = "expr_name" := by simpa [needed] using member
  cases origin : inputs.origin? "expr_name" with
  | none =>
      exact absurd nothing (names origin "expr_name" (List.mem_singleton.mpr rfl))
  | some name =>
      exact .recalled reads origin

theorem needsMet_choose : Yields (fun _ => NeedsMet .conditional inputs) (choose inputs) := by
  refine (reads_choose inputs).imp fun _ reads inlet member nothing => ?_
  obtain ⟨picked, condition, supplies⟩ := reads
  have branches : inlet = "condition" ∨ inlet = "if" ∨ inlet = "else" := by
    simpa [needs, inlets, Inlet.needed] using member
  obtain rfl | rfl | rfl := branches
  · simp [condition] at nothing
  · cases picked with
    | true =>
        exact absurd nothing (supplies "if" (List.mem_singleton.mpr rfl))
    | false =>
        exact .ifBranch condition
  · cases picked with
    | true =>
        exact .elseBranch condition
    | false =>
        exact absurd nothing (supplies "else" (List.mem_singleton.mpr rfl))

/-- An operation that gives a value has its needs met. -/
theorem needsMet_of_value (operation : Operation) :
    Yields (fun _ => NeedsMet operation inputs) (operation.value inputs environment) := by
  cases operation with
  | literal | identifier | cycle | time | topology | bounds =>
      exact needsMet_of_supplies (yields_of_forall fun _ => supplies_nil)
  | «attribute» name =>
      exact needsMet_of_supplies (supplies_attributeOf inputs name)
  | conditional =>
      exact needsMet_choose
  | operator applied =>
      exact needsMet_of_supplies (supplies_applyOperator inputs applied)
  | number function =>
      refine needsMet_of_supplies ?_
      have allNeeded : (Operation.number function).needs = function.inlets.map Inlet.name := by
        cases function <;> rfl
      rw [allNeeded]
      exact function.supplies_run inputs
  | vector =>
      exact needsMet_of_supplies (Run.supplies_vector inputs)
  | magnitude =>
      exact needsMet_of_supplies (Run.supplies_magnitude inputs)
  | elementAt =>
      exact needsMet_of_supplies (Run.supplies_elementAt inputs)
  | replaceElements =>
      exact needsMet_of_supplies (Run.supplies_replaceElements inputs)
  | arrayStatistic statistic =>
      exact needsMet_of_supplies (statistic.supplies_run inputs)
  | history =>
      exact needsMet_of_names rfl rfl (Run.names_history inputs environment)
  | historyRange =>
      exact needsMet_of_names rfl rfl (Run.names_historyRange inputs environment)
  | historyGradient =>
      exact needsMet_of_names rfl rfl (Run.names_historyGradient inputs environment)
  | historyRangeGradient =>
      exact needsMet_of_names rfl rfl (Run.names_historyRangeGradient inputs environment)
  | histogram =>
      exact needsMet_of_supplies (Run.supplies_histogram inputs environment)
  | transform result =>
      exact needsMet_of_supplies (Run.supplies_transform inputs result)
  | quantile =>
      exact needsMet_of_supplies (Run.supplies_quantile inputs)
  | field =>
      exact needsMet_of_supplies (Run.supplies_field inputs environment)
  | lineout =>
      exact needsMet_of_supplies (Run.supplies_lineout inputs environment)
  | fieldStatistic statistic =>
      exact needsMet_of_supplies (Run.supplies_fieldStatistic inputs environment statistic)
  | binning =>
      exact needsMet_of_supplies (Run.supplies_binning inputs environment)
  | axis =>
      exact needsMet_of_supplies (Run.supplies_axis inputs environment)
  | axisList arity =>
      refine needsMet_of_supplies ?_
      have allNeeded : (axisList arity).needs = (List.range arity).map Run.argumentName := by
        simp [needs, inlets, Inlet.needed, List.filter_map, Function.comp_def]
      rw [allNeeded]
      exact Run.supplies_axisList inputs arity
  | binByIndex =>
      exact needsMet_of_supplies (Run.supplies_binByIndex inputs)
  | binByValue =>
      exact needsMet_of_supplies (Run.supplies_binByValue inputs)
  | pointAndAxis =>
      exact needsMet_of_supplies (Run.supplies_pointAndAxis inputs)
  | maxFromPoint =>
      exact needsMet_of_supplies (Run.supplies_maxFromPoint inputs)

theorem needsMet_of_run (operation : Operation) :
    Yields (fun _ => NeedsMet operation inputs) (operation.run inputs environment) := by
  unfold run
  split
  · exact yields_of_forall fun _ inlet member => by cases member
  · exact yields_map.mpr fun value isValue => needsMet_of_value environment operation value isValue

end Operation

end Supplying

/-! ## What is passed over -/

section PassingOver

variable {inputs : Inputs} (environment : Environment)

theorem Inputs.origin?_feed (inlet : String) (output : Output) :
    (inputs.feed inlet output).origin? inlet = output.origin := by
  simp [origin?, feed]

theorem Operation.choose_eq {picked : Bool}
    (condition : inputs.get? "condition" = some (.bool picked)) :
    choose inputs = inputs.required (if picked then "if" else "else") := by
  have shown : inputs.bool "condition" = .ok picked := by
    simp [Inputs.bool, Inputs.read, Inputs.read?, condition, Value.bool?, bind, Except.bind, pure,
      Except.pure]
  rw [choose, shown]
  cases picked <;> rfl

/-- A choice looks at its condition and at the branch that it picks. -/
theorem Operation.choose_feed {picked : Bool}
    (condition : inputs.get? "condition" = some (.bool picked)) (output : Output) :
    choose (inputs.feed (if picked then "else" else "if") output) = choose inputs := by
  have alike : Inputs.Alike ["condition", if picked then "if" else "else"]
      (inputs.feed (if picked then "else" else "if") output) inputs :=
    Inputs.alike_feed output (by cases picked <;> decide)
  have sameCondition := (alike.get? "condition" List.mem_cons_self).trans condition
  rw [choose_eq sameCondition, choose_eq condition]
  exact alike.required (by simp)

theorem Run.expressionName_eq {name : String} (origin : inputs.origin? "expr_name" = some name) :
    expressionName inputs = .ok name := by
  rw [expressionName, origin]

/-- A history whose name was recalled from an expression looks at no value for that name. -/
theorem Operation.value_feed_recalled {operation : Operation} {name : String}
    (reads : operation.readsHistory = true) (origin : inputs.origin? "expr_name" = some name)
    {output : Output} (sameOrigin : output.origin = some name) :
    operation.value (inputs.feed "expr_name" output) environment =
      operation.value inputs environment := by
  have sameName : Run.expressionName (inputs.feed "expr_name" output) =
      Run.expressionName inputs := by
    rw [Run.expressionName_eq origin]
    exact Run.expressionName_eq ((Inputs.origin?_feed "expr_name" output).trans sameOrigin)
  cases operation with
  | history =>
      exact Run.history_congr environment (Inputs.alike_feed output (by simp)) sameName
  | historyRange =>
      exact Run.historyRange_congr environment
        (Inputs.alike_feed output (by simp [Run.rangeInlets])) sameName
  | historyGradient =>
      exact Run.historyGradient_congr environment (Inputs.alike_feed output (by simp)) sameName
  | historyRangeGradient =>
      exact Run.historyRangeGradient_congr environment
        (Inputs.alike_feed output (by simp [Run.rangeInlets])) sameName
  | _ =>
      cases reads

/-- The value at an inlet that a run passes over makes no difference. -/
theorem Operation.value_feed_of_passesOver {operation : Operation} {inlet : String}
    (passed : PassesOver inputs operation inlet) {output : Output}
    (sameOrigin : output.origin = inputs.origin? inlet) :
    operation.value (inputs.feed inlet output) environment =
      operation.value inputs environment := by
  cases passed with
  | elseBranch condition =>
      exact choose_feed condition output
  | ifBranch condition =>
      exact choose_feed condition output
  | recalled reads origin =>
      exact value_feed_recalled environment reads origin (sameOrigin.trans origin)

end PassingOver

namespace Operation

/-- Without a value at an inlet that it needs, an operation fails; or else it passes over the inlet,
and runs as with any value there. -/
theorem run_without_needed {operation : Operation} {inputs : Inputs} {inlet : Inlet}
    (declared : inlet ∈ operation.inlets) (needed : inlet.required = true)
    (nothing : inputs.get? inlet.name = none) (environment : Environment) :
    (¬ PassesOver inputs operation inlet.name →
      ∃ fault, operation.run inputs environment = .error fault) ∧
    (PassesOver inputs operation inlet.name →
      ∀ output : Output, output.origin = inputs.origin? inlet.name →
        operation.run (inputs.feed inlet.name output) environment =
          operation.run inputs environment) := by
  constructor
  · intro notPassed
    have member : inlet.name ∈ operation.needs :=
      List.mem_map_of_mem (List.mem_filter.mpr ⟨declared, needed⟩)
    cases result : operation.run inputs environment with
    | error fault =>
        exact ⟨fault, rfl⟩
    | ok output =>
        have passed := needsMet_of_run environment operation output result inlet.name member nothing
        exact absurd passed notPassed
  · intro passed output sameOrigin
    unfold run
    split
    · rfl
    · rw [value_feed_of_passesOver environment passed sameOrigin]

/-- A true condition and the branch that it picks, but an empty other branch. -/
def pickedInputs : Inputs :=
  ⟨"node", Table.ofList
    [("condition", ⟨.bool true, none⟩), ("if", ⟨.int 1, none⟩), ("else", ⟨.null, none⟩)]⟩

/-- The oldest value of the expression that was recalled, whose newest value is empty. -/
def recalledInputs : Inputs :=
  ⟨"node", Table.ofList
    [("expr_name", ⟨.null, some "fading"⟩), ("relative_index", ⟨.int 1, none⟩)]⟩

/-- A vector whose third component is empty. -/
def flatInputs : Inputs :=
  ⟨"node", Table.ofList
    [("arg1", ⟨.int 1, none⟩), ("arg2", ⟨.int 2, none⟩), ("arg3", ⟨.null, none⟩)]⟩

theorem run_flat_and_picked :
    (∃ fault, vector.run flatInputs fadingEnvironment = .error fault) ∧
      conditional.run (pickedInputs.feed "else" ⟨.int 2, none⟩) fadingEnvironment =
        conditional.run pickedInputs fadingEnvironment := by
  constructor
  · have declared : Inlet.needed "arg3" ∈ vector.inlets := by
      simp [inlets]
    have nothing : flatInputs.get? (Inlet.needed "arg3").name = none := rfl
    have nonePassed : ∀ inlet, ¬ PassesOver flatInputs vector inlet := by
      intro inlet passed
      cases passed with
      | recalled reads =>
          cases reads
    exact (run_without_needed declared rfl nothing fadingEnvironment).1 (nonePassed _)
  · have declared : Inlet.needed "else" ∈ conditional.inlets := by
      simp [inlets]
    have nothing : pickedInputs.get? (Inlet.needed "else").name = none := rfl
    have passed : PassesOver pickedInputs conditional (Inlet.needed "else").name :=
      .elseBranch rfl
    exact (run_without_needed declared rfl nothing fadingEnvironment).2 passed _ rfl

/-- Operations that can be built give values without inputs that they declare as needed. -/
theorem values_without_needed :
    (build "if" Table.empty = .ok .conditional ∧
      Inlet.needed "else" ∈ conditional.inlets ∧ pickedInputs.get? "else" = none ∧
      conditional.run pickedInputs fadingEnvironment = .ok ⟨.int 1, none⟩) ∧
    (build "history" Table.empty = .ok .history ∧
      Inlet.needed "expr_name" ∈ history.inlets ∧ recalledInputs.get? "expr_name" = none ∧
      history.run recalledInputs fadingEnvironment = .ok ⟨.int 1, none⟩) := by
  have elseNeeded : Inlet.needed "else" ∈ conditional.inlets := by
    simp [inlets]
  have nameNeeded : Inlet.needed "expr_name" ∈ history.inlets := by
    simp [inlets]
  exact ⟨⟨rfl, elseNeeded, rfl, rfl⟩, ⟨rfl, nameNeeded, rfl, rfl⟩⟩

end Operation

end InSitu
