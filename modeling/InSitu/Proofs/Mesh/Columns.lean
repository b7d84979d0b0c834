import InSitu.Binning.Request
import InSitu.Mesh.PointMesh
import InSitu.Operation.Query
import InSitu.Proofs.Binning.Accumulation
import InSitu.Proofs.Sequence
import InSitu.Proofs.Table
import InSitu.Proofs.Yielding

/-!
# The columns of a mesh

What a field, a component or a coordinate means is decided twice: when a request is checked against
the dataset, and when the mesh looks up the column.  On a mesh whose fields have one value for each
point the two agree: there is a column exactly for what the dataset names, and it has one sample for
each point.  So whatever passes the checks is answered, and a binning has a value for every bin.
-/

namespace InSitu

namespace Dataset

/-- What a dataset names: a coordinate that no field hides, with any component, or a field with one
of its components, if one is chosen. -/
def Names (dataset : Dataset) (field : String) (component : Option String) : Prop :=
  (dataset.coordinate? field).isSome = true ∨
    dataset.hasField field = true ∧
      ∀ chosen ∈ component, dataset.hasComponent field chosen = true

variable {dataset : Dataset} {node field : String} {component : Option String}

theorem names_of_checkField (checked : Run.checkField node dataset field component = .ok ()) :
    dataset.Names field component := by
  unfold Run.checkField at checked
  split at checked
  · cases checked
  · rename_i known
    refine Or.inr ⟨by simpa using known, fun chosen isChosen => ?_⟩
    cases isChosen
    dsimp only at checked
    split at checked
    · assumption
    · cases checked

theorem names_of_checkAxisName (checked : Binning.checkAxisName node dataset field = .ok ()) :
    dataset.Names field none := by
  rw [Binning.checkAxisName] at checked
  split at checked
  · rename_i coordinate
    exact Or.inl coordinate
  · split at checked
    · cases checked
    · rename_i known
      exact Or.inr ⟨by simpa using known, fun chosen isChosen => by cases isChosen⟩

theorem names_of_checkVariable {reduction : Reduction} (nonempty : field ≠ "")
    (checked : Binning.checkVariable node dataset field reduction component = .ok ()) :
    dataset.Names field component := by
  have filled : ¬ field.isEmpty = true := by
    simpa using nonempty
  unfold Binning.checkVariable at checked
  rw [if_neg filled] at checked
  split at checked
  · rename_i coordinate
    exact Or.inl coordinate
  · split at checked
    · cases checked
    · rename_i known
      refine Or.inr ⟨by simpa using known, fun chosen isChosen => ?_⟩
      cases isChosen
      split at checked
      · cases checked
      · cases checked
      · rename_i same
        cases same
        split at checked
        · assumption
        · cases checked
      · rename_i impossible
        cases impossible

end Dataset

namespace PointMesh

theorem firstMisfit?_eq_none_iff {points : Nat} {fields : List (String × FieldData)} :
    firstMisfit? points fields = none ↔
      ∀ entry ∈ fields, ∀ column ∈ entry.2.columns, column.length = points := by
  induction fields with
  | nil =>
      simp [firstMisfit?]
  | cons entry rest inductionHypothesis =>
      obtain ⟨name, data⟩ := entry
      rw [firstMisfit?, List.forall_mem_cons, ← inductionHypothesis]
      cases found : data.columns.find? fun column => column.length != points with
      | some column =>
          have member := List.mem_of_find?_eq_some found
          have misfit := List.find?_some found
          simp only [bne_iff_ne] at misfit
          simp only [reduceCtorEq, false_iff, not_and]
          intro fits
          exact absurd (fits column member) misfit
      | none =>
          have fits : ∀ column ∈ data.columns, column.length = points := by
            simpa using found
          exact ⟨fun rest => ⟨fits, rest⟩, And.right⟩

variable {mesh : PointMesh}

/-- A sound mesh has one value for each point in every column of a field. -/
theorem check_eq_ok_iff :
    mesh.check = .ok () ↔
      ∀ field data, mesh.fields.get? field = some data →
        ∀ column ∈ data.columns, column.length = mesh.coordinates.length := by
  have whole : mesh.check = .ok () ↔
      firstMisfit? mesh.coordinates.length mesh.fields.entries = none := by
    rw [check]
    cases firstMisfit? mesh.coordinates.length mesh.fields.entries with
    | none =>
        simp
    | some misfit =>
        simp
  rw [whole, firstMisfit?_eq_none_iff]
  simp only [Table.get?_eq_some_iff, Prod.forall]

theorem hasField_toDataset_iff {field : String} :
    mesh.toDataset.hasField field = true ↔ ∃ data, mesh.fields.get? field = some data := by
  rw [Dataset.hasField, List.contains_iff_mem]
  exact Table.mem_keys_iff_exists

/-- Without a field of its name, a column is a coordinate. -/
theorem names_toDataset_of_hidden {field : String} (hidden : mesh.fields.get? field = none)
    (component : Option String) :
    mesh.toDataset.Names field component ↔ (Coordinate.ofName? field).isSome = true := by
  have unknown : ¬ mesh.toDataset.hasField field = true := by
    simp [hasField_toDataset_iff, hidden]
  rw [Dataset.Names, Dataset.coordinate?, if_neg unknown]
  simp [unknown]

/-- A field hides the coordinate of its name, and has the components of its data. -/
theorem names_toDataset_of_found {field : String} {data : FieldData}
    (found : mesh.fields.get? field = some data) (component : Option String) :
    mesh.toDataset.Names field component ↔ ∀ chosen ∈ component, chosen ∈ data.componentNames := by
  have known : mesh.toDataset.hasField field = true := hasField_toDataset_iff.mpr ⟨data, found⟩
  have listed : mesh.toDataset.components field = data.componentNames := by
    simp [toDataset, found]
  rw [Dataset.Names, Dataset.coordinate?, if_pos known]
  simp [known, Dataset.hasComponent, listed]

/-- There is a column for a field and a component, with one sample for each point. -/
def Sampled (mesh : PointMesh) (field : String) (component : Option String) : Prop :=
  ∃ samples, mesh.column field component = .ok samples ∧
    samples.length = mesh.coordinates.length

/-- The length of a vector, summed over its components in order. -/
def magnitudeOf (parts : List Float) : Float :=
  (parts.foldl (fun total part => total + part * part) 0.0).sqrt

theorem squaresAt_eq (field : String) (points : Nat) {place : Nat}
    {columns : List (String × List Float)} (inside : ∀ entry ∈ columns, place < entry.2.length)
    (total : Float) :
    squaresAt field points place total columns =
      .ok (((columns.map Prod.snd).filterMap (·[place]?)).foldl
        (fun total part => total + part * part) total) := by
  induction columns generalizing total with
  | nil =>
      rfl
  | cons entry rest inductionHypothesis =>
      obtain ⟨first, others⟩ := List.forall_mem_cons.mp inside
      have isPart := List.getElem?_eq_getElem first
      rw [squaresAt, List.map_cons, List.filterMap_cons, isPart]
      exact inductionHypothesis others _

/-- A vector field has a length at each point, also one without components. -/
theorem magnitudes_eq {field : String} {points : Nat} {columns : Table (List Float)}
    (whole : ∀ column ∈ columns.values, column.length = points) :
    magnitudes field points columns =
      .ok ((List.range points).map fun place =>
        magnitudeOf (columns.values.filterMap (·[place]?))) := by
  refine mapM_eq_pure_map fun place member => ?_
  have inside : ∀ entry ∈ columns.entries, place < entry.2.length := by
    intro entry isEntry
    rw [whole entry.2 (List.mem_map_of_mem isEntry)]
    exact List.mem_range.mp member
  rw [squaresAt_eq field points inside]
  rfl

/-- A sound mesh has a column exactly for what its dataset names. -/
theorem sampled_iff_names (sound : mesh.check = .ok ()) {field : String}
    {component : Option String} :
    mesh.Sampled field component ↔ mesh.toDataset.Names field component := by
  unfold Sampled column
  cases found : mesh.fields.get? field with
  | none =>
      rw [names_toDataset_of_hidden found]
      cases Coordinate.ofName? field with
      | none =>
          simp
      | some coordinate =>
          simp
  | some data =>
      rw [names_toDataset_of_found found]
      have whole := check_eq_ok_iff.mp sound field data found
      cases data with
      | scalar values =>
          have sameLength : values.length = mesh.coordinates.length :=
            whole values (List.mem_singleton_self values)
          cases component with
          | none =>
              simp [sameLength]
          | some chosen =>
              simp [FieldData.componentNames]
      | components columns =>
          cases component with
          | none =>
              simp [magnitudes_eq whole]
          | some chosen =>
              cases listed : columns.get? chosen with
              | none =>
                  have unlisted := Table.get?_eq_none_iff.mp listed
                  simp [FieldData.componentNames, listed, unlisted]
              | some values =>
                  have member := Table.mem_keys_iff_exists.mpr ⟨values, listed⟩
                  have sameLength : values.length = mesh.coordinates.length :=
                    whole values (Table.mem_values_iff.mpr ⟨chosen, listed⟩)
                  simp [FieldData.componentNames, listed, member, sameLength]

/-! ## Binnings -/

/-- An axis is resolved under its own name, and only if it is well formed. -/
theorem yields_resolve (spec : AxisSpec Float) (defaultBins : Nat)
    (range : Option (Float × Float)) :
    Yields (fun axis : Axis Float => axis.name = spec.name ∧ axis.check = .ok ())
      (spec.resolve defaultBins range) := by
  rw [AxisSpec.resolve]
  split
  · split
    · simp
    · simp
    · simp
  · simp

/-- The axes of a request are well formed, and each is named after a column. -/
theorem yields_resolveAxes (node : String) (dataset : Dataset) (specs : List (AxisSpec Float))
    (defaultBins : Nat) :
    Yields (fun axes => ∀ axis ∈ axes, dataset.Names axis.name none ∧ axis.check = .ok ())
      (Binning.resolveAxes node dataset specs defaultBins) := by
  rw [Binning.resolveAxes, yields_ite]
  refine ⟨fun _ => yields_error _, fun _ => yields_mapM fun spec _ => ?_⟩
  have resolves : ∀ range, Binning.checkAxisName node dataset spec.name = .ok () →
      Yields (fun axis => dataset.Names axis.name none ∧ axis.check = .ok ())
        ((spec.resolve defaultBins range).mapError (Fault.ofAxis node)) := by
    intro range named
    rw [yields_mapError]
    refine (yields_resolve spec defaultBins range).imp fun axis resolved => ?_
    rw [resolved.1]
    exact ⟨Dataset.names_of_checkAxisName named, resolved.2⟩
  rw [Binning.resolveAxis]
  simp only [yields_bind]
  intro _ _ _ named
  split
  · simp only [yields_bind]
    exact fun range _ => resolves range named
  · exact resolves none named

/-- A request for what the dataset names is answered if a word holds the number of its bins, and
each point that is counted has its number among the values. -/
theorem exists_binning (sound : mesh.check = .ok ()) (request : BinningRequest)
    (axes : ∀ axis ∈ request.axes,
      mesh.toDataset.Names axis.name none ∧ axis.check = .ok ())
    (inWord : (request.axes.map Axis.binCount).prod < UInt64.size)
    (reduced : request.reduced ≠ "" →
      mesh.toDataset.Names request.reduced request.component) :
    ∃ columns answer,
      request.axes.mapM (fun axis => mesh.column axis.name none) = .ok columns ∧
      mesh.binning request = .ok answer ∧
      (∃ values, Binning.accumulate? request.axes columns values request.reduction
        request.emptyValue = some answer.values) ∧
      ∀ point < mesh.coordinates.length, ∀ bin,
        Binning.binOf? request.axes (Binning.coordinatesOf columns point) = some bin →
          bin < answer.values.length := by
  obtain ⟨columns, computed, sameLength, _⟩ := exists_mapM_eq_ok
    fun axis member => (sampled_iff_names sound).mpr (axes axis member).1
  have answers : ∃ values, mesh.binning request = .ok ⟨Binning.accumulate request.axes columns
      values request.reduction request.emptyValue, .point⟩ := by
    by_cases counts : request.reduced.isEmpty = true
    · refine ⟨none, ?_⟩
      simp [binning, computed, counts, bind, Except.bind, pure, Except.pure]
    · obtain ⟨samples, found, _⟩ :=
        (sampled_iff_names sound).mpr (reduced (by simpa using counts))
      refine ⟨some samples, ?_⟩
      simp [binning, computed, counts, found, Except.map, bind, Except.bind, pure, Except.pure]
  obtain ⟨values, answered⟩ := answers
  have positive : ∀ axis ∈ request.axes, 0 < axis.binCount := fun axis member =>
    Axis.binCount_pos (axes axis member).2
  have accumulated := Binning.accumulate?_eq_some_accumulate positive inWord sameLength values
    request.reduction request.emptyValue
  refine ⟨columns, _, computed, answered, ⟨values, accumulated⟩, fun point _ bin isBin => ?_⟩
  have matching : (Binning.coordinatesOf columns point).length = request.axes.length := by
    rw [Binning.coordinatesOf, List.length_map, sameLength]
  rw [Binning.length_of_accumulate? accumulated]
  exact ((Binning.binOf?_eq_some_iff positive inWord matching bin).mp isBin).1

/-- On a sound mesh the checks leave nothing to refuse.  Whatever passes the check of a field, of an
axis name or of the variable of a reduction has a column with one sample for each point; and a
binning whose variable and axes are accepted succeeds on these axes, if a word holds the number of
all their bins: the accumulation has a result, which has one value for each bin and in which each
point that is counted has its place. -/
theorem checked_requests_are_answered (sound : mesh.check = .ok ()) (node : String) :
    (∀ field component,
      Run.checkField node mesh.toDataset field component = .ok () →
        ∃ samples, mesh.column field component = .ok samples ∧
          samples.length = mesh.coordinates.length) ∧
    (∀ name, Binning.checkAxisName node mesh.toDataset name = .ok () →
        ∃ samples, mesh.column name none = .ok samples ∧
          samples.length = mesh.coordinates.length) ∧
    (∀ reduced reduction component, reduced ≠ "" →
      Binning.checkVariable node mesh.toDataset reduced reduction component = .ok () →
        ∃ samples, mesh.column reduced component = .ok samples ∧
          samples.length = mesh.coordinates.length) ∧
    (∀ (query : Binning.Query) defaultBins axes,
      Binning.checkVariable node mesh.toDataset query.reduced query.reduction
        query.component = .ok () →
      Binning.resolveAxes node mesh.toDataset query.axes defaultBins = .ok axes →
      (axes.map Axis.binCount).prod < UInt64.size →
        ∃ columns answer,
          axes.mapM (fun axis => mesh.column axis.name none) = .ok columns ∧
          Binning.run node mesh.toDataset query defaultBins = .ok answer ∧
          answer.axes = axes ∧
          answer.values.length = (axes.map Axis.binCount).prod ∧
          (∃ values, Binning.accumulate? axes columns values query.reduction query.emptyValue =
            some answer.values) ∧
          ∀ point < mesh.coordinates.length, ∀ bin,
            Binning.binOf? axes (Binning.coordinatesOf columns point) = some bin →
              bin < answer.values.length) := by
  refine ⟨?_, ?_, ?_, ?_⟩
  · intro field component checked
    exact (sampled_iff_names sound).mpr (Dataset.names_of_checkField checked)
  · intro name checked
    exact (sampled_iff_names sound).mpr (Dataset.names_of_checkAxisName checked)
  · intro reduced reduction component nonempty checked
    exact (sampled_iff_names sound).mpr (Dataset.names_of_checkVariable nonempty checked)
  · intro query defaultBins axes accepted resolved inWord
    have named := yields_resolveAxes node mesh.toDataset query.axes defaultBins axes resolved
    obtain ⟨columns, answer, computed, answered, ⟨values, accumulated⟩, placed⟩ :=
      exists_binning sound
        ⟨query.reduced, query.component, query.reduction, axes, query.emptyValue⟩
        named inWord fun nonempty => Dataset.names_of_checkVariable nonempty accepted
    have length : answer.values.length = Binning.totalBins axes :=
      Binning.length_of_accumulate? accumulated
    refine ⟨columns, ⟨answer.values, answer.association, query.reduced, query.reduction, axes⟩,
      computed, ?_, rfl, ?_, ⟨values, accumulated⟩, placed⟩
    · have asked : mesh.toDataset.binning
          ⟨query.reduced, query.component, query.reduction, axes, query.emptyValue⟩ =
            .ok answer := answered
      simp [Binning.run, accepted, resolved, asked, length, bind, Except.bind, pure, Except.pure]
    · rw [length]
      exact Binning.totalBins_eq_prod (fun axis member => Axis.binCount_pos (named axis member).2)
        inWord

/-- Two points, a field without components that hides a coordinate, and a field with two. -/
def hollowMesh : PointMesh where
  cycle := 0
  time := none
  topology := defaultTopology
  coordinates := [⟨0.5, 0.0, 0.0⟩, ⟨1.5, 3.0, 0.0⟩]
  fields := Table.ofList
    [("y", .components Table.empty),
      ("velocity", .components (Table.ofList [("u", [1.0, 2.0]), ("v", [3.0, 4.0])]))]

/-- The sums of a component over bins of a coordinate, whose range is open, and of the field that
hides another one. -/
def hollowQuery : Binning.Query where
  reduced := "velocity"
  reduction := .sum
  axes := [AxisSpec.unbounded "x", ⟨"y", true, .uniform (some 0.0) (some 1.0) (some 3)⟩]
  emptyValue := 0.0
  component := some "v"

theorem hollowMesh_answers_hollowQuery :
    hollowMesh.check = .ok () ∧
      Run.checkField "n" hollowMesh.toDataset "velocity" none = .ok () ∧
      (∃ samples, hollowMesh.column "velocity" none = .ok samples ∧ samples.length = 2) ∧
      Binning.checkAxisName "n" hollowMesh.toDataset "y" = .ok () ∧
      (∃ samples, hollowMesh.column "y" none = .ok samples ∧ samples.length = 2) ∧
      ∃ answer, Binning.run "n" hollowMesh.toDataset hollowQuery 2 = .ok answer ∧
        answer.values.length = 6 := by
  have sound : hollowMesh.check = .ok () := rfl
  have known : Run.checkField "n" hollowMesh.toDataset "velocity" none = .ok () := rfl
  have hides : Binning.checkAxisName "n" hollowMesh.toDataset "y" = .ok () := rfl
  have accepted : Binning.checkVariable "n" hollowMesh.toDataset "velocity" .sum (some "v") =
      .ok () := rfl
  have counted : (Binning.resolveAxes "n" hollowMesh.toDataset hollowQuery.axes 2).toOption.map
      (fun axes => (axes.map Axis.binCount).prod) = some 6 := by
    decide +kernel
  obtain ⟨fields, names, _, requests⟩ := checked_requests_are_answered sound "n"
  cases resolved : Binning.resolveAxes "n" hollowMesh.toDataset hollowQuery.axes 2 with
  | error fault =>
      rw [resolved] at counted
      cases counted
  | ok axes =>
      rw [resolved] at counted
      have product : (axes.map Axis.binCount).prod = 6 := Option.some.inj counted
      have inWord : (axes.map Axis.binCount).prod < UInt64.size := product ▸ by decide
      obtain ⟨_, answer, _, ran, _, length, _, _⟩ :=
        requests hollowQuery 2 axes accepted resolved inWord
      exact ⟨sound, known, fields "velocity" none known, hides, names "y" hides, answer, ran,
        length.trans product⟩

end PointMesh

end InSitu
