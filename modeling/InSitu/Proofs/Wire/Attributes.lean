import InSitu.Proofs.Wire.Storing
import InSitu.Value.Attributes

/-!
# Attributes and their stored forms

The attributes of a value are written down twice: where the parts of a value are read, and where it
is stored.  For most composite values the stored attributes are the stored forms of the attributes,
one by one.  A lineout is stored without the coordinates of its points, which have a place of their
own, so a variable named like a coordinate is stored although it cannot be read as an attribute.
-/

namespace InSitu

/-- The values that are stored as their attributes; the axes of a binning are among them, and have
to be well formed with finite numbers. -/
def Value.StoredByAttributes : Value → Prop
  | .histogram _ | .bin _ | .aabb _ | .valuePosition _ => True
  | .binning bins => ∀ axis ∈ bins.axes, axis.Storable
  | _ => False

namespace Wire

/-- The attribute is there in both forms, and the stored one means the other. -/
def AgreesOn (value : Value) (name : String) : Prop :=
  ∃ stored found, (ofValue value).attribute? name = some stored ∧
    value.attribute? name = some found ∧ stored.toValue = .ok found

theorem storable_doubles (elements : List Float) : (Value.doubles elements).Storable :=
  .inl rfl

/-- The stored attributes are the stored forms of the attributes. -/
theorem exists_attributes {value : Value} (composite : value.StoredByAttributes) :
    ∃ attributes, value.attributes? = some attributes ∧
      (ofValue value).attributes = attributes.map (fun entry => (entry.1, ofValue entry.2)) ∧
      ∀ entry ∈ attributes, entry.2.Storable := by
  cases value with
  | histogram counts =>
      refine ⟨_, rfl, rfl, ?_⟩
      simp only [List.forall_mem_cons]
      exact ⟨storable_doubles _, trivial, trivial, trivial, trivial, by simp⟩
  | binning bins =>
      have specs : (Value.axisList (bins.axes.map Axis.toSpec)).Storable :=
        List.forall_mem_map.mpr fun axis isAxis => (composite axis isAxis).toSpec
      refine ⟨_, rfl, rfl, ?_⟩
      simp only [List.forall_mem_cons]
      exact ⟨storable_doubles _, trivial, trivial, trivial, specs, by simp⟩
  | bin picked =>
      obtain ⟨index, value, low, high, center⟩ := picked
      cases index with
      | none =>
          exact ⟨_, rfl, rfl, by simp [Value.Storable]⟩
      | some index =>
          exact ⟨_, rfl, rfl, by simp [Value.Storable, Value.count]⟩
  | aabb box =>
      exact ⟨_, rfl, rfl, by simp [Value.Storable]⟩
  | valuePosition found =>
      obtain ⟨value, position, element⟩ := found
      cases element with
      | none =>
          exact ⟨_, rfl, rfl, by simp [Value.Storable]⟩
      | some element =>
          exact ⟨_, rfl, rfl, by simp [Value.Storable]⟩
  | _ =>
      exact composite.elim

theorem agreesOn_of_stored {value : Value} {name : String} (found : Value)
    (isFound : value.attribute? name = some found) (storable : found.Storable)
    (isStored : (ofValue value).attribute? name = some (ofValue found)) :
    AgreesOn value name :=
  ⟨ofValue found, found, isStored, isFound, toValue_ofValue storable⟩

theorem agreesOn_of_composite {value : Value} (composite : value.StoredByAttributes) :
    ∃ attributes, value.attributes? = some attributes ∧
      Entries.keys (ofValue value).attributes = Entries.keys attributes ∧
      ∀ name ∈ Entries.keys attributes, AgreesOn value name := by
  obtain ⟨attributes, isTable, areStored, storable⟩ := exists_attributes composite
  have sameNames : Entries.keys (ofValue value).attributes = Entries.keys attributes := by
    rw [areStored, Entries.keys, Entries.keys, List.map_map]
    rfl
  refine ⟨attributes, isTable, sameNames, fun name known => ?_⟩
  obtain ⟨found, isFound⟩ :=
    Option.isSome_iff_exists.mp ((Entries.isSome_get?_iff attributes name).mpr known)
  have isAttribute : value.attribute? name = some found := by
    rw [Value.attribute?, isTable]
    exact isFound
  have isStored : (ofValue value).attribute? name = some (ofValue found) := by
    rw [attribute?, areStored, Entries.get?_map fun _ => ofValue, isFound]
    rfl
  have isStorable := storable _ (Entries.mem_of_get?_eq_some isFound)
  exact agreesOn_of_stored found isAttribute isStorable isStored

section Lineout

variable {samples : Lineout}

/-- A variable that is not named like an attribute of every lineout is read by its name. -/
theorem attribute?_lineout_of_mem {name : String} {column : List Float}
    (member : (name, column) ∈ samples.columns.entries) (other : name ∉ lineoutAttributes) :
    (Value.lineout samples).attribute? name = some (Value.doubles column) := by
  have kept : (name, column) ∈
      samples.columns.entries.filter fun entry => entry.1 ∉ lineoutAttributes :=
    List.mem_filter.mpr ⟨member, decide_eq_true other⟩
  have distinct : (Entries.keys ((samples.columns.entries.filter fun entry =>
      entry.1 ∉ lineoutAttributes).map fun entry => (entry.1, Value.doubles entry.2))).Nodup := by
    rw [Entries.keys, List.map_map]
    exact (List.filter_sublist.map Prod.fst).nodup samples.columns.distinct
  have found := Entries.get?_eq_some_of_mem distinct (List.mem_map.mpr ⟨_, kept, rfl⟩)
  simp only [lineoutAttributes, List.mem_cons, List.not_mem_nil, or_false, not_or] at other
  obtain ⟨notEmptyValue, notSamples, notX, notY, notZ⟩ := other
  simp only [Value.attribute?, Value.attributes?, Option.bind_some, List.cons_append,
    List.nil_append]
  rw [Entries.get?, if_neg (Ne.symm notEmptyValue), Entries.get?, if_neg (Ne.symm notSamples),
    Entries.get?, if_neg (Ne.symm notX), Entries.get?, if_neg (Ne.symm notY), Entries.get?,
    if_neg (Ne.symm notZ)]
  exact found

theorem attribute?_ofValue_lineout_of_mem {name : String} {column : List Float}
    (member : (name, column) ∈ samples.columns.entries) :
    (ofValue (.lineout samples)).attribute? name = some (doubles column) := by
  have distinct : (Entries.keys (lineoutColumns samples)).Nodup := by
    rw [keys_lineoutColumns]
    exact samples.columns.distinct
  exact Entries.get?_insertAll_of_mem distinct (List.mem_map.mpr ⟨_, member, rfl⟩)

/-- No variable hides an attribute of another name. -/
theorem attribute?_ofValue_lineout_of_not_mem {name : String}
    (free : name ∉ samples.columns.keys) :
    (ofValue (.lineout samples)).attribute? name = Entries.get? (lineoutBase samples) name := by
  rw [attribute?, attributes_lineout, Entries.get?_insertAll_of_not_mem]
  rwa [keys_lineoutColumns]

theorem agreesOn_of_lineout (noEmptyValue : "empty_value" ∉ samples.columns.keys)
    (noSamples : "samples" ∉ samples.columns.keys) {name : String}
    (named : name = "empty_value" ∨ name = "samples" ∨
      name ∈ samples.columns.keys ∧ name ≠ "x" ∧ name ≠ "y" ∧ name ≠ "z") :
    AgreesOn (.lineout samples) name := by
  rcases named with rfl | rfl | ⟨known, notX, notY, notZ⟩
  · exact agreesOn_of_stored (.double samples.emptyValue) rfl trivial
      (attribute?_ofValue_lineout_of_not_mem noEmptyValue)
  · exact agreesOn_of_stored (Value.count samples.coordinates.length) rfl trivial
      (attribute?_ofValue_lineout_of_not_mem noSamples)
  · obtain ⟨column, isColumn⟩ := Table.mem_keys_iff_exists.mp known
    have member := Table.get?_eq_some_iff.mp isColumn
    have notEmptyValue : name ≠ "empty_value" := fun same => noEmptyValue (same ▸ known)
    have notSamples : name ≠ "samples" := fun same => noSamples (same ▸ known)
    have other : name ∉ lineoutAttributes := by
      simp [lineoutAttributes, notEmptyValue, notSamples, notX, notY, notZ]
    exact agreesOn_of_stored (Value.doubles column) (attribute?_lineout_of_mem member other)
      (storable_doubles column) (attribute?_ofValue_lineout_of_mem member)

end Lineout

/-- Reading an attribute and reading its stored form give the same.  Histograms, binnings with
finite axes, bins, boxes and located values are stored with the names of their attributes, in the
same order, and each stored attribute means the attribute of its name.  Of a lineout whose variables
leave the names of the empty value and of the number of samples free, this holds of these two and of
every variable that is not named like a coordinate. -/
theorem stored_attributes_agree :
    (∀ value : Value, value.StoredByAttributes →
      ∃ attributes, value.attributes? = some attributes ∧
        Entries.keys (ofValue value).attributes = Entries.keys attributes ∧
        ∀ name ∈ Entries.keys attributes, AgreesOn value name) ∧
    ∀ samples : Lineout, "empty_value" ∉ samples.columns.keys →
      "samples" ∉ samples.columns.keys →
      ∀ name, name = "empty_value" ∨ name = "samples" ∨
          name ∈ samples.columns.keys ∧ name ≠ "x" ∧ name ≠ "y" ∧ name ≠ "z" →
        AgreesOn (.lineout samples) name :=
  ⟨fun _ composite => agreesOn_of_composite composite,
    fun _ noEmptyValue noSamples _ named => agreesOn_of_lineout noEmptyValue noSamples named⟩

/-- One of the variables is named like a coordinate, the other holds no numbers. -/
def hiddenHeights : Lineout where
  emptyValue := Number.notANumber
  coordinates := [⟨0.5, 0.0, -0.0⟩, ⟨1.5, 0.0, Number.infinity⟩]
  columns := Table.ofList [("z", [3.0, 4.0]), ("density", [Number.notANumber, 1.5])]

theorem unevenBins_and_hiddenHeights_agree :
    unevenBins.StoredByAttributes ∧
      Entries.keys (ofValue unevenBins).attributes =
        ["value", "association", "reduction_var", "reduction_op", "bin_axes"] ∧
      AgreesOn unevenBins "value" ∧ AgreesOn unevenBins "bin_axes" ∧
      "empty_value" ∉ hiddenHeights.columns.keys ∧ "samples" ∉ hiddenHeights.columns.keys ∧
      AgreesOn (.lineout hiddenHeights) "empty_value" ∧
      AgreesOn (.lineout hiddenHeights) "samples" ∧
      AgreesOn (.lineout hiddenHeights) "density" := by
  have composite : unevenBins.StoredByAttributes := storable_unevenBins
  have noEmptyValue : "empty_value" ∉ hiddenHeights.columns.keys := by
    decide
  have noSamples : "samples" ∉ hiddenHeights.columns.keys := by
    decide
  obtain ⟨composites, lineouts⟩ := stored_attributes_agree
  obtain ⟨attributes, isTable, sameNames, agree⟩ := composites unevenBins composite
  have names : Entries.keys attributes =
      ["value", "association", "reduction_var", "reduction_op", "bin_axes"] :=
    congrArg (fun table => Entries.keys (table.getD [])) isTable.symm
  rw [names] at sameNames agree
  have heights := lineouts hiddenHeights noEmptyValue noSamples
  exact ⟨composite, sameNames, agree "value" (by decide), agree "bin_axes" (by decide),
    noEmptyValue, noSamples, heights "empty_value" (.inl rfl), heights "samples" (.inr (.inl rfl)),
    heights "density" (.inr (.inr (by decide)))⟩

end Wire

end InSitu
