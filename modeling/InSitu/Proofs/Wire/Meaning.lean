import InSitu.Proofs.Wire.RoundTrip

/-!
# Stored values without a meaning

An axis literal has no form for a bound or an edge that is not finite, and a variable of a lineout
hides an attribute of the same name.  A value with well formed axes is lost by one of these and by
nothing else: by a bound of a binning, by an edge of an axis, or by a variable that is named like
the empty value.
-/

namespace InSitu

/-- The axes of a value can be asked for. -/
def Value.WellFormed : Value → Prop
  | .binning bins => ∀ axis ∈ bins.axes, axis.WellFormed
  | .axisList specs => ∀ spec ∈ specs, spec.WellFormed
  | _ => True

/-- What the stored form of a value cannot say. -/
def Value.Unreadable : Value → Prop
  | .binning bins => ∃ axis ∈ bins.axes, ∃ x ∈ axis.toSpec.numbers, x.isFinite = false
  | .axisList specs => ∃ spec ∈ specs, ∃ x ∈ spec.listedEdges, x.isFinite = false
  | .lineout samples => "empty_value" ∈ samples.columns.keys
  | _ => False

/-- An axis that leaves a bound open cannot be resolved without data. -/
theorem Axis.exists_resolve_openInfinite_eq_error {axis : Axis Float}
    (infinite : ∃ x ∈ axis.toSpec.numbers, x.isFinite = false)
    (edges : ∀ x ∈ axis.toSpec.listedEdges, x.isFinite = true) :
    ∃ fault, axis.toSpec.openInfinite.resolve 0 none = .error fault := by
  obtain ⟨x, number, notFinite⟩ := infinite
  obtain ⟨name, clamps, bins⟩ := axis
  cases bins with
  | edged listed =>
      have finite := edges x number
      rw [notFinite] at finite
      cases finite
  | uniform low high count =>
      rcases List.mem_pair.mp number with rfl | rfl
      · refine ⟨.missingLow name, ?_⟩
        simp [Axis.toSpec, AxisSpec.openInfinite, AxisSpec.resolve, Option.filter, notFinite, bind,
          Except.bind]
      · cases lowFinite : low.isFinite with
        | false =>
            refine ⟨.missingLow name, ?_⟩
            simp [Axis.toSpec, AxisSpec.openInfinite, AxisSpec.resolve, Option.filter, lowFinite,
              bind, Except.bind]
        | true =>
            refine ⟨.missingHigh name, ?_⟩
            simp [Axis.toSpec, AxisSpec.openInfinite, AxisSpec.resolve, Option.filter, notFinite,
              lowFinite, bind, Except.bind]

namespace Wire

theorem toValue_binning_of_finite {value : Binning}
    (wellFormed : ∀ axis ∈ value.axes, axis.WellFormed)
    (finite : ∀ axis ∈ value.axes, ∀ x ∈ axis.toSpec.numbers, x.isFinite = true) :
    (ofValue (.binning value)).toValue = .ok (.binning value) :=
  toValue_binning fun axis member => ⟨wellFormed axis member, finite axis member⟩

theorem exists_toValue_binning_eq_error {value : Binning}
    (wellFormed : ∀ axis ∈ value.axes, axis.WellFormed)
    (infinite : ∃ axis ∈ value.axes, ∃ x ∈ axis.toSpec.numbers, x.isFinite = false) :
    ∃ fault, (ofValue (.binning value)).toValue = .error fault := by
  have specs : ∀ spec ∈ value.axes.map Axis.toSpec, spec.WellFormed :=
    List.forall_mem_map.mpr fun axis isAxis => (wellFormed axis isAxis).toSpec
  rw [toValue_binning_eq]
  by_cases edges : ∀ spec ∈ value.axes.map Axis.toSpec, ∀ x ∈ spec.listedEdges, x.isFinite = true
  · -- The literals are read, and the open bound shows only when the axes are resolved.
    obtain ⟨axis, isAxis, number⟩ := infinite
    have isSpec : axis.toSpec ∈ value.axes.map Axis.toSpec := List.mem_map_of_mem isAxis
    obtain ⟨fault, unresolved⟩ :=
      Axis.exists_resolve_openInfinite_eq_error number (edges _ isSpec)
    have isOpen : axis.toSpec.openInfinite ∈
        (value.axes.map Axis.toSpec).map AxisSpec.openInfinite := List.mem_map_of_mem isSpec
    let read := fun spec : AxisSpec Float => (spec.resolve 0 none).mapError WireFault.axis
    have refused : read axis.toSpec.openInfinite = .error (.axis fault) :=
      congrArg (Except.mapError WireFault.axis) unresolved
    obtain ⟨first, failed⟩ := exists_mapM_eq_error_iff.mpr ⟨_, isOpen, _, refused⟩
    rw [axesOf_axesJson .binning specs edges, Except.bind, failed]
    exact ⟨first, rfl⟩
  · simp only [not_forall, Bool.not_eq_true] at edges
    obtain ⟨spec, member, x, listed, notFinite⟩ := edges
    rw [axesOf_axesJson_of_infinite_edge .binning specs ⟨spec, member, x, listed, notFinite⟩]
    exact ⟨_, rfl⟩

theorem exists_toValue_axisList_eq_error_iff {specs : List (AxisSpec Float)}
    (wellFormed : ∀ spec ∈ specs, spec.WellFormed) :
    (∃ fault, (ofValue (.axisList specs)).toValue = .error fault) ↔
      ∃ spec ∈ specs, ∃ x ∈ spec.listedEdges, x.isFinite = false := by
  have read : (ofValue (.axisList specs)).toValue =
      (axesOf .axisList (axesJson specs)).map Value.axisList := rfl
  rw [read]
  by_cases edges : ∀ spec ∈ specs, ∀ x ∈ spec.listedEdges, x.isFinite = true
  · rw [axesOf_axesJson .axisList wellFormed edges]
    constructor
    · rintro ⟨fault, failed⟩
      cases failed
    · rintro ⟨spec, member, x, listed, notFinite⟩
      rw [edges spec member x listed] at notFinite
      cases notFinite
  · simp only [not_forall, Bool.not_eq_true] at edges
    obtain ⟨spec, member, x, listed, notFinite⟩ := edges
    have infinite : ∃ spec ∈ specs, ∃ x ∈ spec.listedEdges, x.isFinite = false :=
      ⟨spec, member, x, listed, notFinite⟩
    rw [axesOf_axesJson_of_infinite_edge .axisList wellFormed infinite]
    exact ⟨fun _ => infinite, fun _ => ⟨_, rfl⟩⟩

theorem exists_toValue_lineout_eq_error_iff (value : Lineout) :
    (∃ fault, (ofValue (.lineout value)).toValue = .error fault) ↔
      "empty_value" ∈ value.columns.keys := by
  rw [toValue_lineout_eq]
  by_cases taken : "empty_value" ∈ value.columns.keys
  · rw [numberAttribute_lineout_of_mem value taken]
    exact ⟨fun _ => taken, fun _ => ⟨_, rfl⟩⟩
  · rw [numberAttribute_lineout value taken]
    constructor
    · rintro ⟨fault, failed⟩
      cases failed
    · intro member
      exact absurd member taken

theorem exists_error_iff_of_eq_ok {ε α : Type} {result : Except ε α} {value : α}
    (read : result = .ok value) : (∃ fault, result = .error fault) ↔ False := by
  rw [read]
  simp

/-- The stored form of a value with well formed axes has a meaning unless there is something in the
value that this form cannot say.  A bound in an axis list may be left open, so one that is not
finite is lost without a fault. -/
theorem exists_toValue_ofValue_eq_error_iff {value : Value} (wellFormed : value.WellFormed) :
    (∃ fault, (ofValue value).toValue = .error fault) ↔ value.Unreadable := by
  cases value with
  | array numbers =>
      obtain ⟨found, read⟩ := exists_arrayOf_arrayJson .array numbers
      have meant : (ofValue (.array numbers)).toValue = .ok (.array found) := by
        change (arrayOf .array (arrayJson numbers)).map Value.array = _
        rw [read]
        rfl
      exact exists_error_iff_of_eq_ok meant
  | bin value =>
      exact exists_error_iff_of_eq_ok (toValue_bin_eq value)
  | binning value =>
      constructor
      · rintro ⟨fault, failed⟩
        refine Classical.byContradiction fun readable => ?_
        simp only [Value.Unreadable, not_exists, not_and, Bool.not_eq_false] at readable
        rw [toValue_binning_of_finite wellFormed readable] at failed
        cases failed
      · exact exists_toValue_binning_eq_error wellFormed
  | axisList specs =>
      exact exists_toValue_axisList_eq_error_iff wellFormed
  | lineout value =>
      exact exists_toValue_lineout_eq_error_iff value
  | _ =>
      exact exists_error_iff_of_eq_ok (toValue_ofValue trivial)

theorem wellFormed_axesOf (kind : Kind) (json : Json) :
    Yields (fun specs => ∀ spec ∈ specs, spec.WellFormed) (axesOf kind json) := by
  simp only [axesOf, yields_bind]
  intro literals read
  refine yields_mapM fun literal member => yields_mapError.mpr ?_
  cases listed : Json.listOf? AxisLiteral.ofJson? json with
  | none =>
      rw [listed] at read
      cases read
  | some found =>
      rw [listed] at read
      cases read
      obtain ⟨items, _, mapped⟩ := Option.bind_eq_some_iff.mp listed
      obtain ⟨item, _, isLiteral⟩ := exists_of_mem_mapM mapped member
      exact AxisLiteral.wellFormed_toSpec (AxisLiteral.counted_of_ofJson? isLiteral)

theorem wellFormed_binningValue (wire : Wire) : Yields Value.WellFormed wire.binningValue := by
  simp only [binningValue, yields_bind, yields_pure]
  intro _ _ _ _ _ _ _ _ literals _ specs read axes resolved _ _ _ _
  refine yields_mapM (fun spec member => yields_mapError.mpr ?_) axes resolved
  exact Axis.wellFormed_resolve (wellFormed_axesOf _ _ specs read spec member) (by decide) none

/-- Whatever is read holds well formed axes. -/
theorem wellFormed_toValue (wire : Wire) : Yields Value.WellFormed wire.toValue := by
  obtain ⟨kind, value, attributes, name⟩ := wire
  cases kind with
  | binning =>
      exact wellFormed_binningValue _
  | axisList =>
      exact yields_map.mpr (wellFormed_axesOf .axisList value)
  | field =>
      simp only [toValue, fieldValue, yields_bind]
      intro field _
      split <;> simp [Value.WellFormed]
  | histogram =>
      simp [toValue, histogramValue, Value.WellFormed]
  | bin =>
      simp [toValue, binValue, Value.WellFormed]
  | valuePosition =>
      simp [toValue, positionValue, Value.WellFormed]
  | lineout =>
      simp [toValue, lineoutValue, Value.WellFormed]
  | _ =>
      simp [toValue, Value.WellFormed]

end Wire

end InSitu
