import InSitu.Proofs.Axis.Literal
import InSitu.Proofs.Sequence
import InSitu.Wire.Decode
import InSitu.Wire.Encode

/-!
# Reading payloads back

Each writer of a payload with the reader of the same payload.  Spelled out, the doubles that are
not finite are told apart from all numbers, and an array shows by its elements whether it holds
integers.
-/

namespace InSitu

namespace Wire

theorem number?_numberJson (x : Float) : number? (numberJson x) = some x := by
  rw [numberJson]
  by_cases isNaN : x.isNaN = true
  · rw [if_pos isNaN, Number.eq_notANumber_of_isNaN isNaN]
    rfl
  · rw [if_neg isNaN]
    by_cases isInf : x.isInf = true
    · rw [if_pos isInf]
      have limit := Number.eq_infinity_of_isInf isInf
      by_cases above : 0 < x
      · rw [if_pos above] at limit ⊢
        rw [limit]
        rfl
      · rw [if_neg above] at limit ⊢
        rw [limit]
        rfl
    · rw [if_neg isInf]
      rfl

theorem isInteger_numberJson (x : Float) : isInteger (numberJson x) = false := by
  rw [numberJson]
  split
  · rfl
  · split <;> rfl

theorem int64?_toInt (integer : Int64) : Number.int64? integer.toInt = some integer := by
  rw [Number.int64?, if_pos ⟨integer.le_toInt, integer.toInt_le⟩, Int64.ofInt_toInt]

theorem natural?_toInt_ofNat {index : Nat} (inWord : index < 2 ^ 63) :
    Number.natural? (Int64.ofNat index).toInt = some index := by
  have value : (Int64.ofNat index).toInt = index := by
    rw [Int64.toInt_ofNat_of_lt inWord]
  have size : UInt64.size = 2 ^ 64 := rfl
  rw [Number.natural?, value, if_pos (by omega), Int.toNat_natCast]

/-- A list is read if all its items are, and there is one fault for all of them. -/
theorem mapM_orFault {α : Type} (kind : Kind) (fault : PayloadFault) (read : Json → Option α)
    (items : List Json) :
    items.mapM (fun item => orFault kind fault (read item)) =
      orFault kind fault (items.mapM read) := by
  induction items with
  | nil =>
      rfl
  | cons item rest inductionHypothesis =>
      rw [List.mapM_cons, List.mapM_cons, inductionHypothesis]
      cases read item with
      | none =>
          rfl
      | some found =>
          cases rest.mapM read <;> rfl

theorem arrayOf_map {α : Type} (kind : Kind) (xs : List α) {write : α → Json} {reading : α → Float}
    (reads : ∀ x, number? (write x) = some (reading x)) :
    arrayOf kind (.array (xs.map write)) =
      .ok ⟨if !xs.isEmpty && xs.all fun x => isInteger (write x) then .int64 else .float64,
        xs.map reading⟩ := by
  have elements : (xs.map write).mapM (fun item => orFault kind .notNumeric (number? item)) =
      .ok (xs.map reading) := by
    rw [List.mapM_map]
    refine mapM_eq_pure_map fun x _ => ?_
    rw [Function.comp_apply, reads]
    rfl
  change ((xs.map write).mapM fun item => orFault kind .notNumeric (number? item)).bind _ = _
  rw [elements]
  change Except.ok _ = _
  rw [List.isEmpty_map, List.all_map]
  rfl

theorem arrayOf_numberJson (kind : Kind) (xs : List Float) :
    arrayOf kind (.array (xs.map numberJson)) = .ok (.doubles xs) := by
  have noInteger : (!xs.isEmpty && xs.all fun x => isInteger (numberJson x)) = false := by
    cases xs with
    | nil =>
        rfl
    | cons x rest =>
        simp [isInteger_numberJson]
  rw [arrayOf_map kind xs number?_numberJson, noInteger]
  exact congrArg (fun elements => Except.ok (NumericArray.doubles elements)) (List.map_id' xs)

theorem arrayJson_of_not_isInteger {array : NumericArray}
    (isFloat : array.elementType.isInteger = false) :
    arrayJson array = .array (array.elements.map numberJson) := by
  simp [arrayJson, isFloat]

theorem arrayOf_arrayJson_of_isInteger (kind : Kind) {array : NumericArray}
    (isInteger : array.elementType.isInteger = true) :
    arrayOf kind (arrayJson array) =
      .ok ⟨if array.elements.isEmpty then .float64 else .int64,
        array.elements.map fun x => Float.ofInt (Number.toInt64 x).toInt⟩ := by
  have items : arrayJson array =
      .array (array.elements.map fun x => .integer (Number.toInt64 x).toInt) := by
    simp [arrayJson, isInteger]
  have number : ∀ x : Float, number? (.integer (Number.toInt64 x).toInt) =
      some (Float.ofInt (Number.toInt64 x).toInt) := fun x => rfl
  rw [items, arrayOf_map kind array.elements number]
  cases array.elements with
  | nil =>
      rfl
  | cons x rest =>
      simp [Wire.isInteger]

theorem arrayOf_doubles (kind : Kind) (xs : List Float) :
    arrayOf kind (doubles xs).value = .ok (.doubles xs) := by
  change arrayOf kind (arrayJson (.doubles xs)) = _
  rw [arrayJson_of_not_isInteger rfl]
  exact arrayOf_numberJson kind xs

theorem pointOf_pointJson (kind : Kind) (point : Point Float) :
    pointOf kind (pointJson point) = .ok point := by
  rw [pointOf, pointJson, arrayOf_numberJson]
  rfl

/-- Every array is read as one. -/
theorem exists_arrayOf_arrayJson (kind : Kind) (array : NumericArray) :
    ∃ found, arrayOf kind (arrayJson array) = .ok found := by
  cases isInteger : array.elementType.isInteger with
  | false =>
      rw [arrayJson_of_not_isInteger isInteger]
      exact ⟨_, arrayOf_numberJson kind array.elements⟩
  | true =>
      exact ⟨_, arrayOf_arrayJson_of_isInteger kind isInteger⟩

theorem axesOf_axesJson (kind : Kind) {specs : List (AxisSpec Float)}
    (wellFormed : ∀ spec ∈ specs, spec.WellFormed)
    (finite : ∀ spec ∈ specs, ∀ x ∈ spec.listedEdges, x.isFinite = true) :
    axesOf kind (axesJson specs) = .ok (specs.map AxisSpec.openInfinite) := by
  have literals : Json.listOf? AxisLiteral.ofJson? (axesJson specs) =
      some (specs.map fun spec => spec.toLiteral.dropUnwritten) := by
    change (specs.map fun spec => spec.toLiteral.toSortedJson).mapM AxisLiteral.ofJson? = _
    rw [List.mapM_map]
    refine mapM_eq_pure_map fun spec member => ?_
    exact AxisLiteral.ofJson?_of_readable
      ((AxisSpec.readable_toLiteral_iff (wellFormed spec member)).mpr (finite spec member))
  rw [axesOf, literals]
  change (specs.map fun spec => spec.toLiteral.dropUnwritten).mapM
    (fun literal => literal.toSpec.mapError WireFault.axis) = _
  rw [List.mapM_map]
  refine mapM_eq_pure_map fun spec member => ?_
  rw [Function.comp_apply, AxisSpec.toSpec_dropUnwritten (wellFormed spec member).checked]
  rfl

/-- One edge without a finite value is enough to lose all axes. -/
theorem axesOf_axesJson_of_infinite_edge (kind : Kind) {specs : List (AxisSpec Float)}
    (wellFormed : ∀ spec ∈ specs, spec.WellFormed)
    (infinite : ∃ spec ∈ specs, ∃ x ∈ spec.listedEdges, x.isFinite = false) :
    axesOf kind (axesJson specs) = .error (.payload kind .badAxisLiteral) := by
  obtain ⟨spec, member, x, listed, xInfinite⟩ := infinite
  have unreadable : AxisLiteral.ofJson? spec.toLiteral.toSortedJson = none := by
    refine AxisLiteral.ofJson?_of_not_readable fun readable => ?_
    have finite := (AxisSpec.readable_toLiteral_iff (wellFormed spec member)).mp readable x listed
    rw [xInfinite] at finite
    cases finite
  have literals : Json.listOf? AxisLiteral.ofJson? (axesJson specs) = none := by
    change (specs.map fun spec => spec.toLiteral.toSortedJson).mapM AxisLiteral.ofJson? = none
    exact mapM_eq_none_of_mem (List.mem_map_of_mem member) unreadable
  rw [axesOf, literals]
  rfl

end Wire

end InSitu
