import InSitu.Proofs.Wire.Bounded

/-!
# Storing again what has been read

Integers of arrays and indices of bins are read from unsigned words, but stored
as signed ones.  An integer above `2 ^ 63` is stored as the largest signed word
and an index from `2 ^ 63` on as a negative number, which is not read as an index.
After that nothing more is lost, and of a value without such a number nothing is
lost at all.
-/

namespace InSitu

/-- Doubles, or doubles of integers of machine words with at least one to show it. -/
def NumericArray.Decoded (array : NumericArray) : Prop :=
  array.elementType = .float64 ∨
    array.elementType = .int64 ∧ array.elements ≠ [] ∧
      ∀ x ∈ array.elements, ∃ integer, Json.InWord integer ∧ x = Float.ofInt integer

/-- What a stored value with bounded numbers can mean. -/
def Value.Decoded : Value → Prop
  | .array numbers => numbers.Decoded
  | .bin picked => ∀ index ∈ picked.index, index < 2 ^ 64
  | value => value.Storable

/-- Integers become signed words, and their doubles again. -/
def NumericArray.clip (array : NumericArray) : NumericArray :=
  if array.elementType.isInteger then
    { array with elements := array.elements.map Number.cut }
  else array

/-- A value without the numbers that signed words cannot hold. -/
def Value.clip : Value → Value
  | .array numbers => .array numbers.clip
  | .bin picked => .bin { picked with index := picked.index.filter (· < 2 ^ 63) }
  | value => value

/-- Some number lies above those that signed words hold. -/
def Value.Exceeds : Value → Prop
  | .array numbers =>
    numbers.elementType = .int64 ∧ ∃ x ∈ numbers.elements, Float.ofNat (2 ^ 63) < x
  | .bin picked => ∃ index ∈ picked.index, 2 ^ 63 ≤ index
  | _ => False

section Arrays

variable {array : NumericArray}

theorem NumericArray.clip_of_isInteger (isInteger : array.elementType.isInteger = true) :
    array.clip = { array with elements := array.elements.map Number.cut } :=
  if_pos isInteger

theorem NumericArray.clip_of_not_isInteger (isDouble : array.elementType.isInteger = false) :
    array.clip = array := by
  rw [clip, isDouble]
  rfl

theorem NumericArray.clip_clip (array : NumericArray) : array.clip.clip = array.clip := by
  cases isInteger : array.elementType.isInteger with
  | false =>
      rw [clip_of_not_isInteger isInteger, clip_of_not_isInteger isInteger]
  | true =>
      rw [clip_of_isInteger isInteger,
        @clip_of_isInteger ⟨array.elementType, array.elements.map Number.cut⟩ isInteger,
        List.map_map]
      exact congrArg (NumericArray.mk _) (List.map_congr_left fun x _ => Number.cut_cut x)

theorem NumericArray.Decoded.clip (decoded : array.Decoded) : array.clip.Decoded := by
  obtain ⟨elementType, elements⟩ := array
  rcases decoded with isDouble | ⟨isInteger, nonempty, _⟩
  · cases isDouble
    exact .inl rfl
  · cases isInteger
    rw [clip_of_isInteger rfl]
    refine .inr ⟨rfl, fun none => nonempty (List.map_eq_nil_iff.mp none), fun x member => ?_⟩
    obtain ⟨former, _, rfl⟩ := List.mem_map.mp member
    have below := (Number.toInt64 former).toInt_lt
    exact ⟨(Number.toInt64 former).toInt, ⟨(Number.toInt64 former).le_toInt, by omega⟩, rfl⟩

theorem NumericArray.Decoded.clip_eq_self_iff (decoded : array.Decoded) :
    array.clip = array ↔ ¬ (Value.array array).Exceeds := by
  obtain ⟨elementType, elements⟩ := array
  rcases decoded with isDouble | ⟨isInteger, _, integers⟩
  · cases isDouble
    exact iff_of_true rfl fun exceeds => ElementType.noConfusion exceeds.1
  · cases isInteger
    have kept : ∀ x ∈ elements, Number.cut x = x ↔ ¬ Float.ofNat (2 ^ 63) < x := by
      intro x member
      obtain ⟨integer, inWord, rfl⟩ := integers x member
      exact Number.cut_ofInt_eq_self_iff inWord.1 inWord.2
    rw [clip_of_isInteger rfl, NumericArray.mk.injEq, map_eq_self_iff]
    constructor
    · rintro ⟨_, cut⟩ ⟨_, x, member, above⟩
      exact (kept x member).mp (cut x member) above
    · intro within
      exact ⟨rfl, fun x member => (kept x member).mpr fun above => within ⟨rfl, x, member, above⟩⟩

end Arrays

theorem Value.clip_clip (value : Value) : value.clip.clip = value.clip := by
  cases value with
  | array numbers =>
      exact congrArg Value.array numbers.clip_clip
  | bin picked =>
      simp [clip]
  | _ =>
      rfl

theorem Value.Decoded.clip {value : Value} (decoded : value.Decoded) : value.clip.Decoded := by
  cases value with
  | array numbers =>
      exact NumericArray.Decoded.clip decoded
  | bin picked =>
      exact fun index kept => decoded index (Option.filter_eq_some_iff.mp kept).1
  | _ =>
      exact decoded

/-- Nothing is lost of a value exactly if none of its numbers is too large. -/
theorem Value.Decoded.clip_eq_self_iff {value : Value} (decoded : value.Decoded) :
    value.clip = value ↔ ¬ value.Exceeds := by
  cases value with
  | array numbers =>
      rw [Value.clip, Value.array.injEq]
      exact NumericArray.Decoded.clip_eq_self_iff decoded
  | bin picked =>
      obtain ⟨index, value, low, high, center⟩ := picked
      cases index with
      | none =>
          refine iff_of_true rfl ?_
          rintro ⟨_, absent, _⟩
          cases absent
      | some index =>
          simp [Value.clip, Value.Exceeds, Option.filter]
  | _ =>
      exact iff_of_true rfl id

namespace Wire

theorem exists_integers_of_all {items : List Json} (integers : items.all isInteger = true) :
    ∃ given : List Int, items = given.map .integer := by
  induction items with
  | nil =>
      exact ⟨[], rfl⟩
  | cons item rest inductionHypothesis =>
      rw [List.all_cons, Bool.and_eq_true] at integers
      obtain ⟨others, rfl⟩ := inductionHypothesis integers.2
      cases item with
      | integer value =>
          exact ⟨value :: others, rfl⟩
      | _ =>
          cases integers.1

theorem arrayOf_integers (kind : Kind) {integers : List Int} (nonempty : integers ≠ []) :
    arrayOf kind (.array (integers.map .integer)) =
      .ok ⟨.int64, integers.map Float.ofInt⟩ := by
  rw [arrayOf_map kind integers fun _ => rfl]
  simp [isInteger, nonempty]

theorem eq_array_of_orFault {kind : Kind} {fault : PayloadFault} {json : Json} {items : List Json}
    (isArray : orFault kind fault json.array? = .ok items) : json = .array items := by
  cases json with
  | array _ =>
      cases isArray
      rfl
  | _ =>
      cases isArray

/-- An array is one of integers if all its elements are written so, and one of doubles
otherwise. -/
theorem arrayOf_eq_ok_cases {kind : Kind} {json : Json} {array : NumericArray}
    (read : arrayOf kind json = .ok array) :
    (∃ integers : List Int, integers ≠ [] ∧ json = .array (integers.map .integer) ∧
        array = ⟨.int64, integers.map Float.ofInt⟩) ∨
      array.elementType = .float64 ∧
        ∀ integers : List Int, integers ≠ [] → json ≠ .array (integers.map .integer) := by
  by_cases shown : ∃ integers : List Int, integers ≠ [] ∧ json = .array (integers.map .integer)
  · obtain ⟨integers, nonempty, rfl⟩ := shown
    rw [arrayOf_integers kind nonempty] at read
    exact .inl ⟨integers, nonempty, rfl, (Except.ok.inj read).symm⟩
  · refine .inr ⟨?_, fun integers nonempty same => shown ⟨integers, nonempty, same⟩⟩
    revert array
    change Yields _ _
    simp only [arrayOf, yields_bind, yields_pure]
    intro items isArray elements _
    split
    · rename_i written
      rw [Bool.and_eq_true, Bool.not_eq_true', List.isEmpty_eq_false_iff] at written
      obtain ⟨integers, rfl⟩ := exists_integers_of_all written.2
      refine absurd ⟨integers, fun none => written.1 (List.map_eq_nil_iff.mpr none), ?_⟩ shown
      exact eq_array_of_orFault isArray
    · rfl

theorem decoded_arrayOf (kind : Kind) {json : Json} (bounded : json.Bounded) :
    Yields NumericArray.Decoded (arrayOf kind json) := by
  intro array read
  rcases arrayOf_eq_ok_cases read with ⟨integers, nonempty, rfl, rfl⟩ | ⟨isDouble, _⟩
  · refine .inr ⟨rfl, fun none => nonempty (List.map_eq_nil_iff.mp none), fun x member => ?_⟩
    obtain ⟨integer, isGiven, rfl⟩ := List.mem_map.mp member
    rw [Json.bounded_array_iff] at bounded
    exact ⟨integer, bounded _ (List.mem_map_of_mem isGiven), rfl⟩
  · exact .inl isDouble

theorem Bounded.requiredAttribute {wire found : Wire} {name : String} (bounded : wire.Bounded)
    (here : wire.requiredAttribute name = .ok found) : found.value.Bounded := by
  rw [Wire.requiredAttribute] at here
  split at here
  · rename_i given isGiven
    cases here
    have member := Entries.mem_of_get?_eq_some isGiven
    have inner := ((bounded_iff wire).mp bounded).2 _ member
    exact ((bounded_iff found).mp inner).1
  · cases here

theorem decoded_lineoutValue (wire : Wire) : Yields Value.Decoded wire.lineoutValue := by
  simp only [lineoutValue, yields_bind, yields_pure]
  intro _ _ _ _ columns read _ _
  have names : ∀ column ∈ columns, column.1 ≠ "empty_value" ∧ column.1 ≠ "samples" := by
    refine yields_mapM (fun entry member => ?_) columns read
    have kept := (List.mem_filter.mp member).2
    simp only [yields_bind, yields_pure]
    intro _ _
    simpa using kept
  have absent (key : String) (unnamed : ∀ column ∈ columns, column.1 ≠ key) :
      key ∉ (Table.ofList columns).keys := by
    intro known
    obtain ⟨column, found⟩ := Table.mem_keys_iff_exists.mp known
    exact unnamed _ (Table.mem_of_get?_ofList found) rfl
  exact ⟨absent _ fun column member => (names column member).1,
    absent _ fun column member => (names column member).2⟩

theorem decoded_binningValue {wire : Wire} (bounded : wire.Bounded) :
    Yields Value.Decoded wire.binningValue := by
  simp only [binningValue, yields_bind, yields_pure]
  intro _ _ _ _ _ _ _ _ literals found specs read axes resolved _ _ _ _
  refine yields_mapM (fun spec member => yields_mapError.mpr ?_) axes resolved
  have storable := storable_axesOf _ (bounded.requiredAttribute found) specs read spec member
  exact fun axis isAxis =>
    ⟨Axis.wellFormed_resolve storable.toWellFormed (by decide) none axis isAxis,
      AxisSpec.finite_resolve storable.finite 0 axis isAxis⟩

/-- Whatever a bounded stored value means is decoded. -/
theorem decoded_toValue {wire : Wire} (bounded : wire.Bounded) :
    Yields Value.Decoded wire.toValue := by
  obtain ⟨payload, attributes⟩ := (bounded_iff wire).mp bounded
  obtain ⟨kind, value, attributes, name⟩ := wire
  cases kind with
  | array =>
      exact yields_map.mpr (decoded_arrayOf .array payload)
  | binning =>
      exact decoded_binningValue bounded
  | axisList =>
      exact yields_map.mpr (storable_axesOf .axisList payload)
  | lineout =>
      exact decoded_lineoutValue _
  | bin =>
      simp only [toValue, binValue, yields_bind, yields_pure]
      intro _ _ _ _ _ _ _ _ index found
      obtain ⟨given, _, natural⟩ := Option.bind_eq_some_iff.mp found
      exact lt_of_natural? natural
  | field =>
      simp only [toValue, fieldValue, yields_bind]
      intro field _
      split <;> simp [Value.Decoded, Value.Storable]
  | histogram =>
      simp [toValue, histogramValue, Value.Decoded, Value.Storable]
  | valuePosition =>
      simp [toValue, positionValue, Value.Decoded, Value.Storable]
  | _ =>
      simp [toValue, Value.Decoded, Value.Storable]

/-- Among the integers of a stored array is one that is rounded to a double above the
signed words, or a stored bin has an index above them. -/
def Exceeds (wire : Wire) : Prop :=
  match wire.kind with
  | .array => ∃ integers : List Int, wire.value = .array (integers.map .integer) ∧
    ∃ integer ∈ integers, 2 ^ 63 + 1024 < integer
  | .bin => ∃ index, ((wire.attribute? "index").bind fun found => found.value.natural?) =
    some index ∧ 2 ^ 63 ≤ index
  | _ => False

theorem exceeds_iff_of_arrayOf {kind : Kind} {json : Json} {array : NumericArray}
    (bounded : json.Bounded) (read : arrayOf kind json = .ok array) :
    (Value.array array).Exceeds ↔
      ∃ integers : List Int, json = .array (integers.map .integer) ∧
        ∃ integer ∈ integers, 2 ^ 63 + 1024 < integer := by
  rcases arrayOf_eq_ok_cases read with ⟨integers, nonempty, rfl, rfl⟩ | ⟨isDouble, others⟩
  · rw [Json.bounded_array_iff] at bounded
    have above_iff : ∀ integer ∈ integers,
        Float.ofNat (2 ^ 63) < Float.ofInt integer ↔ 2 ^ 63 + 1024 < integer := by
      intro integer member
      obtain ⟨least, limit⟩ := bounded _ (List.mem_map_of_mem member)
      exact Number.limit_lt_ofInt_iff least limit
    constructor
    · rintro ⟨_, x, member, above⟩
      obtain ⟨integer, isGiven, rfl⟩ := List.mem_map.mp member
      exact ⟨integers, rfl, integer, isGiven, (above_iff integer isGiven).mp above⟩
    · rintro ⟨given, same, integer, isGiven, beyond⟩
      have alike : integers = given :=
        List.map_injective_iff.mpr (fun _ _ => Json.integer.inj) (Json.array.inj same)
      subst alike
      exact ⟨rfl, _, List.mem_map_of_mem isGiven, (above_iff integer isGiven).mpr beyond⟩
  · constructor
    · rintro ⟨isInteger, _⟩
      rw [isDouble] at isInteger
      cases isInteger
    · rintro ⟨integers, same, integer, isGiven, _⟩
      exact absurd same (others integers (List.ne_nil_of_mem isGiven))

/-- Whether a value exceeds the signed words shows in its stored form. -/
theorem exceeds_iff_toValue {wire : Wire} (bounded : wire.Bounded) :
    Yields (fun value : Value => value.Exceeds ↔ wire.Exceeds) wire.toValue := by
  have payload := ((bounded_iff wire).mp bounded).1
  have others (neither : Yields (fun value : Value => ¬ value.Exceeds) wire.toValue)
      (unnamed : ¬ wire.Exceeds) :
      Yields (fun value : Value => value.Exceeds ↔ wire.Exceeds) wire.toValue :=
    neither.imp fun _ notExceeds => iff_of_false notExceeds unnamed
  obtain ⟨kind, json, attributes, name⟩ := wire
  cases kind with
  | array =>
      exact yields_map.mpr fun array read => exceeds_iff_of_arrayOf payload read
  | bin =>
      simp only [toValue, binValue, yields_bind, yields_pure]
      exact fun _ _ _ _ _ _ _ _ => Iff.rfl
  | field =>
      refine others ?_ id
      simp only [toValue, fieldValue, yields_bind]
      intro field _
      split <;> simp [Value.Exceeds]
  | histogram =>
      exact others (by simp [toValue, histogramValue, Value.Exceeds]) id
  | binning =>
      exact others (by simp [toValue, binningValue, Value.Exceeds]) id
  | valuePosition =>
      exact others (by simp [toValue, positionValue, Value.Exceeds]) id
  | lineout =>
      exact others (by simp [toValue, lineoutValue, Value.Exceeds]) id
  | _ =>
      exact others (by simp [toValue, Value.Exceeds]) id

/-! ## Storing again -/

theorem arrayOf_arrayJson_of_decoded (kind : Kind) {array : NumericArray}
    (decoded : array.Decoded) : arrayOf kind (arrayJson array) = .ok array.clip := by
  obtain ⟨elementType, elements⟩ := array
  rcases decoded with isDouble | ⟨isInteger, nonempty, _⟩
  · cases isDouble
    rw [arrayJson_of_not_isInteger rfl]
    exact arrayOf_numberJson kind elements
  · cases isInteger
    rw [arrayOf_arrayJson_of_isInteger kind rfl, NumericArray.clip_of_isInteger rfl]
    have shown : elements.isEmpty = false := List.isEmpty_eq_false_iff.mpr nonempty
    simp only [shown, Bool.false_eq_true, if_false]
    rfl

theorem toInt_ofNat_lt_zero {index : Nat} (above : 2 ^ 63 ≤ index) (inWord : index < 2 ^ 64) :
    (Int64.ofNat index).toInt < 0 := by
  have value : (Int64.ofNat index).toInt = (index : Int).bmod (2 ^ 64) := Int64.toInt_ofNat
  rw [value, Int.bmod_def]
  omega

theorem toValue_bin_clip {value : Bin Float} (inWord : ∀ index ∈ value.index, index < 2 ^ 64) :
    (ofValue (.bin value)).toValue = .ok (Value.bin value).clip := by
  have index : (((ofValue (.bin value)).attribute? "index").bind fun found =>
      found.value.natural?) = value.index.filter (· < 2 ^ 63) := by
    obtain ⟨index, number, low, high, center⟩ := value
    cases index with
    | none =>
        rfl
    | some index =>
        change Number.natural? (Int64.ofNat index).toInt = _
        by_cases small : index < 2 ^ 63
        · rw [natural?_toInt_ofNat small]
          exact (if_pos (decide_eq_true small)).symm
        · have negative := toInt_ofNat_lt_zero (Nat.not_lt.mp small) (inWord index rfl)
          rw [Number.natural?, if_neg (by omega)]
          exact (if_neg (by simpa using small)).symm
  rw [toValue_bin_eq, index]
  rfl

/-- What has been read is stored without the numbers that signed words cannot hold. -/
theorem toValue_ofValue_of_decoded {value : Value} (decoded : value.Decoded) :
    (ofValue value).toValue = .ok value.clip := by
  cases value with
  | array numbers =>
      change (arrayOf .array (arrayJson numbers)).map Value.array = _
      rw [arrayOf_arrayJson_of_decoded .array decoded]
      rfl
  | bin picked =>
      exact toValue_bin_clip decoded
  | _ =>
      exact toValue_ofValue decoded

end Wire

end InSitu
