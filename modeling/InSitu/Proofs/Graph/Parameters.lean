import InSitu.Graph.Description
import InSitu.Proofs.Operation.Integers
import InSitu.Proofs.Wire.Document

/-!
# Lists of numbers as parameters

An array can be given as a plain list of numbers or as the record of a stored array.  Both readings
take every number for the same double, but each has a rule of its own for the type of the elements.
A plain list holds integers if all its numbers fit signed words, so an empty one does; a record
holds integers if it has any numbers and all are written as integers, so also those that only
unsigned words hold.
-/

namespace InSitu

/-- The record of a stored array. -/
def arrayRecord (items : List Json) : Json :=
  .object [("type", .string "array"), ("value", .array items)]

/-- The type that a plain list is given. -/
def plainType (items : List Json) : ElementType :=
  if items.all fun item => item.int64?.isSome then .int64 else .float64

/-- The type that the record of an array is given. -/
def recordType (items : List Json) : ElementType :=
  if !items.isEmpty && items.all Wire.isInteger then .int64 else .float64

/-- The two rules differ: there is no number, or all are integers and one is too large for a signed
word. -/
def ReadApart (items : List Json) : Prop :=
  items = [] ∨ items.all Wire.isInteger = true ∧ ∃ item ∈ items, item.int64? = none

variable {item : Json} {items : List Json} {elements : List Float}

theorem Json.sorted?_of_number (isNumber : item.number?.isSome = true) :
    item.sorted? = some item := by
  cases item with
  | integer value =>
      rfl
  | double value =>
      rfl
  | _ =>
      cases isNumber

/-- A stored number may also be spelled out, but a number of a document stays what it is. -/
theorem Wire.number?_of_number (isNumber : item.number?.isSome = true) :
    Wire.number? item = item.number? := by
  cases item with
  | integer value =>
      rfl
  | double value =>
      rfl
  | _ =>
      cases isNumber

theorem Json.exists_integer_of_int64? {word : Int64} (held : item.int64? = some word) :
    item = .integer word.toInt := by
  cases item with
  | integer value =>
      rw [int64?_eq_some_iff.mp held]
  | _ =>
      cases held

/-- A list whose numbers all fit signed words holds the doubles of these words. -/
theorem mapM_number?_of_mapM_int64? {words : List Int64}
    (held : items.mapM Json.int64? = some words) :
    items.mapM Json.number? = some (words.map Number.ofInt64) := by
  induction items generalizing words with
  | nil =>
      cases held
      rfl
  | cons item rest inductionHypothesis =>
      rw [List.mapM_cons] at held
      obtain ⟨word, isWord, heldRest⟩ := Option.bind_eq_some_iff.mp held
      obtain ⟨others, areOthers, same⟩ := Option.bind_eq_some_iff.mp heldRest
      cases same
      rw [Json.exists_integer_of_int64? isWord, List.mapM_cons, inductionHypothesis areOthers]
      rfl

theorem isSome_mapM_int64? (items : List Json) :
    (items.mapM Json.int64?).isSome = items.all fun item => item.int64?.isSome := by
  induction items with
  | nil =>
      rfl
  | cons item rest inductionHypothesis =>
      rw [List.mapM_cons, List.all_cons, ← inductionHypothesis]
      cases item.int64? with
      | none =>
          rfl
      | some word =>
          cases rest.mapM Json.int64? <;> rfl

theorem parameterValue_array (numbers : items.mapM Json.number? = some elements) :
    parameterValue (.array items) = .ok (.array ⟨plainType items, elements⟩) := by
  have isAll := isSome_mapM_int64? items
  change numberList items = _
  rw [numberList, numbers, plainType, ← isAll]
  cases held : items.mapM Json.int64? with
  | none =>
      rfl
  | some words =>
      rw [mapM_number?_of_mapM_int64? held] at numbers
      cases numbers
      rfl

theorem isSome_number?_of_mem (numbers : items.mapM Json.number? = some elements)
    (member : item ∈ items) : item.number?.isSome = true := by
  refine Option.isSome_iff_ne_none.mpr fun unreadable => ?_
  rw [mapM_eq_none_of_mem member unreadable] at numbers
  cases numbers

theorem ofJson?_arrayRecord (numbers : items.mapM Json.number? = some elements) :
    Wire.ofJson? (arrayRecord items) = some (.plain .array (.array items)) := by
  have unchanged : (Json.array items).sorted? = some (.array items) :=
    Json.sorted?_array fun item member =>
      Json.sorted?_of_number (isSome_number?_of_mem numbers member)
  exact Wire.ofJson?_toJson (.plain .array (.array items)) (Wire.plain_of_sorted? unchanged)

theorem arrayOf_numbers (kind : Kind) (numbers : items.mapM Json.number? = some elements) :
    Wire.arrayOf kind (.array items) = .ok ⟨recordType items, elements⟩ := by
  have same : items.mapM Wire.number? = some elements := by
    rw [← numbers]
    exact mapM_congr fun item member =>
      Wire.number?_of_number (isSome_number?_of_mem numbers member)
  change (items.mapM fun item => Wire.orFault kind .notNumeric (Wire.number? item)).bind _ = _
  rw [Wire.mapM_orFault, same]
  rfl

theorem parameterValue_arrayRecord (numbers : items.mapM Json.number? = some elements) :
    parameterValue (arrayRecord items) = .ok (.array ⟨recordType items, elements⟩) := by
  have isRecord := ofJson?_arrayRecord numbers
  rw [arrayRecord] at isRecord ⊢
  rw [parameterValue, isRecord]
  change ((Wire.arrayOf .array (.array items)).map Value.array).mapError Fault.wire = _
  rw [arrayOf_numbers .array numbers]
  rfl

/-! ## The two rules -/

theorem isInteger_of_int64? (held : item.int64?.isSome = true) : Wire.isInteger item = true := by
  obtain ⟨word, isWord⟩ := Option.isSome_iff_exists.mp held
  rw [Json.exists_integer_of_int64? isWord]
  rfl

/-- Both rules give the same type unless they are read apart. -/
theorem plainType_eq_recordType_iff (items : List Json) :
    plainType items = recordType items ↔ ¬ ReadApart items := by
  rw [plainType, recordType, ReadApart]
  by_cases none : items = []
  · subst none
    simp
  · have filled : items.isEmpty = false := List.isEmpty_eq_false_iff.mpr none
    by_cases held : ∀ item ∈ items, item.int64?.isSome = true
    · have integers : items.all Wire.isInteger = true :=
        List.all_eq_true.mpr fun item member => isInteger_of_int64? (held item member)
      have fits : ¬ ∃ item ∈ items, item.int64? = Option.none := by
        rintro ⟨item, member, tooLarge⟩
        have isHeld := held item member
        rw [tooLarge] at isHeld
        cases isHeld
      rw [if_pos (List.all_eq_true.mpr held), integers, filled]
      simp [none, fits]
    · have tooLarge : ∃ item ∈ items, item.int64? = Option.none := by
        simpa using held
      rw [if_neg fun all => held (List.all_eq_true.mp all), filled]
      cases integers : items.all Wire.isInteger with
      | false =>
          simp [none]
      | true =>
          simp [tooLarge]

/-- Every list of numbers is read both as a plain list and as the record of an array, with the same
elements.  The two arrays are of one type, and so the same array, unless the list is empty or holds
integers only and one of them is too large for a signed word. -/
theorem array_parameters_agree_iff (numbers : ∀ item ∈ items, item.number?.isSome = true) :
    ∃ elements, items.mapM Json.number? = some elements ∧
      parameterValue (.array items) = .ok (.array ⟨plainType items, elements⟩) ∧
      parameterValue (arrayRecord items) = .ok (.array ⟨recordType items, elements⟩) ∧
      (parameterValue (.array items) = parameterValue (arrayRecord items) ↔
        ¬ ReadApart items) := by
  have read : items.mapM Json.number? = some (items.map fun item => item.number?.getD 0) := by
    refine mapM_eq_pure_map fun item member => ?_
    obtain ⟨element, isElement⟩ := Option.isSome_iff_exists.mp (numbers item member)
    rw [isElement]
    rfl
  have plain := parameterValue_array read
  have record := parameterValue_arrayRecord read
  refine ⟨_, read, plain, record, ?_⟩
  rw [plain, record, ← plainType_eq_recordType_iff]
  simp

/-- An integer that only unsigned words hold, next to a fraction. -/
def mixedNumbers : List Json := [.integer 3, .integer (2 ^ 63), .double 0.5]

theorem mixedNumbers_agree :
    (∀ item ∈ mixedNumbers, item.number?.isSome = true) ∧
      parameterValue (.array mixedNumbers) = parameterValue (arrayRecord mixedNumbers) := by
  have numbers : ∀ item ∈ mixedNumbers, item.number?.isSome = true := by
    simp [mixedNumbers, Json.number?]
  have together : ¬ ReadApart mixedNumbers := by
    simp [ReadApart, mixedNumbers, Wire.isInteger]
  obtain ⟨_, _, _, _, agree⟩ := array_parameters_agree_iff numbers
  exact ⟨numbers, agree.mpr together⟩

theorem empty_and_large_lists_differ :
    parameterValue (.array []) = .ok (.array ⟨.int64, []⟩) ∧
      parameterValue (arrayRecord []) = .ok (.array ⟨.float64, []⟩) ∧
      parameterValue (.array [.integer (2 ^ 63)]) =
        .ok (.array ⟨.float64, [Float.ofInt (2 ^ 63)]⟩) ∧
      parameterValue (arrayRecord [.integer (2 ^ 63)]) =
        .ok (.array ⟨.int64, [Float.ofInt (2 ^ 63)]⟩) ∧
      ¬ ∀ items : List Json, (∀ item ∈ items, item.number?.isSome = true) →
        parameterValue (.array items) = parameterValue (arrayRecord items) := by
  have none : ([] : List Json).mapM Json.number? = some [] := rfl
  have large : [Json.integer (2 ^ 63)].mapM Json.number? = some [Float.ofInt (2 ^ 63)] := rfl
  refine ⟨parameterValue_array none, parameterValue_arrayRecord none, parameterValue_array large,
    parameterValue_arrayRecord large, fun agree => ?_⟩
  have same := agree [] (fun _ member => absurd member List.not_mem_nil)
  rw [parameterValue_array none, parameterValue_arrayRecord none] at same
  cases same

end InSitu
