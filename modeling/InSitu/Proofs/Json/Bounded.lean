import InSitu.Json.Record
import InSitu.Proofs.Json.Reading
import InSitu.Proofs.Number.Digits
import InSitu.Proofs.Table

/-!
# The numbers of documents that are read

Whatever the text, the document that is read from it has no integers beyond a
machine word and no doubles but finite ones: what is larger has no value.  Every
token keeps this of the parts that are open, and sorting the fields of objects
keeps it of the whole.
-/

namespace InSitu.Json

mutual

/-- Integers of machine words and finite doubles. -/
def Bounded : Json → Prop
  | .integer value => InWord value
  | .double x => x.isFinite = true
  | .array items => ItemsBounded items
  | .object fields => FieldsBounded fields
  | _ => True

def ItemsBounded : List Json → Prop
  | [] => True
  | item :: rest => Bounded item ∧ ItemsBounded rest

def FieldsBounded : List (String × Json) → Prop
  | [] => True
  | (_, value) :: rest => Bounded value ∧ FieldsBounded rest

end

@[simp]
theorem bounded_array_iff (items : List Json) :
    (array items).Bounded ↔ ∀ item ∈ items, item.Bounded := by
  rw [Bounded]
  induction items with
  | nil =>
      simp [ItemsBounded]
  | cons item rest inductionHypothesis =>
      simp [ItemsBounded, inductionHypothesis]

@[simp]
theorem bounded_object_iff (fields : List (String × Json)) :
    (object fields).Bounded ↔ ∀ field ∈ fields, field.2.Bounded := by
  rw [Bounded]
  induction fields with
  | nil =>
      simp [FieldsBounded]
  | cons field rest inductionHypothesis =>
      simp [FieldsBounded, inductionHypothesis]

theorem bounded_scientific (negative : Bool) (digits : Nat) (exponent : Int) :
    (scientific negative digits exponent).Bounded := by
  have signed {x : Float} (finite : x.isFinite = true) :
      (if negative then -x else x).isFinite = true := by
    split
    · rwa [Number.isFinite_neg]
    · exact finite
  rw [scientific]
  dsimp only
  split
  · exact signed (by decide +kernel)
  · split
    · trivial
    · split
      · trivial
      · rename_i bounded
        exact signed (Number.isFinite_of_isNaN_of_isInf (Number.isNaN_ofScientific _ _ _)
          (Bool.eq_false_iff.mpr bounded))

theorem inWord_of_int64? {value : Int} (held : (Number.int64? value).isSome = true) :
    InWord value := by
  have low : Int64.minValue.toInt = -2 ^ 63 := rfl
  have high : Int64.maxValue.toInt = 2 ^ 63 - 1 := rfl
  rw [Number.int64?] at held
  split at held
  · exact ⟨by omega, by omega⟩
  · cases held

theorem inWord_of_natural? {value : Int} (held : (Number.natural? value).isSome = true) :
    InWord value := by
  have size : UInt64.size = 2 ^ 64 := rfl
  rw [Number.natural?] at held
  split at held
  · exact ⟨by omega, by omega⟩
  · cases held

theorem bounded_value (numeral : Numeral) : numeral.value.Bounded := by
  rw [Numeral.value]
  split
  · split
    · split
      · rename_i fits
        exact inWord_of_int64? fits.2
      · exact bounded_scientific _ _ _
    · split
      · rename_i fits
        exact inWord_of_natural? fits
      · exact bounded_scientific _ _ _
  · exact bounded_scientific _ _ _

def Frame.Bounded : Frame → Prop
  | .array items => ∀ item ∈ items, item.Bounded
  | .object fields _ => ∀ field ∈ fields, field.2.Bounded

/-- All parts that have been read so far are bounded. -/
def Progress.Bounded : Progress → Prop
  | .value frames | .firstItem frames | .firstKey frames => ∀ frame ∈ frames, frame.Bounded
  | .key fields frames | .colon fields _ frames =>
    (∀ field ∈ fields, field.2.Bounded) ∧ ∀ frame ∈ frames, frame.Bounded
  | .after json frames => json.Bounded ∧ ∀ frame ∈ frames, frame.Bounded

section Tokens

variable {frames : List Frame}

theorem bounded_closeContainer {container : Json}
    (framesBounded : ∀ frame ∈ frames, frame.Bounded) (bounded : container.Bounded) :
    (closeContainer frames container).Bounded := by
  rw [closeContainer]
  split
  · exact ⟨bounded, framesBounded⟩
  · exact ⟨trivial, framesBounded⟩

theorem bounded_objectOf {fields : List (Option String × Json)}
    (bounded : ∀ field ∈ fields, field.2.Bounded) : (objectOf fields).Bounded := by
  rw [objectOf]
  split
  · rename_i named read
    rw [bounded_object_iff]
    intro field member
    obtain ⟨given, isGiven, keyed⟩ := exists_of_mem_mapM read member
    obtain ⟨key, _, rfl⟩ := Option.map_eq_some_iff.mp keyed
    exact bounded given (List.mem_reverse.mp isGiven)
  · trivial

theorem bounded_beginValue (bounded : ∀ frame ∈ frames, frame.Bounded) {token : Token}
    {next : Progress} (begun : beginValue frames token = some next) : next.Bounded := by
  cases token with
  | openArray =>
      cases begun
      exact bounded
  | openObject =>
      cases begun
      exact bounded
  | text body =>
      obtain ⟨content, _, same⟩ := Option.bind_eq_some_iff.mp begun
      cases same
      refine ⟨?_, bounded⟩
      cases content <;> trivial
  | numeral characters =>
      obtain ⟨numeral, _, same⟩ := Option.bind_eq_some_iff.mp begun
      cases same
      exact ⟨bounded_value numeral, bounded⟩
  | word characters =>
      rw [beginValue] at begun
      split at begun
      · cases begun
        exact ⟨trivial, bounded⟩
      · split at begun
        · cases begun
          exact ⟨trivial, bounded⟩
        · split at begun
          · cases begun
            exact ⟨trivial, bounded⟩
          · cases begun
  | _ =>
      cases begun

/-- A token is put among bounded parts, or closes a container of them. -/
theorem bounded_takeToken {progress next : Progress} {token : Token} (bounded : progress.Bounded)
    (taken : takeToken progress token = some next) : next.Bounded := by
  cases progress with
  | value frames =>
      exact bounded_beginValue bounded taken
  | firstItem frames =>
      have opened : ∀ frame ∈ Frame.array [] :: frames, frame.Bounded :=
        List.forall_mem_cons.mpr ⟨by simp [Frame.Bounded], bounded⟩
      cases token with
      | closeArray =>
          cases taken
          exact bounded_closeContainer bounded (by simp)
      | _ =>
          rw [takeToken] at taken
          · exact bounded_beginValue opened taken
          · exact Token.noConfusion
  | firstKey frames =>
      cases token with
      | closeObject =>
          cases taken
          exact bounded_closeContainer bounded (by simp)
      | text body =>
          obtain ⟨name, _, rfl⟩ := Option.map_eq_some_iff.mp taken
          exact ⟨by simp, bounded⟩
      | _ =>
          cases taken
  | key fields frames =>
      cases token with
      | text body =>
          obtain ⟨name, _, rfl⟩ := Option.map_eq_some_iff.mp taken
          exact bounded
      | _ =>
          cases taken
  | colon fields name frames =>
      cases token with
      | colon =>
          cases taken
          exact List.forall_mem_cons.mpr bounded
      | _ =>
          cases taken
  | after value frames =>
      obtain ⟨valueBounded, framesBounded⟩ := bounded
      cases frames with
      | nil =>
          cases token <;> cases taken
      | cons frame rest =>
          obtain ⟨frameBounded, restBounded⟩ := List.forall_mem_cons.mp framesBounded
          cases frame with
          | array items =>
              have items : ∀ item ∈ value :: items, item.Bounded :=
                List.forall_mem_cons.mpr ⟨valueBounded, frameBounded⟩
              cases token with
              | comma =>
                  cases taken
                  exact List.forall_mem_cons.mpr ⟨items, restBounded⟩
              | closeArray =>
                  cases taken
                  refine bounded_closeContainer restBounded ((bounded_array_iff _).mpr ?_)
                  exact fun item member => items item (List.mem_reverse.mp member)
              | _ =>
                  cases taken
          | object fields name =>
              have fields : ∀ field ∈ (name, value) :: fields, field.2.Bounded :=
                List.forall_mem_cons.mpr ⟨valueBounded, frameBounded⟩
              cases token with
              | comma =>
                  cases taken
                  exact ⟨fields, restBounded⟩
              | closeObject =>
                  cases taken
                  exact bounded_closeContainer restBounded (bounded_objectOf fields)
              | _ =>
                  cases taken

theorem bounded_foldlM {tokens : List Token} {progress next : Progress}
    (bounded : progress.Bounded) (taken : tokens.foldlM takeToken progress = some next) :
    next.Bounded := by
  induction tokens generalizing progress with
  | nil =>
      cases taken
      exact bounded
  | cons token rest inductionHypothesis =>
      rw [List.foldlM_cons] at taken
      obtain ⟨middle, first, others⟩ := Option.bind_eq_some_iff.mp taken
      exact inductionHypothesis (bounded_takeToken bounded first) others

end Tokens

/-- Whatever is read is bounded. -/
theorem bounded_parse? {text : String} {json : Json} (parsed : parse? text = some json) :
    json.Bounded := by
  obtain ⟨tokens, _, read⟩ := Option.bind_eq_some_iff.mp parsed
  obtain ⟨progress, taken, closed⟩ := Option.bind_eq_some_iff.mp read
  have start : (Progress.value []).Bounded := fun frame member => by cases member
  have bounded := bounded_foldlM start taken
  cases progress with
  | after value frames =>
      cases frames with
      | nil =>
          cases closed
          exact bounded.1
      | cons frame rest =>
          cases closed
  | _ =>
      cases closed

theorem bounded_insertSorted {key : String} {value : Json} {fields : List (String × Json)}
    (bounded : value.Bounded) (fieldsBounded : ∀ field ∈ fields, field.2.Bounded) :
    ∀ field ∈ insertSorted key value fields, field.2.Bounded := by
  induction fields with
  | nil =>
      simpa [insertSorted] using bounded
  | cons field rest inductionHypothesis =>
      obtain ⟨first, others⟩ := List.forall_mem_cons.mp fieldsBounded
      rw [insertSorted]
      split
      · exact List.forall_mem_cons.mpr ⟨bounded, fieldsBounded⟩
      · split
        · exact List.forall_mem_cons.mpr ⟨bounded, others⟩
        · exact List.forall_mem_cons.mpr ⟨first, inductionHypothesis others⟩

theorem bounded_foldl_insertSorted {sorted fields : List (String × Json)}
    (sortedBounded : ∀ field ∈ sorted, field.2.Bounded)
    (fieldsBounded : ∀ field ∈ fields, field.2.Bounded) :
    ∀ field ∈ fields.foldl (fun sorted field => insertSorted field.1 field.2 sorted) sorted,
      field.2.Bounded := by
  induction fields generalizing sorted with
  | nil =>
      exact sortedBounded
  | cons field rest inductionHypothesis =>
      obtain ⟨first, others⟩ := List.forall_mem_cons.mp fieldsBounded
      exact inductionHypothesis (bounded_insertSorted first sortedBounded) others

mutual

theorem bounded_sorted : (json : Json) → json.Bounded → json.sorted.Bounded
  | .array items, bounded => by
      rw [sorted, bounded_array_iff]
      exact bounded_sortedItems items ((bounded_array_iff items).mp bounded)
  | .object fields, bounded => by
      rw [sorted, bounded_object_iff]
      exact bounded_foldl_insertSorted (fun field member => by cases member)
        (bounded_sortedFields fields ((bounded_object_iff fields).mp bounded))
  | .null, _ | .bool _, _ | .string _, _ | .unreadable, _ => trivial
  | .integer _, bounded | .double _, bounded => bounded

theorem bounded_sortedItems : (items : List Json) → (∀ item ∈ items, item.Bounded) →
    ∀ item ∈ sortedItems items, item.Bounded
  | [], _ => by
      simp [sortedItems]
  | item :: rest, bounded => by
      obtain ⟨first, others⟩ := List.forall_mem_cons.mp bounded
      rw [sortedItems, List.forall_mem_cons]
      exact ⟨bounded_sorted item first, bounded_sortedItems rest others⟩

theorem bounded_sortedFields : (fields : List (String × Json)) →
    (∀ field ∈ fields, field.2.Bounded) → ∀ field ∈ sortedFields fields, field.2.Bounded
  | [], _ => by
      simp [sortedFields]
  | (key, value) :: rest, bounded => by
      obtain ⟨first, others⟩ := List.forall_mem_cons.mp bounded
      rw [sortedFields, List.forall_mem_cons]
      exact ⟨bounded_sorted value first, bounded_sortedFields rest others⟩

end

theorem bounded_sorted? {json value : Json} (bounded : json.Bounded)
    (read : json.sorted? = some value) : value.Bounded := by
  rw [sorted?] at read
  split at read
  · cases read
    exact bounded_sorted json bounded
  · cases read

/-! ## Parts -/

theorem isFinite_of_number? {json : Json} {x : Float} (bounded : json.Bounded)
    (read : json.number? = some x) : x.isFinite = true := by
  cases json with
  | integer value =>
      cases read
      exact Number.isFinite_ofInt bounded.1 bounded.2
  | double y =>
      cases read
      exact bounded
  | _ =>
      cases read

theorem bounded_knownFields? {names : List String} {fields known : List (String × Json)}
    (bounded : ∀ field ∈ fields, field.2.Bounded) (read : knownFields? names fields = some known) :
    ∀ field ∈ known, field.2.Bounded := by
  induction fields generalizing known with
  | nil =>
      cases read
      simp
  | cons field rest inductionHypothesis =>
      obtain ⟨first, others⟩ := List.forall_mem_cons.mp bounded
      obtain ⟨restKnown, restRead, entered⟩ := Option.bind_eq_some_iff.mp read
      have restBounded := inductionHypothesis others restRead
      split at entered
      · split at entered
        · cases entered
        · cases entered
          exact List.forall_mem_cons.mpr ⟨first, restBounded⟩
      · cases entered
        exact restBounded

/-- A document that is viewed as a record shows bounded fields. -/
theorem bounded_record? {names : List String} {json : Json} {record : Record}
    (bounded : json.Bounded) (viewed : json.record? names = some record) :
    ∀ field ∈ record.fields, field.2.Bounded := by
  cases json with
  | object fields =>
      obtain ⟨known, read, rfl⟩ := Option.map_eq_some_iff.mp viewed
      exact bounded_knownFields? ((bounded_object_iff fields).mp bounded) read
  | array items =>
      rw [record?] at viewed
      split at viewed
      · cases viewed
        exact fun field member =>
          (bounded_array_iff items).mp bounded field.2 (List.of_mem_zip member).2
      · cases viewed
  | _ =>
      cases viewed

namespace Record

variable {α : Type} {record : Record} {name : String} {read : Json → Option α} {result : α}

theorem exists_of_required (found : record.required name read = some result) :
    ∃ json, (name, json) ∈ record.fields ∧ read json = some result := by
  obtain ⟨json, isField, reads⟩ := Option.bind_eq_some_iff.mp found
  exact ⟨json, Entries.mem_of_get?_eq_some isField, reads⟩

theorem exists_of_defaulted {default : α}
    (found : record.defaulted name default read = some result) :
    result = default ∨ ∃ json, (name, json) ∈ record.fields ∧ read json = some result := by
  rw [defaulted] at found
  split at found
  · rename_i json isField
    exact .inr ⟨json, Entries.mem_of_get?_eq_some isField, found⟩
  · exact .inl (Option.some.inj found).symm

end Record

theorem of_optional? {α : Type} {read : Json → Option α} {json : Json} {result : α}
    (found : optional? read json = some (some result)) : read json = some result := by
  rw [optional?.eq_def] at found
  split at found
  · cases found
  · obtain ⟨value, reads, same⟩ := Option.map_eq_some_iff.mp found
    cases same
    exact reads

theorem exists_of_listOf? {α : Type} {item : Json → Option α} {json : Json} {results : List α}
    (read : listOf? item json = some results) {result : α} (member : result ∈ results) :
    ∃ part, (json.Bounded → part.Bounded) ∧ item part = some result := by
  obtain ⟨items, isArray, mapped⟩ := Option.bind_eq_some_iff.mp read
  obtain ⟨part, isPart, reads⟩ := exists_of_mem_mapM mapped member
  cases json with
  | array parts =>
      cases isArray
      exact ⟨part, fun bounded => (bounded_array_iff _).mp bounded part isPart, reads⟩
  | _ =>
      cases isArray

end InSitu.Json
