import InSitu.Proofs.Json.Scanning
import InSitu.Proofs.Sequence

/-!
# Reading a printed document

The grammar turns the tokens of a document back into the document.  That a text means what it says
and an integer of a machine word is read exactly is shown here; that a double is read back is asked
of every double in the document.
-/

namespace InSitu.Json

theorem digitsValue_toDigits (value : Nat) : digitsValue (Nat.toDigits 10 value) = value := by
  have folded : digitsValue (Nat.toDigits 10 value) =
      Nat.ofDigitChars 10 (Nat.toDigits 10 value) 0 := by
    rw [digitsValue, Nat.ofDigitChars_eq_foldl]
    simp only [Nat.mul_comm]
  rw [folded, Nat.ofDigitChars_ten_toDigits]

/-- Only zero itself begins with a zero. -/
theorem head?_toDigits (value : Nat) (nonzero : value ≠ 0) :
    (Nat.toDigits 10 value).head? ≠ some '0' := by
  induction value using Nat.strongRecOn with
  | ind value inductionHypothesis =>
      by_cases small : value < 10
      · rw [Nat.toDigits_of_lt_base small]
        intro isZero
        have digit : ∀ n < 10, n ≠ 0 → Nat.digitChar n ≠ '0' := by decide
        exact digit value small nonzero (Option.some.inj isZero)
      · rw [Nat.toDigits_of_base_le (by decide) (by omega)]
        have front := inductionHypothesis (value / 10) (by omega) (by omega)
        cases digits : Nat.toDigits 10 (value / 10) with
        | nil =>
            exact absurd digits Nat.toDigits_ne_nil
        | cons first rest =>
            rwa [digits] at front

theorem someDigits?_toDigits (value : Nat) :
    someDigits? (Nat.toDigits 10 value) = some (Nat.toDigits 10 value, []) := by
  have all : ∀ character ∈ Nat.toDigits 10 value, character.isDigit = true :=
    fun _ => isDigit_of_mem_toDigits
  have noHead : ∀ character ∈ ([] : List Char).head?, character.isDigit = false := by
    intro character isHead
    cases isHead
  obtain ⟨taken, dropped⟩ := takeWhile_append_of_all all noHead
  rw [List.append_nil] at taken dropped
  rw [someDigits?, taken, dropped]
  simp [Nat.toDigits_ne_nil]

theorem noLeadingZero (value : Nat) :
    ¬ ((Nat.toDigits 10 value).length ≠ 1 ∧ (Nat.toDigits 10 value).head? = some '0') := by
  rintro ⟨long, isZero⟩
  by_cases nonzero : value = 0
  · subst nonzero
    exact long rfl
  · exact head?_toDigits value nonzero isZero

theorem numeral?_toDigits (value : Nat) :
    numeral? (Nat.toDigits 10 value) = some ⟨false, Nat.toDigits 10 value, [], none⟩ := by
  have unsigned : ∀ rest, Nat.toDigits 10 value ≠ '-' :: rest := by
    intro rest isMinus
    have member : '-' ∈ Nat.toDigits 10 value := isMinus ▸ List.mem_cons_self
    cases isDigit_of_mem_toDigits member
  rw [numeral?]
  · simp only [someDigits?_toDigits, Option.bind_eq_bind, Option.bind_some,
      if_neg (noLeadingZero value)]
    rfl
  · exact unsigned

theorem numeral?_minus_toDigits (value : Nat) :
    numeral? ('-' :: Nat.toDigits 10 value) = some ⟨true, Nat.toDigits 10 value, [], none⟩ := by
  rw [numeral?]
  simp only [someDigits?_toDigits, Option.bind_eq_bind, Option.bind_some,
    if_neg (noLeadingZero value)]
  rfl

/-- An integer of a machine word, signed or not. -/
def InWord (value : Int) : Prop := -2 ^ 63 ≤ value ∧ value < 2 ^ 64

/-- An integer of a machine word is read back from its digits. -/
theorem exists_numeral_of_inWord {value : Int} (inWord : InWord value) :
    ∃ numeral, numeral? (toString value).toList = some numeral ∧
      numeral.value = .integer value := by
  obtain ⟨least, limit⟩ := inWord
  rw [toList_toString_int]
  by_cases negative : value < 0
  · rw [if_pos negative]
    refine ⟨_, numeral?_minus_toDigits value.natAbs, ?_⟩
    have magnitude : -(value.natAbs : Int) = value := by omega
    have fits : (Number.int64? (-(value.natAbs : Int))).isSome = true := by
      have low : Int64.minValue.toInt = -2 ^ 63 := rfl
      have high : Int64.maxValue.toInt = 2 ^ 63 - 1 := rfl
      rw [Number.int64?, if_pos (by omega)]
      rfl
    have positive : 0 < value.natAbs := by omega
    simp only [Numeral.value, List.append_nil, digitsValue_toDigits,
      if_pos (And.intro positive fits), if_true]
    rw [magnitude]
  · rw [if_neg negative]
    refine ⟨_, numeral?_toDigits value.natAbs, ?_⟩
    have magnitude : (value.natAbs : Int) = value := by omega
    have fits : (Number.natural? (value.natAbs : Int)).isSome = true := by
      have size : UInt64.size = 2 ^ 64 := rfl
      rw [Number.natural?, if_pos (by omega)]
      rfl
    simp only [Numeral.value, List.append_nil, digitsValue_toDigits, if_pos fits,
      Bool.false_eq_true, if_false]
    rw [magnitude]

/-- The text of a double means this double. -/
def ReadsBack (x : Float) : Prop := parse? (doubleText x) = some (.double x)

theorem scan_compact_all (json : Json) : Token.scan (compact json).toList = some (tokens json) := by
  have scanned := scan_compact json stops_nil
  rw [List.append_nil] at scanned
  rw [scanned, Token.scan]
  simp

theorem isFinite_of_readsBack {x : Float} (readsBack : ReadsBack x) : x.isFinite = true := by
  cases finite : x.isFinite with
  | true =>
      rfl
  | false =>
      have text : doubleText x = "null" := by
        rw [doubleText, finite]
        rfl
      have null : parse? "null" = some .null := by
        cbv
      rw [ReadsBack, text, null] at readsBack
      cases readsBack

theorem tokens_double {x : Float} (finite : x.isFinite = true) :
    tokens (.double x) = [.numeral (doubleText x).toList] := by
  rw [tokens, finite]
  rfl

/-- A double is read back if its text is the numeral of its value. -/
theorem readsBack_iff {x : Float} (finite : x.isFinite = true) :
    ReadsBack x ↔
      ∃ numeral, numeral? (doubleText x).toList = some numeral ∧ numeral.value = .double x := by
  have read : parse? (doubleText x) =
      (numeral? (doubleText x).toList).map fun numeral => numeral.value := by
    change parse? (compact (.double x)) = _
    rw [parse?, scan_compact_all, tokens_double finite]
    change (((numeral? (doubleText x).toList).bind fun numeral =>
      some (Progress.after numeral.value [])).bind some).bind _ = _
    cases numeral? (doubleText x).toList <;> rfl
  rw [ReadsBack, read, Option.map_eq_some_iff]

theorem readsBack_of_text {x : Float} (text : String) (numeral : Numeral)
    (finite : x.isFinite = true) (written : doubleText x = text)
    (read : numeral? text.toList = some numeral) (means : numeral.value = .double x) :
    ReadsBack x :=
  (readsBack_iff finite).mpr ⟨numeral, written ▸ read, means⟩

/-! ## Documents -/

mutual

def doubles : Json → List Float
  | .double x => [x]
  | .array items => itemDoubles items
  | .object fields => fieldDoubles fields
  | _ => []

def itemDoubles : List Json → List Float
  | [] => []
  | item :: rest => doubles item ++ itemDoubles rest

def fieldDoubles : List (String × Json) → List Float
  | [] => []
  | (_, value) :: rest => doubles value ++ fieldDoubles rest

end

mutual

/-- Nothing without a value, integers of machine words, and no more levels than given. -/
def Legible : Json → (levels : Nat) → Prop
  | .array items, levels => 0 < levels ∧ ItemsLegible items (levels - 1)
  | .object fields, levels => 0 < levels ∧ FieldsLegible fields (levels - 1)
  | .integer value, _ => InWord value
  | .unreadable, _ => False
  | _, _ => True

def ItemsLegible : List Json → (levels : Nat) → Prop
  | [], _ => True
  | item :: rest, levels => Legible item levels ∧ ItemsLegible rest levels

def FieldsLegible : List (String × Json) → (levels : Nat) → Prop
  | [], _ => True
  | (_, value) :: rest, levels => Legible value levels ∧ FieldsLegible rest levels

end

/-- A value starts with a token that does not close an array. -/
theorem tokens_eq_cons (json : Json) :
    ∃ token rest, tokens json = token :: rest ∧ token ≠ .closeArray := by
  cases json with
  | null =>
      exact ⟨_, _, rfl, by simp⟩
  | unreadable =>
      exact ⟨_, _, rfl, by simp⟩
  | bool value =>
      exact ⟨_, _, rfl, by simp⟩
  | integer value =>
      exact ⟨_, _, rfl, by simp⟩
  | string content =>
      exact ⟨_, _, rfl, by simp⟩
  | double x =>
      rw [tokens]
      split
      · exact ⟨_, _, rfl, by simp⟩
      · exact ⟨_, _, rfl, by simp⟩
  | array items =>
      cases items with
      | nil =>
          exact ⟨_, _, rfl, by simp⟩
      | cons item rest =>
          exact ⟨_, _, tokens_array item rest, by simp⟩
  | object fields =>
      cases fields with
      | nil =>
          exact ⟨_, _, rfl, by simp⟩
      | cons field rest =>
          exact ⟨_, _, tokens_object field.1 field.2 rest, by simp⟩

theorem foldlM_cons_of_takeToken {progress next : Progress} {token : Token}
    (taken : takeToken progress token = some next) (rest : List Token) :
    (token :: rest).foldlM takeToken progress = rest.foldlM takeToken next := by
  rw [List.foldlM_cons, taken]
  rfl

theorem foldlM_append_of_foldlM {progress next : Progress} {front : List Token}
    (taken : front.foldlM takeToken progress = some next) (rest : List Token) :
    (front ++ rest).foldlM takeToken progress = rest.foldlM takeToken next := by
  rw [List.foldlM_append, taken]
  rfl

/-- The first item of an array is read like any other value. -/
theorem foldlM_firstItem (json : Json) (frames : List Frame) (rest : List Token) :
    (tokens json ++ rest).foldlM takeToken (.firstItem frames) =
      (tokens json ++ rest).foldlM takeToken (.value (.array [] :: frames)) := by
  obtain ⟨token, others, front, opens⟩ := tokens_eq_cons json
  have same : takeToken (.firstItem frames) token =
      takeToken (.value (.array [] :: frames)) token := by
    cases token with
    | closeArray =>
        exact absurd rfl opens
    | _ =>
        rfl
  rw [front, List.cons_append, List.foldlM_cons, List.foldlM_cons, same]

/-- Fields as an open object holds them. -/
def openFields (fields : List (String × Json)) : List (Option String × Json) :=
  (fields.map fun field => (some field.1, field.2)).reverse

theorem objectOf_openFields (fields : List (String × Json)) :
    objectOf (openFields fields) = .object fields := by
  have named : (openFields fields).reverse.mapM
      (fun field => field.1.map fun key => (key, field.2)) = some fields := by
    rw [openFields, List.reverse_reverse, List.mapM_map]
    exact mapM_eq_pure fun field _ => rfl
  rw [objectOf, named]

theorem openFields_append (fields : List (String × Json)) (key : String) (value : Json) :
    openFields (fields ++ [(key, value)]) = (some key, value) :: openFields fields := by
  simp [openFields]

theorem closeContainer_of_lt {frames : List Frame} (within : frames.length < depthLimit)
    (container : Json) : closeContainer frames container = .after container frames := by
  rw [closeContainer, if_pos within]

theorem takeToken_text (key : String) (fields : List (Option String × Json))
    (frames : List Frame) :
    takeToken (.key fields frames) (.text (escaped key.toList)) =
      some (.colon fields (some key) frames) := by
  change (textValue? (escaped key.toList)).map _ = _
  rw [textValue?_escaped]
  rfl

/-- A key and its colon lead to the value. -/
theorem foldlM_key (key : String) (fields : List (Option String × Json)) (frames : List Frame)
    (rest : List Token) :
    (.text (escaped key.toList) :: .colon :: rest).foldlM takeToken (.key fields frames) =
      rest.foldlM takeToken (.value (.object fields (some key) :: frames)) := by
  rw [foldlM_cons_of_takeToken (takeToken_text key fields frames)]
  exact foldlM_cons_of_takeToken rfl rest

mutual

/-- The grammar takes the tokens of a document for the document. -/
theorem foldlM_tokens : (json : Json) → (frames : List Frame) → {levels : Nat} →
    json.Legible levels → (∀ x ∈ json.doubles, ReadsBack x) →
      frames.length + levels ≤ depthLimit →
        (tokens json).foldlM takeToken (.value frames) = some (.after json frames)
  | .null, _, _, _, _, _ => rfl
  | .bool value, _, _, _, _, _ => by
      cases value <;> rfl
  | .integer value, frames, _, legible, _, _ => by
      obtain ⟨numeral, read, means⟩ := exists_numeral_of_inWord legible
      have taken : takeToken (.value frames) (.numeral (toString value).toList) =
          some (.after (.integer value) frames) := by
        rw [takeToken, beginValue, read, ← means]
        rfl
      exact foldlM_cons_of_takeToken taken []
  | .double x, frames, _, _, readBack, _ => by
      have readsBack := readBack x List.mem_cons_self
      have finite := isFinite_of_readsBack readsBack
      obtain ⟨numeral, read, means⟩ := (readsBack_iff finite).mp readsBack
      have taken : takeToken (.value frames) (.numeral (doubleText x).toList) =
          some (.after (.double x) frames) := by
        rw [takeToken, beginValue, read, ← means]
        rfl
      rw [tokens_double finite]
      exact foldlM_cons_of_takeToken taken []
  | .string content, frames, _, _, _, _ => by
      have taken : takeToken (.value frames) (.text (escaped content.toList)) =
          some (.after (.string content) frames) := by
        rw [takeToken, beginValue, textValue?_escaped]
        rfl
      exact foldlM_cons_of_takeToken taken []
  | .array [], frames, levels, ⟨positive, _⟩, _, within => by
      change some (closeContainer frames (.array [])) = _
      rw [closeContainer_of_lt (by omega)]
  | .array (item :: items), frames, levels, ⟨positive, itemLegible, restLegible⟩, readBack,
      within => by
      have inner : (Frame.array [] :: frames).length + (levels - 1) ≤ depthLimit := by
        rw [List.length_cons]
        omega
      have opened : takeToken (.value frames) .openArray = some (.firstItem frames) := rfl
      have first := foldlM_tokens item _ itemLegible
        (fun x member => readBack x (List.mem_append_left _ member)) inner
      rw [tokens_array, foldlM_cons_of_takeToken opened,
        foldlM_firstItem, foldlM_append_of_foldlM first]
      exact foldlM_moreItemTokens items item [] frames restLegible
        (fun x member => readBack x (List.mem_append_right _ member)) inner
  | .object [], frames, levels, ⟨positive, _⟩, _, within => by
      change some (closeContainer frames (.object [])) = _
      rw [closeContainer_of_lt (by omega)]
  | .object ((key, value) :: fields), frames, levels, ⟨positive, valueLegible, restLegible⟩,
      readBack, within => by
      have inner : (Frame.object [] (some key) :: frames).length + (levels - 1) ≤ depthLimit := by
        rw [List.length_cons]
        omega
      have opened : takeToken (.value frames) .openObject = some (.firstKey frames) := rfl
      have first := foldlM_tokens value _ valueLegible
        (fun x member => readBack x (List.mem_append_left _ member)) inner
      have named : takeToken (.firstKey frames) (.text (escaped key.toList)) =
          some (.colon [] (some key) frames) := takeToken_text key [] frames
      rw [tokens_object, foldlM_cons_of_takeToken opened,
        foldlM_cons_of_takeToken named, foldlM_cons_of_takeToken rfl,
        foldlM_append_of_foldlM first]
      exact foldlM_moreFieldTokens fields key value [] frames restLegible
        (fun x member => readBack x (List.mem_append_right _ member)) inner

theorem foldlM_moreItemTokens : (items : List Json) → (item : Json) → (done : List Json) →
    (frames : List Frame) → {levels : Nat} → ItemsLegible items levels →
      (∀ x ∈ itemDoubles items, ReadsBack x) →
        (Frame.array done :: frames).length + levels ≤ depthLimit →
          (moreItemTokens items ++ [Token.closeArray]).foldlM takeToken
              (.after item (.array done :: frames)) =
            some (.after (.array (done.reverse ++ item :: items)) frames)
  | [], item, done, frames, levels, _, _, within => by
      rw [List.length_cons] at within
      change some (closeContainer frames (.array (item :: done).reverse)) = _
      rw [closeContainer_of_lt (by omega), List.reverse_cons]
  | next :: items, item, done, frames, levels, ⟨nextLegible, restLegible⟩, readBack, within => by
      have separated : takeToken (.after item (.array done :: frames)) .comma =
          some (.value (.array (item :: done) :: frames)) := rfl
      have first := foldlM_tokens next (.array (item :: done) :: frames) nextLegible
        (fun x member => readBack x (List.mem_append_left _ member)) within
      have rest := foldlM_moreItemTokens items next (item :: done) frames restLegible
        (fun x member => readBack x (List.mem_append_right _ member)) within
      rw [moreItemTokens, List.cons_append, List.append_assoc,
        foldlM_cons_of_takeToken separated,
        foldlM_append_of_foldlM first, rest, List.reverse_cons, List.append_assoc]
      rfl

theorem foldlM_moreFieldTokens : (fields : List (String × Json)) → (key : String) →
    (value : Json) → (done : List (String × Json)) → (frames : List Frame) → {levels : Nat} →
      FieldsLegible fields levels → (∀ x ∈ fieldDoubles fields, ReadsBack x) →
        (Frame.object (openFields done) (some key) :: frames).length + levels ≤ depthLimit →
          (moreFieldTokens fields ++ [Token.closeObject]).foldlM takeToken
              (.after value (.object (openFields done) (some key) :: frames)) =
            some (.after (.object (done ++ (key, value) :: fields)) frames)
  | [], key, value, done, frames, levels, _, _, within => by
      rw [List.length_cons] at within
      change some (closeContainer frames (objectOf ((some key, value) :: openFields done))) = _
      rw [closeContainer_of_lt (by omega), ← openFields_append, objectOf_openFields]
  | (next, nextValue) :: fields, key, value, done, frames, levels,
      ⟨nextLegible, restLegible⟩, readBack, within => by
      have separated :
          takeToken (.after value (.object (openFields done) (some key) :: frames)) .comma =
            some (.key ((some key, value) :: openFields done) frames) := rfl
      have first := foldlM_tokens nextValue
        (.object (openFields (done ++ [(key, value)])) (some next) :: frames)
        nextLegible (fun x member => readBack x (List.mem_append_left _ member)) within
      have rest := foldlM_moreFieldTokens fields next nextValue (done ++ [(key, value)]) frames
        restLegible
        (fun x member => readBack x (List.mem_append_right _ member)) within
      rw [openFields_append] at first rest
      rw [moreFieldTokens, List.cons_append, List.cons_append, List.cons_append,
        List.append_assoc,
        foldlM_cons_of_takeToken separated, foldlM_key, foldlM_append_of_foldlM first, rest,
        List.append_assoc]
      rfl

end

/-- A text with the tokens of a document is read as this document. -/
theorem parse?_of_scan {text : String} {json : Json} (legible : json.Legible depthLimit)
    (readBack : ∀ x ∈ json.doubles, ReadsBack x)
    (scanned : Token.scan text.toList = some (tokens json)) : parse? text = some json := by
  have taken := foldlM_tokens json [] legible readBack (Nat.le_of_eq (Nat.zero_add _))
  rw [parse?, scanned]
  simp only [Option.bind_eq_bind, Option.bind_some, taken]

/-- A printed document is read back if each of its doubles is. -/
theorem parse?_compact {json : Json} (legible : json.Legible depthLimit)
    (readBack : ∀ x ∈ json.doubles, ReadsBack x) : parse? (compact json) = some json :=
  parse?_of_scan legible readBack (scan_compact_all json)

end InSitu.Json
