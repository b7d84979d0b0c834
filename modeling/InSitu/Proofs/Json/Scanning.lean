import InSitu.Proofs.Json.Texts

/-!
# The tokens of a printed document

A printed document falls into the tokens that it was printed from.  A number or a word reaches as
far as its characters go on, so what follows has to stop it; inside a document this is a comma or a
bracket.
-/

namespace InSitu.Json

open Token

/-- What neither continues a number nor a word. -/
def Stops (rest : List Char) : Prop :=
  ∀ character ∈ rest.head?, isNumeral character = false ∧ character.isLower = false

theorem stops_nil : Stops [] := by
  intro character isHead
  cases isHead

theorem stops_cons {character : Char} (rest : List Char)
    (notNumeral : isNumeral character = false) (notLower : character.isLower = false) :
    Stops (character :: rest) := by
  intro other isHead
  cases isHead
  exact ⟨notNumeral, notLower⟩

theorem scan_punctuation {character : Char} {token : Token}
    (isToken : punctuation? character = some token) (notSpace : isSpace character = false)
    (rest : List Char) : scan (character :: rest) = (scan rest).map (token :: ·) := by
  rw [scan, notSpace, isToken]
  rfl

theorem scan_text {rest body after : List Char} (cut : cutText rest = some (body, after)) :
    scan ('"' :: rest) = (scan after).map (.text body :: ·) := by
  rw [scan]
  have notSpace : isSpace '"' = false := rfl
  have notPunctuation : punctuation? '"' = none := rfl
  rw [notSpace, notPunctuation]
  simp only [Bool.false_eq_true, if_false, if_true]
  split
  · rename_i found
    rw [cut] at found
    cases found
    rfl
  · rename_i found
    rw [cut] at found
    cases found

theorem takeWhile_append_of_all {keeps : Char → Bool} {kept rest : List Char}
    (all : ∀ character ∈ kept, keeps character = true)
    (stops : ∀ character ∈ rest.head?, keeps character = false) :
    (kept ++ rest).takeWhile keeps = kept ∧ (kept ++ rest).dropWhile keeps = rest := by
  have nothing : rest.takeWhile keeps = [] ∧ rest.dropWhile keeps = rest := by
    cases rest with
    | nil =>
        exact ⟨rfl, rfl⟩
    | cons character rest =>
        have stop := stops character rfl
        simp [List.takeWhile, List.dropWhile, stop]
  rw [List.takeWhile_append_of_pos all, List.dropWhile_append_of_pos all, nothing.1, nothing.2]
  simp

theorem punctuation?_eq_none {character : Char}
    (ordinary : ∀ other ∈ ['[', ']', '\x7b', '\x7d', ',', ':'], character ≠ other) :
    punctuation? character = none := by
  unfold punctuation?
  split <;> simp_all

/-- The beginning of a number: it begins no other token. -/
def BeginsNumeral (character : Char) : Prop := character.isDigit = true ∨ character = '-'

theorem BeginsNumeral.ordinary {character : Char} (begins : BeginsNumeral character)
    {other : Char} (otherDigit : other.isDigit = false) (otherMinus : other ≠ '-') :
    character ≠ other := by
  rintro rfl
  rcases begins with digit | minus
  · rw [otherDigit] at digit
    cases digit
  · exact otherMinus minus

theorem scan_numeral {first : Char} {others rest : List Char} (begins : BeginsNumeral first)
    (numeral : ∀ character ∈ others, isNumeral character = true) (stops : Stops rest) :
    scan (first :: (others ++ rest)) = (scan rest).map (.numeral (first :: others) :: ·) := by
  obtain ⟨taken, dropped⟩ :=
    takeWhile_append_of_all numeral fun character isHead => (stops character isHead).1
  have notSpace : isSpace first = false := by
    simp [isSpace, begins.ordinary]
  have notPunctuation : punctuation? first = none := by
    refine punctuation?_eq_none fun other member => ?_
    simp only [List.mem_cons, List.not_mem_nil, or_false] at member
    rcases member with rfl | rfl | rfl | rfl | rfl | rfl <;>
      exact begins.ordinary rfl (by decide)
  have notQuote : first ≠ '"' := begins.ordinary rfl (by decide)
  have isFirst : (first.isDigit || first = '-') = true := by
    rcases begins with digit | minus
    · simp [digit]
    · simp [minus]
  rw [scan, notSpace, notPunctuation]
  simp only [Bool.false_eq_true, if_false, if_neg notQuote, taken, dropped]
  exact if_pos isFirst

theorem scan_word (first : Char) (others : List Char) {rest : List Char}
    (begins : first.isLower = true) (notDigit : first.isDigit = false)
    (lower : others.all Char.isLower = true) (stops : Stops rest) :
    scan (first :: (others ++ rest)) = (scan rest).map (.word (first :: others) :: ·) := by
  obtain ⟨taken, dropped⟩ := takeWhile_append_of_all (List.all_eq_true.mp lower)
    fun character isHead => (stops character isHead).2
  have ordinary {other : Char} (otherUpper : other.isLower = false) : first ≠ other := by
    rintro rfl
    rw [otherUpper] at begins
    cases begins
  have notSpace : isSpace first = false := by
    simp [isSpace, ordinary]
  have notPunctuation : punctuation? first = none := by
    refine punctuation?_eq_none fun other member => ?_
    simp only [List.mem_cons, List.not_mem_nil, or_false] at member
    rcases member with rfl | rfl | rfl | rfl | rfl | rfl <;> exact ordinary rfl
  have notQuote : first ≠ '"' := ordinary rfl
  have notNumeral : ¬ (first.isDigit || first = '-') = true := by
    simp [notDigit, ordinary]
  rw [scan, notSpace, notPunctuation]
  simp only [Bool.false_eq_true, if_false, if_neg notQuote, taken, dropped]
  rw [if_neg notNumeral, if_pos begins]

/-- The characters of a number: its beginning and what continues it. -/
def IsNumeralText (characters : List Char) : Prop :=
  ∃ first others, characters = first :: others ∧ BeginsNumeral first ∧
    ∀ character ∈ others, isNumeral character = true

theorem scan_isNumeralText {characters rest : List Char} (text : IsNumeralText characters)
    (stops : Stops rest) :
    scan (characters ++ rest) = (scan rest).map (.numeral characters :: ·) := by
  obtain ⟨first, others, rfl, begins, numeral⟩ := text
  exact scan_numeral begins numeral stops

theorem isNumeral_of_isDigit {character : Char} (digit : character.isDigit = true) :
    isNumeral character = true := by
  simp [isNumeral, digit]

/-- Digits at the front, and behind them whatever continues a number. -/
theorem isNumeralText_of_digits (digits : List Char) {others : List Char}
    (nonempty : digits ≠ [])
    (allDigits : ∀ character ∈ digits, character.isDigit = true)
    (numeral : ∀ character ∈ others, isNumeral character = true) :
    IsNumeralText (digits ++ others) := by
  cases digits with
  | nil =>
      exact absurd rfl nonempty
  | cons first digits =>
      refine ⟨first, digits ++ others, rfl, .inl (allDigits first List.mem_cons_self), ?_⟩
      intro character member
      rcases List.mem_append.mp member with isDigit | isOther
      · exact isNumeral_of_isDigit (allDigits character (List.mem_cons_of_mem first isDigit))
      · exact numeral character isOther

theorem IsNumeralText.cons_minus {characters : List Char} (text : IsNumeralText characters) :
    IsNumeralText ('-' :: characters) := by
  obtain ⟨first, others, rfl, begins, numeral⟩ := text
  refine ⟨'-', first :: others, rfl, .inr rfl, ?_⟩
  intro character member
  rcases List.mem_cons.mp member with rfl | later
  · rcases begins with digit | rfl
    · exact isNumeral_of_isDigit digit
    · rfl
  · exact numeral character later

theorem isDigit_of_mem_toDigits {value : Nat} {character : Char}
    (member : character ∈ Nat.toDigits 10 value) : character.isDigit = true :=
  Nat.isDigit_of_mem_toDigits (by decide) (by decide) member

theorem toList_toString_int (value : Int) :
    (toString value).toList =
      if value < 0 then '-' :: Nat.toDigits 10 value.natAbs else Nat.toDigits 10 value.natAbs := by
  cases value with
  | ofNat magnitude =>
      have notNegative : ¬ Int.ofNat magnitude < 0 := by
        simp
      rw [if_neg notNegative]
      exact Nat.toList_repr
  | negSucc previous =>
      rw [if_pos (Int.negSucc_lt_zero previous)]
      change ("-" ++ Nat.repr (Nat.succ previous)).toList = _
      rw [String.toList_append, Nat.toList_repr]
      rfl

theorem isNumeralText_toString (value : Int) : IsNumeralText (toString value).toList := by
  have digits : IsNumeralText (Nat.toDigits 10 value.natAbs) := by
    rw [← List.append_nil (Nat.toDigits 10 value.natAbs)]
    refine isNumeralText_of_digits _ Nat.toDigits_ne_nil (fun _ => isDigit_of_mem_toDigits) ?_
    intro character member
    cases member
  rw [toList_toString_int]
  split
  · exact digits.cons_minus
  · exact digits

theorem isNumeral_of_mem_zeros {count : Nat} {character : Char}
    (member : character ∈ Number.zeros count) : isNumeral character = true := by
  rw [List.eq_of_mem_replicate member]
  rfl

theorem isNumeralText_writePositional {layout : Number.Layout} {digits : List Char}
    (nonempty : digits ≠ []) (allDigits : ∀ character ∈ digits, character.isDigit = true)
    (exponent : Int) : IsNumeralText (layout.writePositional digits exponent) := by
  rw [Number.Layout.writePositional]
  split
  · rw [List.append_assoc]
    refine isNumeralText_of_digits _ nonempty allDigits fun character member => ?_
    rcases List.mem_append.mp member with isZero | isPoint
    · exact isNumeral_of_mem_zeros isZero
    · split at isPoint
      · simp only [List.mem_cons, List.not_mem_nil, or_false] at isPoint
        rcases isPoint with rfl | rfl <;> rfl
      · cases isPoint
  · dsimp only
    split
    · rename_i short
      have front : digits.take (digits.length - (-exponent).toNat) ≠ [] := by
        intro isEmpty
        have length := congrArg List.length isEmpty
        rw [List.length_take, List.length_nil] at length
        omega
      refine isNumeralText_of_digits _ front
        (fun character member => allDigits character (List.mem_of_mem_take member))
        fun character member => ?_
      rcases List.mem_cons.mp member with rfl | later
      · rfl
      · exact isNumeral_of_isDigit (allDigits character (List.mem_of_mem_drop later))
    · refine isNumeralText_of_digits ['0'] (by simp) (by simp) fun character member => ?_
      rcases List.mem_cons.mp member with rfl | later
      · rfl
      · rcases List.mem_append.mp later with isZero | isDigit
        · exact isNumeral_of_mem_zeros isZero
        · exact isNumeral_of_isDigit (allDigits character isDigit)

theorem isNumeralText_writeScientific {layout : Number.Layout} {digits : List Char}
    (nonempty : digits ≠ []) (allDigits : ∀ character ∈ digits, character.isDigit = true)
    (place : Int) : IsNumeralText (layout.writeScientific digits place) := by
  have front : digits.take 1 ≠ [] := by
    cases digits with
    | nil =>
        exact absurd rfl nonempty
    | cons first rest =>
        simp
  rw [Number.Layout.writeScientific]
  simp only [List.append_assoc, List.cons_append]
  refine isNumeralText_of_digits _ front
    (fun character member => allDigits character (List.mem_of_mem_take member))
    fun character member => ?_
  rcases List.mem_append.mp member with inFraction | inExponent
  · split at inFraction
    · cases inFraction
    · rcases List.mem_cons.mp inFraction with rfl | later
      · rfl
      · exact isNumeral_of_isDigit (allDigits character (List.mem_of_mem_drop later))
  · rcases List.mem_cons.mp inExponent with rfl | later
    · rfl
    · rcases List.mem_append.mp later with isSign | isDigit
      · split at isSign
        · rw [List.mem_singleton.mp isSign]
          rfl
        · split at isSign
          · rw [List.mem_singleton.mp isSign]
            rfl
          · cases isSign
      · exact isNumeral_of_isDigit (isDigit_of_mem_toDigits isDigit)

/-- A finite double is written as one number. -/
theorem isNumeralText_write {x : Float} (finite : x.isFinite = true) :
    IsNumeralText (Number.Layout.document.write x).toList := by
  have signed (sign : Float.Model.UnpackedFloat.Sign) {characters : List Char}
      (text : IsNumeralText characters) : IsNumeralText (Number.signText sign ++ characters) := by
    cases sign with
    | negative =>
        exact text.cons_minus
    | positive =>
        exact text
  change x.toModel.unpack.isFinite = true at finite
  rw [Number.Layout.write]
  cases parts : x.toModel.unpack with
  | notANumber =>
      rw [parts] at finite
      cases finite
  | infinity sign =>
      rw [parts] at finite
      cases finite
  | zero sign =>
      rw [String.toList_ofList]
      exact signed sign (isNumeralText_writePositional (by simp) (by simp) 0)
  | finite sign mantissa exponent positive =>
      dsimp only
      rw [String.toList_ofList]
      refine signed sign ?_
      split
      · exact isNumeralText_writePositional Nat.toDigits_ne_nil
          (fun _ => isDigit_of_mem_toDigits) _
      · exact isNumeralText_writeScientific Nat.toDigits_ne_nil
          (fun _ => isDigit_of_mem_toDigits) _

/-! ## Documents -/

mutual

/-- The tokens that a document is printed as. -/
def tokens : Json → List Token
  | .array [] => [.openArray, .closeArray]
  | .array (item :: rest) => .openArray :: (tokens item ++ (moreItemTokens rest ++ [.closeArray]))
  | .object [] => [.openObject, .closeObject]
  | .object ((key, value) :: rest) =>
    .openObject :: .text (escaped key.toList) :: .colon ::
      (tokens value ++ (moreFieldTokens rest ++ [.closeObject]))
  | .string content => [.text (escaped content.toList)]
  | .integer value => [.numeral (toString value).toList]
  | .double x => if x.isFinite then [.numeral (doubleText x).toList] else [.word "null".toList]
  | .bool value => [.word (if value then "true" else "false").toList]
  | _ => [.word "null".toList]

/-- The tokens of further items, each behind a comma. -/
def moreItemTokens : List Json → List Token
  | [] => []
  | item :: rest => .comma :: (tokens item ++ moreItemTokens rest)

/-- The tokens of further fields, each behind a comma. -/
def moreFieldTokens : List (String × Json) → List Token
  | [] => []
  | (key, value) :: rest =>
    .comma :: .text (escaped key.toList) :: .colon :: (tokens value ++ moreFieldTokens rest)

end

theorem tokens_array (item : Json) (rest : List Json) :
    tokens (.array (item :: rest)) =
      .openArray :: (tokens item ++ (moreItemTokens rest ++ [.closeArray])) := by
  rw [tokens]

theorem tokens_object (key : String) (value : Json) (rest : List (String × Json)) :
    tokens (.object ((key, value) :: rest)) =
      .openObject :: .text (escaped key.toList) :: .colon ::
        (tokens value ++ (moreFieldTokens rest ++ [.closeObject])) := by
  rw [tokens]

/-- Texts that each follow a comma and a gap. -/
def behindCommas (gap : String) (texts : List String) : List Char :=
  texts.flatMap fun text => ',' :: (gap.toList ++ text.toList)

theorem toList_intercalate_cons (gap text : String) (texts : List String) :
    (String.intercalate ("," ++ gap) (text :: texts)).toList =
      text.toList ++ behindCommas gap texts := by
  induction texts generalizing text with
  | nil =>
      rw [String.intercalate_singleton]
      exact (List.append_nil _).symm
  | cons next texts inductionHypothesis =>
      rw [String.intercalate_cons_cons, String.toList_append, String.toList_append,
        String.toList_append, inductionHypothesis]
      simp only [List.append_assoc, behindCommas, List.flatMap_cons, List.cons_append]
      rfl

theorem stops_comma (rest : List Char) : Stops (',' :: rest) := stops_cons rest rfl rfl

theorem stops_behindCommas (gap : String) (texts : List String) {rest : List Char}
    (stops : Stops rest) : Stops (behindCommas gap texts ++ rest) := by
  cases texts with
  | nil =>
      exact stops
  | cons text texts =>
      exact stops_comma _

theorem scan_textInQuotes (text : String) (rest : List Char) :
    scan ((textInQuotes text).toList ++ rest) =
      (scan rest).map (.text (escaped text.toList) :: ·) := by
  rw [toList_textInQuotes, List.cons_append, List.append_assoc]
  exact scan_text (cutText_escaped text.toList rest)

theorem scan_field (key text : String) (rest : List Char) :
    scan ((textInQuotes key ++ ":" ++ text).toList ++ rest) =
      (scan (text.toList ++ rest)).map (.text (escaped key.toList) :: .colon :: ·) := by
  have characters : (textInQuotes key ++ ":" ++ text).toList ++ rest =
      (textInQuotes key).toList ++ (':' :: (text.toList ++ rest)) := by
    simp [String.toList_append]
  rw [characters, scan_textInQuotes, scan_punctuation rfl rfl]
  cases scan (text.toList ++ rest) <;> rfl

theorem scan_null {rest : List Char} (stops : Stops rest) :
    scan ("null".toList ++ rest) = (scan rest).map (.word "null".toList :: ·) :=
  scan_word 'n' ['u', 'l', 'l'] rfl rfl rfl stops

theorem scan_bool (value : Bool) {rest : List Char} (stops : Stops rest) :
    scan ((if value then "true" else "false").toList ++ rest) =
      (scan rest).map (.word (if value then "true" else "false").toList :: ·) := by
  cases value with
  | false =>
      exact scan_word 'f' ['a', 'l', 's', 'e'] rfl rfl rfl stops
  | true =>
      exact scan_word 't' ['r', 'u', 'e'] rfl rfl rfl stops

theorem scan_double (x : Float) {rest : List Char} (stops : Stops rest) :
    scan ((doubleText x).toList ++ rest) = (scan rest).map (tokens (.double x) ++ ·) := by
  cases finite : x.isFinite with
  | false =>
      have text : doubleText x = "null" := by
        rw [doubleText, finite]
        rfl
      rw [tokens.eq_def]
      simp only [finite, text]
      exact scan_null stops
  | true =>
      have text : doubleText x = Number.Layout.document.write x := by
        rw [doubleText, finite]
        rfl
      rw [tokens.eq_def]
      simp only [finite, text]
      exact scan_isNumeralText (isNumeralText_write finite) stops

theorem toList_compact_array (item : Json) (items : List Json) (rest : List Char) :
    (compact (.array (item :: items))).toList ++ rest =
      '[' :: ((compact item).toList ++
        (behindCommas "" (compactItems items) ++ (']' :: rest))) := by
  have text : compact (.array (item :: items)) =
      "[" ++ String.intercalate ("," ++ "") (compact item :: compactItems items) ++ "]" := rfl
  rw [text, String.toList_append, String.toList_append, toList_intercalate_cons]
  simp

theorem toList_compact_object (key : String) (value : Json) (fields : List (String × Json))
    (rest : List Char) :
    (compact (.object ((key, value) :: fields))).toList ++ rest =
      '\x7b' :: ((textInQuotes key ++ ":" ++ compact value).toList ++
        (behindCommas "" (compactFields fields) ++ ('\x7d' :: rest))) := by
  have text : compact (.object ((key, value) :: fields)) =
      "\x7b" ++ String.intercalate ("," ++ "")
        ((textInQuotes key ++ ":" ++ compact value) :: compactFields fields) ++ "\x7d" := rfl
  rw [text, String.toList_append, String.toList_append, toList_intercalate_cons]
  simp

mutual

/-- Scanning a printed document finds the tokens it was printed from. -/
theorem scan_compact : (json : Json) → {rest : List Char} → Stops rest →
    scan ((compact json).toList ++ rest) = (scan rest).map (tokens json ++ ·)
  | .null, _, stops => by
      rw [compact.eq_def, tokens.eq_def]
      exact scan_null stops
  | .unreadable, _, stops => by
      rw [compact.eq_def, tokens.eq_def]
      exact scan_null stops
  | .bool value, _, stops => by
      rw [compact.eq_def, tokens.eq_def]
      exact scan_bool value stops
  | .integer value, _, stops => by
      rw [compact.eq_def, tokens.eq_def]
      exact scan_isNumeralText (isNumeralText_toString value) stops
  | .double x, _, stops => by
      rw [compact.eq_def]
      exact scan_double x stops
  | .string content, rest, stops => by
      rw [compact.eq_def, tokens.eq_def]
      exact scan_textInQuotes content rest
  | .array [], rest, _ => by
      have text : (compact (.array [])).toList ++ rest = '[' :: ']' :: rest := rfl
      rw [text, scan_punctuation rfl rfl, scan_punctuation rfl rfl, tokens.eq_def]
      cases scan rest <;> rfl
  | .array (item :: items), rest, _ => by
      have closes : Stops (']' :: rest) := stops_cons rest rfl rfl
      rw [toList_compact_array, scan_punctuation rfl rfl,
        scan_compact item (stops_behindCommas _ _ closes), scan_moreItems items closes,
        scan_punctuation rfl rfl, tokens_array]
      cases scan rest with
      | none =>
          rfl
      | some found =>
          simp
  | .object [], rest, _ => by
      have text : (compact (.object [])).toList ++ rest = '\x7b' :: '\x7d' :: rest := rfl
      rw [text, scan_punctuation rfl rfl, scan_punctuation rfl rfl, tokens.eq_def]
      cases scan rest <;> rfl
  | .object ((key, value) :: fields), rest, _ => by
      have closes : Stops ('\x7d' :: rest) := stops_cons rest rfl rfl
      rw [toList_compact_object, scan_punctuation rfl rfl, scan_field,
        scan_compact value (stops_behindCommas _ _ closes), scan_moreFields fields closes,
        scan_punctuation rfl rfl, tokens_object]
      cases scan rest with
      | none =>
          rfl
      | some found =>
          simp

theorem scan_moreItems : (items : List Json) → {rest : List Char} → Stops rest →
    scan (behindCommas "" (compactItems items) ++ rest) =
      (scan rest).map (moreItemTokens items ++ ·)
  | [], rest, _ => by
      change scan rest = _
      rw [moreItemTokens]
      cases scan rest <;> rfl
  | item :: items, rest, stops => by
      have text : behindCommas "" (compactItems (item :: items)) ++ rest =
          ',' :: ((compact item).toList ++ (behindCommas "" (compactItems items) ++ rest)) := by
        simp [behindCommas, compactItems]
      rw [text, scan_punctuation rfl rfl, scan_compact item (stops_behindCommas _ _ stops),
        scan_moreItems items stops, moreItemTokens]
      cases scan rest with
      | none =>
          rfl
      | some found =>
          simp

theorem scan_moreFields : (fields : List (String × Json)) → {rest : List Char} → Stops rest →
    scan (behindCommas "" (compactFields fields) ++ rest) =
      (scan rest).map (moreFieldTokens fields ++ ·)
  | [], rest, _ => by
      change scan rest = _
      rw [moreFieldTokens]
      cases scan rest <;> rfl
  | (key, value) :: fields, rest, stops => by
      have text : behindCommas "" (compactFields ((key, value) :: fields)) ++ rest =
          ',' :: ((textInQuotes key ++ ":" ++ compact value).toList ++
            (behindCommas "" (compactFields fields) ++ rest)) := by
        simp [behindCommas, compactFields]
      rw [text, scan_punctuation rfl rfl, scan_field,
        scan_compact value (stops_behindCommas _ _ stops), scan_moreFields fields stops,
        moreFieldTokens]
      cases scan rest with
      | none =>
          rfl
      | some found =>
          simp

end

end InSitu.Json
