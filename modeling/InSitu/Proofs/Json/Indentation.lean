import InSitu.Proofs.Json.Reading

/-!
# Indented documents

An indented document differs from one on a single line by blanks between its
tokens.  A margin of blanks is passed over, so both fall into the same tokens
and are read back alike.
-/

namespace InSitu.Json

open Token

/-- A text of nothing but blanks. -/
def Blank (text : String) : Prop := text.toList.all isSpace = true

theorem Blank.append {first second : String} (firstBlank : Blank first)
    (secondBlank : Blank second) : Blank (first ++ second) := by
  rw [Blank, String.toList_append, List.all_append, firstBlank, secondBlank]
  rfl

theorem scan_spaces {spaces : List Char} (blank : spaces.all isSpace = true)
    (rest : List Char) : scan (spaces ++ rest) = scan rest := by
  induction spaces with
  | nil =>
      rfl
  | cons character others inductionHypothesis =>
      obtain ⟨passed, othersBlank⟩ := Bool.and_eq_true_iff.mp blank
      rw [List.cons_append, scan, if_pos passed]
      exact inductionHypothesis othersBlank

/-- Blanks are passed over. -/
theorem scan_blank {text : String} (blank : Blank text) (rest : List Char) :
    scan (text.toList ++ rest) = scan rest :=
  scan_spaces blank rest

theorem isNumeral_of_isSpace {character : Char} (space : isSpace character = true) :
    isNumeral character = false ∧ character.isLower = false := by
  simp only [isSpace, Bool.or_eq_true, decide_eq_true_eq] at space
  rcases space with ((rfl | rfl) | rfl) | rfl <;> exact ⟨rfl, rfl⟩

theorem stops_blank {text : String} (blank : Blank text) {rest : List Char}
    (stops : Stops rest) : Stops (text.toList ++ rest) := by
  rw [Blank] at blank
  cases characters : text.toList with
  | nil =>
      exact stops
  | cons character others =>
      rw [characters] at blank
      obtain ⟨space, _⟩ := Bool.and_eq_true_iff.mp blank
      obtain ⟨notNumeral, notLower⟩ := isNumeral_of_isSpace space
      exact stops_cons _ notNumeral notLower

/-- What stands in front of every part of a container. -/
def gapOf (margin : String) : String := "\n  " ++ margin

/-- What stands behind the last part of a container. -/
def lastGapOf (margin : String) : String := "\n" ++ margin

theorem blank_gapOf {margin : String} (blank : Blank margin) : Blank (gapOf margin) :=
  Blank.append rfl blank

theorem blank_lastGapOf {margin : String} (blank : Blank margin) : Blank (lastGapOf margin) :=
  Blank.append rfl blank

theorem blank_deeper {margin : String} (blank : Blank margin) : Blank (margin ++ "  ") :=
  blank.append rfl

theorem toList_indented (margin opening closing part : String) (parts : List String)
    (rest : List Char) :
    (indented margin opening closing (part :: parts)).toList ++ rest =
      opening.toList ++ ((gapOf margin).toList ++ (part.toList ++
        (behindCommas (gapOf margin) parts ++
          ((lastGapOf margin).toList ++ (closing.toList ++ rest))))) := by
  have separator : ",\n  " ++ margin = "," ++ gapOf margin := by
    rw [gapOf, ← String.append_assoc]
    rfl
  have nonempty : (part :: parts).isEmpty = false := rfl
  rw [indented, nonempty, separator]
  simp only [Bool.false_eq_true, if_false, String.toList_append, toList_intercalate_cons, gapOf,
    lastGapOf, List.append_assoc]

theorem scan_spacedField (key text : String) (rest : List Char) :
    scan ((textInQuotes key ++ ": " ++ text).toList ++ rest) =
      (scan (text.toList ++ rest)).map (.text (escaped key.toList) :: .colon :: ·) := by
  have characters : (textInQuotes key ++ ": " ++ text).toList ++ rest =
      (textInQuotes key).toList ++ (':' :: (" ".toList ++ (text.toList ++ rest))) := by
    simp [String.toList_append]
  have space : Blank " " := rfl
  rw [characters, scan_textInQuotes, scan_punctuation rfl rfl, scan_blank space]
  cases scan (text.toList ++ rest) <;> rfl

mutual

/-- Scanning an indented document finds the tokens it was printed from. -/
theorem scan_pretty : (json : Json) → {margin : String} → Blank margin → {rest : List Char} →
    Stops rest → scan ((pretty margin json).toList ++ rest) = (scan rest).map (tokens json ++ ·)
  | .null, _, _, _, stops => by
      rw [pretty.eq_def, tokens.eq_def]
      exact scan_null stops
  | .unreadable, _, _, _, stops => by
      rw [pretty.eq_def, tokens.eq_def]
      exact scan_null stops
  | .bool value, _, _, _, stops => by
      rw [pretty.eq_def, tokens.eq_def]
      exact scan_bool value stops
  | .integer value, _, _, _, stops => by
      rw [pretty.eq_def, tokens.eq_def]
      exact scan_isNumeralText (isNumeralText_toString value) stops
  | .double x, _, _, _, stops => by
      rw [pretty.eq_def]
      exact scan_double x stops
  | .string content, _, _, rest, _ => by
      rw [pretty.eq_def, tokens.eq_def]
      exact scan_textInQuotes content rest
  | .array [], margin, _, rest, _ => by
      have text : (pretty margin (.array [])).toList ++ rest = '[' :: ']' :: rest := by
        simp [pretty, prettyItems, indented]
      rw [text, scan_punctuation rfl rfl, scan_punctuation rfl rfl, tokens.eq_def]
      cases scan rest <;> rfl
  | .array (item :: items), margin, blank, rest, _ => by
      have closes : Stops (']' :: rest) := stops_cons rest rfl rfl
      have ends := stops_blank (blank_lastGapOf blank) closes
      have text : (pretty margin (.array (item :: items))).toList ++ rest =
          '[' :: ((gapOf margin).toList ++ ((pretty (margin ++ "  ") item).toList ++
            (behindCommas (gapOf margin) (prettyItems (margin ++ "  ") items) ++
              ((lastGapOf margin).toList ++ (']' :: rest))))) := by
        rw [pretty.eq_def]
        exact toList_indented ..
      rw [text, scan_punctuation rfl rfl, scan_blank (blank_gapOf blank),
        scan_pretty item (blank_deeper blank) (stops_behindCommas _ _ ends),
        scan_prettyItems items (blank_gapOf blank) (blank_deeper blank) ends,
        scan_blank (blank_lastGapOf blank), scan_punctuation rfl rfl, tokens_array]
      cases scan rest with
      | none =>
          rfl
      | some found =>
          simp
  | .object [], margin, _, rest, _ => by
      have text : (pretty margin (.object [])).toList ++ rest = '\x7b' :: '\x7d' :: rest := by
        simp [pretty, prettyFields, indented]
      rw [text, scan_punctuation rfl rfl, scan_punctuation rfl rfl, tokens.eq_def]
      cases scan rest <;> rfl
  | .object ((key, value) :: fields), margin, blank, rest, _ => by
      have closes : Stops ('\x7d' :: rest) := stops_cons rest rfl rfl
      have ends := stops_blank (blank_lastGapOf blank) closes
      have text : (pretty margin (.object ((key, value) :: fields))).toList ++ rest =
          '\x7b' :: ((gapOf margin).toList ++
            ((textInQuotes key ++ ": " ++ pretty (margin ++ "  ") value).toList ++
              (behindCommas (gapOf margin) (prettyFields (margin ++ "  ") fields) ++
                ((lastGapOf margin).toList ++ ('\x7d' :: rest))))) := by
        rw [pretty.eq_def]
        exact toList_indented ..
      rw [text, scan_punctuation rfl rfl, scan_blank (blank_gapOf blank), scan_spacedField,
        scan_pretty value (blank_deeper blank) (stops_behindCommas _ _ ends),
        scan_prettyFields fields (blank_gapOf blank) (blank_deeper blank) ends,
        scan_blank (blank_lastGapOf blank), scan_punctuation rfl rfl, tokens_object]
      cases scan rest with
      | none =>
          rfl
      | some found =>
          simp

theorem scan_prettyItems : (items : List Json) → {gap margin : String} → Blank gap →
    Blank margin → {rest : List Char} → Stops rest →
      scan (behindCommas gap (prettyItems margin items) ++ rest) =
        (scan rest).map (moreItemTokens items ++ ·)
  | [], _, _, _, _, rest, _ => by
      rw [prettyItems, moreItemTokens]
      change scan rest = _
      cases scan rest <;> rfl
  | item :: items, gap, margin, gapBlank, blank, rest, stops => by
      have text : behindCommas gap (prettyItems margin (item :: items)) ++ rest =
          ',' :: (gap.toList ++ ((pretty margin item).toList ++
            (behindCommas gap (prettyItems margin items) ++ rest))) := by
        simp [behindCommas, prettyItems]
      rw [text, scan_punctuation rfl rfl, scan_blank gapBlank,
        scan_pretty item blank (stops_behindCommas _ _ stops),
        scan_prettyItems items gapBlank blank stops, moreItemTokens]
      cases scan rest with
      | none =>
          rfl
      | some found =>
          simp

theorem scan_prettyFields : (fields : List (String × Json)) → {gap margin : String} → Blank gap →
    Blank margin → {rest : List Char} → Stops rest →
      scan (behindCommas gap (prettyFields margin fields) ++ rest) =
        (scan rest).map (moreFieldTokens fields ++ ·)
  | [], _, _, _, _, rest, _ => by
      rw [prettyFields, moreFieldTokens]
      change scan rest = _
      cases scan rest <;> rfl
  | (key, value) :: fields, gap, margin, gapBlank, blank, rest, stops => by
      have text : behindCommas gap (prettyFields margin ((key, value) :: fields)) ++ rest =
          ',' :: (gap.toList ++ ((textInQuotes key ++ ": " ++ pretty margin value).toList ++
            (behindCommas gap (prettyFields margin fields) ++ rest))) := by
        simp [behindCommas, prettyFields]
      rw [text, scan_punctuation rfl rfl, scan_blank gapBlank, scan_spacedField,
        scan_pretty value blank (stops_behindCommas _ _ stops),
        scan_prettyFields fields gapBlank blank stops, moreFieldTokens]
      cases scan rest with
      | none =>
          rfl
      | some found =>
          simp

end

/-- An indented document is read back if each of its doubles is. -/
theorem parse?_pretty {json : Json} (legible : json.Legible depthLimit)
    (readBack : ∀ x ∈ json.doubles, ReadsBack x) : parse? (pretty "" json) = some json := by
  have empty : Blank "" := rfl
  have scanned := scan_pretty json empty stops_nil
  rw [List.append_nil, Token.scan] at scanned
  apply parse?_of_scan legible readBack
  rw [scanned]
  simp

end InSitu.Json
