import Mathlib
import InSitu.Json.Printer
import InSitu.Json.Reader

/-!
# Texts in quotes

Escaping a character writes something that is cut off as one part of the text and that means this
character again.  So a text in quotes ends where it was ended, and is read back.
-/

namespace InSitu.Json

/-- The characters of a text with all escapes. -/
def escaped (characters : List Char) : List Char := characters.flatMap escapedCharacter

theorem toList_textInQuotes (text : String) :
    (textInQuotes text).toList = '"' :: (escaped text.toList ++ ['"']) := by
  rw [textInQuotes, String.toList_ofList]
  rfl

/-- How a character is written: behind a backslash, by number, or as it is. -/
theorem escapedCharacter_cases (character : Char) :
    (∃ letter, escapedCharacter character = ['\\', letter] ∧ escape? letter = some character ∧
      letter ≠ 'u') ∨
    (character.toNat < 0x20 ∧
      escapedCharacter character =
        ['\\', 'u', '0', '0', Nat.digitChar (character.toNat / 16),
          Nat.digitChar (character.toNat % 16)]) ∨
    (escapedCharacter character = [character] ∧ Token.isPlain character = true) := by
  unfold escapedCharacter
  split
  · exact .inl ⟨'"', rfl, rfl, by decide⟩
  · exact .inl ⟨'\\', rfl, rfl, by decide⟩
  · exact .inl ⟨'b', rfl, rfl, by decide⟩
  · exact .inl ⟨'f', rfl, rfl, by decide⟩
  · exact .inl ⟨'n', rfl, rfl, by decide⟩
  · exact .inl ⟨'r', rfl, rfl, by decide⟩
  · exact .inl ⟨'t', rfl, rfl, by decide⟩
  · rename_i notQuote notBackslash _ _ _ _ _
    by_cases control : character.toNat < 0x20
    · rw [if_pos control]
      exact .inr (.inl ⟨control, rfl⟩)
    · rw [if_neg control]
      refine .inr (.inr ⟨rfl, ?_⟩)
      have visible : 0x20 ≤ character.toNat := by omega
      simp only [Token.isPlain, visible, decide_true, Bool.true_and, Bool.and_eq_true, bne_iff_ne]
      exact ⟨notQuote, notBackslash⟩

theorem cutText_plain {character : Char} (plain : Token.isPlain character = true)
    (rest : List Char) :
    Token.cutText (character :: rest) =
      (Token.cutText rest).map fun cut => (character :: cut.1, cut.2) := by
  have parts : character ≠ '"' ∧ character ≠ '\\' := by
    simp [Token.isPlain] at plain
    exact ⟨plain.1.2, plain.2⟩
  rw [Token.cutText]
  · rw [if_pos plain]
  · intro quote
    exact absurd quote parts.1
  · intro letter others quote
    exact absurd quote parts.2

theorem isPlain_digitChar (digit : Nat) (small : digit < 16) :
    Token.isPlain (Nat.digitChar digit) = true := by
  revert digit
  decide

theorem cutText_escapedCharacter (character : Char) (rest : List Char) :
    Token.cutText (escapedCharacter character ++ rest) =
      (Token.cutText rest).map fun cut => (escapedCharacter character ++ cut.1, cut.2) := by
  rcases escapedCharacter_cases character with
    ⟨letter, written, _, _⟩ | ⟨control, written⟩ | ⟨written, plain⟩
  · rw [written]
    rfl
  · rw [written]
    have upper := isPlain_digitChar (character.toNat / 16) (by omega)
    have lower := isPlain_digitChar (character.toNat % 16) (by omega)
    have zero : Token.isPlain '0' = true := by decide
    have marked (tail : List Char) : Token.cutText ('\\' :: 'u' :: tail) =
        (Token.cutText tail).map fun cut => ('\\' :: 'u' :: cut.1, cut.2) := rfl
    simp only [List.cons_append, List.nil_append]
    rw [marked, cutText_plain zero, cutText_plain zero, cutText_plain upper, cutText_plain lower]
    cases Token.cutText rest <;> rfl
  · rw [written]
    exact cutText_plain plain rest

theorem cutText_escaped (characters rest : List Char) :
    Token.cutText (escaped characters ++ '"' :: rest) = some (escaped characters, rest) := by
  induction characters with
  | nil =>
      rfl
  | cons character characters inductionHypothesis =>
      have split : escaped (character :: characters) =
          escapedCharacter character ++ escaped characters := List.flatMap_cons
      rw [split, List.append_assoc, cutText_escapedCharacter, inductionHypothesis]
      rfl

theorem hexDigit?_digitChar (digit : Nat) (small : digit < 16) :
    hexDigit? (Nat.digitChar digit) = some digit := by
  revert digit
  decide

/-- An escaped character is one piece, and this piece means the character. -/
theorem exists_piece (character : Char) :
    ∃ piece,
      (∀ rest, textPieces? (escapedCharacter character ++ rest) =
        (textPieces? rest).map (piece :: ·)) ∧
      ∀ pieces, joinPieces? (piece :: pieces) = (joinPieces? pieces).map (character :: ·) := by
  rcases escapedCharacter_cases character with
    ⟨letter, written, means, notUnit⟩ | ⟨control, written⟩ | ⟨written, plain⟩
  · refine ⟨.character character, fun rest => ?_, fun pieces => rfl⟩
    rw [written]
    simp only [List.cons_append, List.nil_append]
    rw [textPieces?]
    · rw [means]
      cases textPieces? rest <;> rfl
    · intro first second third fourth others isUnit
      exact absurd isUnit notUnit
  · refine ⟨.unit character.toNat, fun rest => ?_, fun pieces => ?_⟩
    · have zero : hexDigit? '0' = some 0 := rfl
      have upper := hexDigit?_digitChar (character.toNat / 16) (by omega)
      have lower := hexDigit?_digitChar (character.toNat % 16) (by omega)
      have code : ((0 * 16 + 0) * 16 + character.toNat / 16) * 16 + character.toNat % 16 =
          character.toNat := by omega
      rw [written]
      simp only [List.cons_append, List.nil_append]
      rw [textPieces?, zero, upper, lower]
      simp only [Option.bind_eq_bind, Option.bind_some, code]
      cases textPieces? rest <;> rfl
    · have notLow : isLowSurrogate character.toNat = false := by
        simp [isLowSurrogate]
        omega
      have notHigh : isHighSurrogate character.toNat = false := by
        simp [isHighSurrogate]
        omega
      rw [joinPieces?.eq_def]
      simp only [notLow, notHigh, Char.ofNat_toNat, Bool.false_eq_true, if_false]
  · refine ⟨.character character, fun rest => ?_, fun pieces => rfl⟩
    have notBackslash : character ≠ '\\' := by
      rintro rfl
      cases plain
    rw [written]
    simp only [List.cons_append, List.nil_append]
    rw [textPieces?]
    · rw [if_neg notBackslash]
    · intro first second third fourth others backslash
      exact absurd backslash notBackslash
    · intro letter others backslash
      exact absurd backslash notBackslash

theorem exists_pieces (characters : List Char) :
    ∃ pieces, textPieces? (escaped characters) = some pieces ∧
      joinPieces? pieces = some characters := by
  induction characters with
  | nil =>
      exact ⟨[], rfl, rfl⟩
  | cons character characters inductionHypothesis =>
      obtain ⟨pieces, read, means⟩ := inductionHypothesis
      obtain ⟨piece, pieceRead, pieceMeans⟩ := exists_piece character
      have split : escaped (character :: characters) =
          escapedCharacter character ++ escaped characters := List.flatMap_cons
      refine ⟨piece :: pieces, ?_, ?_⟩
      · rw [split, pieceRead, read]
        rfl
      · rw [pieceMeans, means]
        rfl

/-- A text is read back from between its quotes. -/
theorem textValue?_escaped (text : String) :
    textValue? (escaped text.toList) = some (some text) := by
  obtain ⟨pieces, read, means⟩ := exists_pieces text.toList
  rw [textValue?, read, Option.map_some, means, Option.map_some, String.ofList_toList]

end InSitu.Json
