/-!
The tokens of a JSON text.

Texts and numbers are kept as they are written, so that a token can be told apart from its
meaning; `Json.Reader` gives them one.
-/

namespace InSitu.Json

/-- A token of a JSON text. -/
inductive Token where
  | openArray
  | closeArray
  | openObject
  | closeObject
  | comma
  | colon
  /-- The characters between two quotes, escapes included. -/
  | text (body : List Char)
  | numeral (characters : List Char)
  | word (characters : List Char)

namespace Token

def isSpace (character : Char) : Bool :=
  character = ' ' || character = '\n' || character = '\t' || character = '\r'

def isNumeral (character : Char) : Bool :=
  character.isDigit || character = '-' || character = '+' || character = '.' ||
    character = 'e' || character = 'E'

def punctuation? : Char → Option Token
  | '[' => some .openArray
  | ']' => some .closeArray
  | '\x7b' => some .openObject
  | '\x7d' => some .closeObject
  | ',' => some .comma
  | ':' => some .colon
  | _ => none

/-- Whether a character can stand unescaped in a text. -/
def isPlain (character : Char) : Bool :=
  0x20 ≤ character.toNat && character != '"' && character != '\\'

def cutText : List Char → Option (List Char × List Char)
  | [] => none
  | '"' :: rest => some ([], rest)
  | '\\' :: escaped :: rest => (cutText rest).map fun cut => ('\\' :: escaped :: cut.1, cut.2)
  | character :: rest =>
    if isPlain character then (cutText rest).map fun cut => (character :: cut.1, cut.2)
    else none

theorem length_cutText {characters : List Char} {cut : List Char × List Char}
    (found : cutText characters = some cut) : cut.2.length < characters.length := by
  fun_induction cutText characters generalizing cut with
  | case1 => simp at found
  | case2 rest => simp_all [← Option.some.inj found]
  | case3 escaped rest ih =>
    obtain ⟨inner, cutsInner, rfl⟩ := Option.map_eq_some_iff.1 found
    have := ih cutsInner
    simp only [List.length_cons]
    omega
  | case4 character rest _ _ plain ih =>
    obtain ⟨inner, cutsInner, rfl⟩ := Option.map_eq_some_iff.1 found
    have := ih cutsInner
    simp only [List.length_cons]
    omega
  | case5 => simp at found

/-- The tokens of a text, if all its characters belong to one. -/
def scan : List Char → Option (List Token)
  | [] => some []
  | character :: rest =>
    if isSpace character then scan rest
    else match punctuation? character with
      | some token => (scan rest).map (token :: ·)
      | none =>
        if character = '"' then
          match _found : cutText rest with
          | some (body, after) => (scan after).map (.text body :: ·)
          | none => none
        else if character.isDigit || character = '-' then
          (scan (rest.dropWhile isNumeral)).map
            (.numeral (character :: rest.takeWhile isNumeral) :: ·)
        else if character.isLower then
          (scan (rest.dropWhile Char.isLower)).map
            (.word (character :: rest.takeWhile Char.isLower) :: ·)
        else none
termination_by characters => characters.length
decreasing_by
  · simp
  · simp
  · have shorter : after.length < rest.length := length_cutText _found
    simp only [List.length_cons]
    omega
  · have := (List.dropWhile_sublist isNumeral (l := rest)).length_le
    simp only [List.length_cons]
    omega
  · have := (List.dropWhile_sublist Char.isLower (l := rest)).length_le
    simp only [List.length_cons]
    omega

end Token

end InSitu.Json
