import InSitu.Json.Basic
import InSitu.Number.Layout
/-!
Writing JSON texts, on one line or indented. Numbers that are not finite have no form in JSON
and are written `null`.
-/

namespace InSitu.Json

def escapedCharacter (character : Char) : List Char :=
  match character with
  | '"' => ['\\', '"']
  | '\\' => ['\\', '\\']
  | '\x08' => ['\\', 'b']
  | '\x0c' => ['\\', 'f']
  | '\n' => ['\\', 'n']
  | '\r' => ['\\', 'r']
  | '\t' => ['\\', 't']
  | character =>
    if character.toNat < 0x20 then
      ['\\', 'u', '0', '0', Nat.digitChar (character.toNat / 16),
        Nat.digitChar (character.toNat % 16)]
    else [character]

def textInQuotes (text : String) : String :=
  String.ofList ('"' :: text.toList.flatMap escapedCharacter ++ ['"'])

def doubleText (x : Float) : String :=
  if x.isFinite then Number.Layout.document.write x else "null"

def scalarText : Json → String
  | .bool value => if value then "true" else "false"
  | .integer value => toString value
  | .double value => doubleText value
  | .string value => textInQuotes value
  | _ => "null"

mutual

def compact : Json → String
  | .array items => "[" ++ String.intercalate "," (compactItems items) ++ "]"
  | .object fields => "\x7b" ++ String.intercalate "," (compactFields fields) ++ "\x7d"
  | json => scalarText json

/-- The items of an array, each on one line. -/
def compactItems : List Json → List String
  | [] => []
  | item :: rest => compact item :: compactItems rest

/-- The fields of an object, each on one line. -/
def compactFields : List (String × Json) → List String
  | [] => []
  | (key, value) :: rest => (textInQuotes key ++ ":" ++ compact value) :: compactFields rest

end

/-- Puts parts on lines of their own between brackets; without parts only the brackets. -/
def indented (margin opening closing : String) (parts : List String) : String :=
  if parts.isEmpty then opening ++ closing
  else
    opening ++ "\n  " ++ margin ++ String.intercalate (",\n  " ++ margin) parts ++ "\n" ++
      margin ++ closing

mutual

/-- The document with one item to a line, each level two spaces further in. -/
def pretty (margin : String) : Json → String
  | .array items => indented margin "[" "]" (prettyItems (margin ++ "  ") items)
  | .object fields => indented margin "\x7b" "\x7d" (prettyFields (margin ++ "  ") fields)
  | json => scalarText json

def prettyItems (margin : String) : List Json → List String
  | [] => []
  | item :: rest => pretty margin item :: prettyItems margin rest

def prettyFields (margin : String) : List (String × Json) → List String
  | [] => []
  | (key, value) :: rest =>
    (textInQuotes key ++ ": " ++ pretty margin value) :: prettyFields margin rest

end

end InSitu.Json
