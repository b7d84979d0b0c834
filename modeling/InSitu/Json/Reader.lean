import InSitu.Json.Basic
import InSitu.Json.Token
/-!
Reading JSON texts.

`Json.parse?` refuses what is not JSON. Three things have the form of JSON and still no value:
numbers beyond the doubles, halves of surrogate pairs, and containers more than
`Json.depthLimit` levels deep. They become `Json.unreadable`.
-/

namespace InSitu.Json

/-- The number of levels to which arrays and objects may be nested. -/
def depthLimit : Nat := 127

/-! ## Texts -/

/-- A character of a text, or a 16-bit unit given by number. -/
inductive TextPiece where
  | character (value : Char)
  | unit (code : Nat)

def hexDigit? (digit : Char) : Option Nat :=
  if digit.isDigit then some (digit.toNat - '0'.toNat)
  else if 'a' ≤ digit ∧ digit ≤ 'f' then some (digit.toNat - 'a'.toNat + 10)
  else if 'A' ≤ digit ∧ digit ≤ 'F' then some (digit.toNat - 'A'.toNat + 10)
  else none

/-- The character named by a letter after a backslash. -/
def escape? : Char → Option Char
  | '"' => some '"'
  | '\\' => some '\\'
  | '/' => some '/'
  | 'b' => some '\x08'
  | 'f' => some '\x0c'
  | 'n' => some '\n'
  | 'r' => some '\r'
  | 't' => some '\t'
  | _ => none

/-- The pieces of a text, if all its escapes are well formed. -/
def textPieces? : List Char → Option (List TextPiece)
  | [] => some []
  | '\\' :: 'u' :: first :: second :: third :: fourth :: rest => do
    let first ← hexDigit? first
    let second ← hexDigit? second
    let third ← hexDigit? third
    let fourth ← hexDigit? fourth
    let pieces ← textPieces? rest
    return .unit (((first * 16 + second) * 16 + third) * 16 + fourth) :: pieces
  | '\\' :: letter :: rest => do
    let character ← escape? letter
    let pieces ← textPieces? rest
    return .character character :: pieces
  | character :: rest =>
    if character = '\\' then none
    else (textPieces? rest).map (.character character :: ·)

/-- Whether a unit is the first half of a surrogate pair. -/
def isHighSurrogate (code : Nat) : Bool := 0xd800 ≤ code && code < 0xdc00

/-- Whether a unit is the second half of a surrogate pair. -/
def isLowSurrogate (code : Nat) : Bool := 0xdc00 ≤ code && code < 0xe000

/-- The characters of the pieces, if no surrogate stands alone. -/
def joinPieces? : List TextPiece → Option (List Char)
  | [] => some []
  | .character value :: rest => (joinPieces? rest).map (value :: ·)
  | .unit code :: rest =>
    if isLowSurrogate code then none
    else if isHighSurrogate code then
      match rest with
      | .unit low :: rest =>
        if isLowSurrogate low then
          (joinPieces? rest).map
            (Char.ofNat (0x10000 + (code - 0xd800) * 0x400 + (low - 0xdc00)) :: ·)
        else none
      | _ => none
    else (joinPieces? rest).map (Char.ofNat code :: ·)

/-- The meaning of what stands between two quotes; without a value if a surrogate stands
alone. -/
def textValue? (body : List Char) : Option (Option String) :=
  (textPieces? body).map fun pieces => (joinPieces? pieces).map String.ofList

/-! ## Numbers -/

/-- A number as it is written. -/
structure Numeral where
  negative : Bool
  whole : List Char
  fraction : List Char
  exponent : Option Int

def digitsValue (digits : List Char) : Nat :=
  digits.foldl (fun value digit => value * 10 + (digit.toNat - '0'.toNat)) 0

/-- Splits a row of digits, at least one, from what follows. -/
def someDigits? (characters : List Char) : Option (List Char × List Char) :=
  let digits := characters.takeWhile Char.isDigit
  if digits.isEmpty then none else some (digits, characters.dropWhile Char.isDigit)

def fraction? : List Char → Option (List Char × List Char)
  | '.' :: rest => someDigits? rest
  | rest => some ([], rest)

def exponent? : List Char → Option (Option Int)
  | [] => some none
  | mark :: rest =>
    if mark = 'e' ∨ mark = 'E' then
      let signed := match rest with
        | '-' :: digits => (true, digits)
        | '+' :: digits => (false, digits)
        | digits => (false, digits)
      match someDigits? signed.2 with
      | some (digits, []) =>
        let value : Int := digitsValue digits
        some (some (if signed.1 then -value else value))
      | _ => none
    else none

/-- Reads a number; its whole part has no leading zero. -/
def numeral? (characters : List Char) : Option Numeral := do
  let signed := match characters with
    | '-' :: rest => (true, rest)
    | rest => (false, rest)
  let (whole, rest) ← someDigits? signed.2
  if whole.length ≠ 1 ∧ whole.head? = some '0' then none
  let (fraction, rest) ← fraction? rest
  let exponent ← exponent? rest
  return ⟨signed.1, whole, fraction, exponent⟩

/-- The double nearest to `digits * 10 ^ exponent`, unreadable beyond the largest double. Only a
program that is built for exact reading promises the nearest double; by default a number of many
digits may be read as a double beside it. -/
def scientific (negative : Bool) (digits : Nat) (exponent : Int) : Json :=
  let signed (x : Float) : Float := if negative then -x else x
  let places := (Nat.toDigits 10 digits).length + exponent
  if digits = 0 ∨ places < -400 then .double (signed 0.0)
  else if 400 < places then .unreadable
  else
    let x := Float.ofScientific digits (exponent < 0) exponent.natAbs
    if x.isInf then .unreadable else .double (signed x)

/-- The value of a number. Without fraction and exponent it is an integer when a 64-bit word
holds it, except that minus zero is a double. -/
def Numeral.value (numeral : Numeral) : Json :=
  let digits := digitsValue (numeral.whole ++ numeral.fraction)
  match numeral.fraction, numeral.exponent with
  | [], none =>
    if numeral.negative then
      if 0 < digits ∧ (Number.int64? (-digits)).isSome then .integer (-digits)
      else scientific true digits 0
    else if (Number.natural? digits).isSome then .integer digits
    else scientific false digits 0
  | fraction, exponent =>
    scientific numeral.negative digits (exponent.getD 0 - fraction.length)

/-! ## Grammar -/

/-- A container that is not closed yet; its parts are in reverse order, and keys without a
value are `none`. -/
inductive Frame where
  | array (items : List Json)
  | object (fields : List (Option String × Json)) (key : Option String)

/-- What may come next, within the containers that are open. -/
inductive Progress where
  | value (frames : List Frame)
  | firstItem (frames : List Frame)
  | firstKey (frames : List Frame)
  | key (fields : List (Option String × Json)) (frames : List Frame)
  | colon (fields : List (Option String × Json)) (key : Option String) (frames : List Frame)
  | after (value : Json) (frames : List Frame)

def closeContainer (frames : List Frame) (container : Json) : Progress :=
  .after (if frames.length < depthLimit then container else .unreadable) frames

/-- The object of fields in reverse order, unreadable if one of the keys is. -/
def objectOf (fields : List (Option String × Json)) : Json :=
  match fields.reverse.mapM fun field => field.1.map fun key => (key, field.2) with
  | some fields => .object fields
  | none => .unreadable

def beginValue (frames : List Frame) : Token → Option Progress
  | .openArray => some (.firstItem frames)
  | .openObject => some (.firstKey frames)
  | .text body => do
    let value ← textValue? body
    return .after (value.elim .unreadable .string) frames
  | .numeral characters => do
    let numeral ← numeral? characters
    return .after numeral.value frames
  | .word characters =>
    if characters = "null".toList then some (.after .null frames)
    else if characters = "true".toList then some (.after (.bool true) frames)
    else if characters = "false".toList then some (.after (.bool false) frames)
    else none
  | _ => none

def takeToken : Progress → Token → Option Progress
  | .value frames, token => beginValue frames token
  | .firstItem frames, .closeArray => some (closeContainer frames (.array []))
  | .firstItem frames, token => beginValue (.array [] :: frames) token
  | .firstKey frames, .closeObject => some (closeContainer frames (.object []))
  | .firstKey frames, .text body => (textValue? body).map fun name => .colon [] name frames
  | .key fields frames, .text body => (textValue? body).map fun name => .colon fields name frames
  | .colon fields name frames, .colon => some (.value (.object fields name :: frames))
  | .after value (.array items :: frames), .comma =>
    some (.value (.array (value :: items) :: frames))
  | .after value (.array items :: frames), .closeArray =>
    some (closeContainer frames (.array (value :: items).reverse))
  | .after value (.object fields name :: frames), .comma =>
    some (.key ((name, value) :: fields) frames)
  | .after value (.object fields name :: frames), .closeObject =>
    some (closeContainer frames (objectOf ((name, value) :: fields)))
  | _, _ => none

def parse? (text : String) : Option Json := do
  let tokens ← Token.scan text.toList
  match ← tokens.foldlM takeToken (.value []) with
  | .after value [] => some value
  | _ => none

end InSitu.Json
