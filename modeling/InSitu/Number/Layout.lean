import InSitu.Number.Shortest
/-!
How a double is written: the choices of a layout, and the three layouts of the library.
-/

namespace InSitu.Number

/-- The choices between the ways of writing the same decimal. -/
structure Layout where
  /-- Which places of the leading digit are written without an exponent. -/
  positional : Int → Bool
  /-- Whether a whole number keeps a point and a zero. -/
  pointZero : Bool
  /-- Whether a positive exponent has a sign. -/
  signedExponent : Bool
  tie : Tie

/-- Numbers of a document: positional from `0.00001` up to sixteen digits, then `1e+16`. -/
def Layout.document : Layout where
  positional place := -5 ≤ place && place ≤ 15
  pointZero := true
  signedExponent := true
  tie := .even

/-- Numbers inside a sentence never have an exponent, and whole numbers no point. -/
def Layout.sentence : Layout where
  positional _ := true
  pointZero := false
  signedExponent := false
  tie := .up

/-- Numbers inside a printed list keep their point, and have an exponent from `1e16` up and
below `0.0001`. -/
def Layout.listed : Layout where
  positional place := -4 ≤ place && place < 16
  pointZero := true
  signedExponent := false
  tie := .up

def zeros (count : Nat) : List Char := List.replicate count '0'

/-- Writes decimal digits whose last one stands at place `exponent`, without an exponent. -/
def Layout.writePositional (layout : Layout) (digits : List Char) (exponent : Int) : List Char :=
  if 0 ≤ exponent then
    digits ++ zeros exponent.toNat ++ (if layout.pointZero then ['.', '0'] else [])
  else
    let decimals := (-exponent).toNat
    if decimals < digits.length then
      digits.take (digits.length - decimals) ++ '.' :: digits.drop (digits.length - decimals)
    else '0' :: '.' :: zeros (decimals - digits.length) ++ digits

/-- Writes decimal digits with an exponent for the place of the first one. -/
def Layout.writeScientific (layout : Layout) (digits : List Char) (place : Int) : List Char :=
  let fraction := if digits.length ≤ 1 then [] else '.' :: digits.drop 1
  let sign := if place < 0 then ['-'] else if layout.signedExponent then ['+'] else []
  digits.take 1 ++ fraction ++ 'e' :: sign ++ Nat.toDigits 10 place.natAbs

def signText : Float.Model.UnpackedFloat.Sign → List Char
  | .negative => ['-']
  | .positive => []

/-- Writes a double with the fewest digits that read back as it. -/
def Layout.write (layout : Layout) (x : Float) : String :=
  match x.toModel.unpack with
  | .notANumber => "NaN"
  | .infinity sign => String.ofList (signText sign ++ ['i', 'n', 'f'])
  | .zero sign => String.ofList (signText sign ++ layout.writePositional ['0'] 0)
  | .finite sign mantissa exponent _ =>
    let decimal := shortest layout.tie mantissa exponent
    let digits := Nat.toDigits 10 decimal.digits
    let place := decimal.exponent + digits.length - 1
    String.ofList <| signText sign ++
      if layout.positional place then layout.writePositional digits decimal.exponent
      else layout.writeScientific digits place

def inSentence (x : Float) : String := Layout.sentence.write x

def listText (xs : List Float) : String :=
  "[" ++ String.intercalate ", " (xs.map Layout.listed.write) ++ "]"

end InSitu.Number
