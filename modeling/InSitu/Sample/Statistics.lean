import InSitu.Number.Scalar
import InSitu.Sample.Tournament
import InSitu.Value.Kind
/-!
Statistics of lists of samples. Sums are taken in rounds, so equal lists have equal sums to the
last bit.
-/

namespace InSitu.Sample

variable {α : Type} [Scalar α]

/-- The sum, zero for no samples. -/
def sum (samples : List α) : α :=
  (reduceInRounds? (fun first second => first + second) samples).getD Scalar.zero

/-- The mean, zero for no samples. -/
def mean (samples : List α) : α :=
  if samples.isEmpty then Scalar.zero else sum samples / Scalar.ofNat samples.length

/-- The order of two samples; samples that cannot be ordered count as equal. -/
def order (first second : α) : Ordering :=
  if first < second then .lt else if second < first then .gt else .eq

/-- The least sample and its place; the first of several. -/
def least? (samples : List α) : Option (Indexed α) := champion? order samples

/-- The greatest sample and its place; the first of several. -/
def greatest? (samples : List α) : Option (Indexed α) :=
  champion? (fun first second => order second first) samples

/-- The mean of the squared distances to the mean, zero for no samples. -/
def variance (samples : List α) : α :=
  let center := mean samples
  mean (samples.map fun sample => (sample - center) * (sample - center))

/-- The mean of the squares, zero for no samples. -/
def meanSquare (samples : List α) : α := mean (samples.map fun sample => sample * sample)

/-! ## Doubles -/

/-- The least double, infinity for no samples. -/
def minimum (samples : List Float) : Float :=
  ((least? samples).map (·.value)).getD Number.infinity

/-- The greatest double, negative infinity for no samples. -/
def maximum (samples : List Float) : Float :=
  ((greatest? samples).map (·.value)).getD Number.negativeInfinity

def standardDeviation (samples : List Float) : Float := (variance samples).sqrt

def rootMeanSquare (samples : List Float) : Float := (meanSquare samples).sqrt

/-- The samples of a bin as one number, none for no samples. The probability of a bin needs the
other bins; here it is the count. -/
def reduce? (reduction : Reduction) (samples : List Float) : Option Float :=
  if samples.isEmpty then none
  else some <| match reduction with
    | .sum => sum samples
    | .min => minimum samples
    | .max => maximum samples
    | .avg => mean samples
    | .count | .pdf => Float.ofNat samples.length
    | .std => standardDeviation samples
    | .var => variance samples
    | .rms => rootMeanSquare samples

end InSitu.Sample
