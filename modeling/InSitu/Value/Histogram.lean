import InSitu.Sample.Statistics
import InSitu.Value.Basic
/-!
Counting samples in uniform bins, and what follows from the counts: probabilities, entropy and
quantiles.

A cumulative probability belongs to the upper edge of its bin; at the lower edge of the first
bin it is zero.
-/

namespace InSitu

variable {α : Type} [Scalar α]

/-! ## Counts -/

/-- The bucket of a sample, none if it is not counted. -/
def bucketOf? (low high : α) (count : Nat) (clamps : Bool) (sample : α) : Option Nat :=
  if Scalar.isNaN sample then none
  else if sample < low then if clamps then some 0 else none
  else if high < sample then if clamps then some (count - 1) else none
  else
    let scale := Scalar.ofNat count / (high - low)
    some (Nat.min (Scalar.wholePart ((sample - low) * scale)) (count - 1))

/-- The number of samples in each of `count` buckets from `low` to `high`. Samples outside go to
the end buckets if these clamp; without a range no sample is counted. -/
def bucketCounts (samples : List α) (low high : α) (count : Nat) (clamps : Bool) : List α :=
  if low < high then
    let buckets := samples.filterMap (bucketOf? low high count clamps)
    (List.range count).map fun bucket => Scalar.ofNat (buckets.count bucket)
  else List.replicate count Scalar.zero

namespace Histogram

/-! ## Probabilities -/

/-- The share of every bin, zero if the bins add up to nothing. -/
def pdf (histogram : Histogram α) : Histogram α :=
  let total := Sample.sum histogram.values
  { histogram with
    values := histogram.values.map fun count =>
      if Scalar.zero < total then count / total else Scalar.zero }

/-- The sums of all beginnings of a list, on top of a total. -/
def runningSums (total : α) : List α → List α
  | [] => []
  | value :: rest => (total + value) :: runningSums (total + value) rest

def cdf (histogram : Histogram α) : Histogram α :=
  { histogram with values := runningSums Scalar.zero histogram.pdf.values }

def entropy (histogram : Histogram Float) : Float :=
  Sample.sum <| (histogram.pdf.values.filter fun share => 0 < share).map fun share =>
    -share * share.log

end Histogram

/-! ## Quantiles -/

/-- Which point of the bin is the quantile. -/
inductive Interpolation where
  /-- The point that divides the bin as the probability divides its share. -/
  | linear
  | lower
  | higher
  | midpoint
  /-- The edge whose cumulative probability is nearer. -/
  | nearest

namespace Interpolation

def names : List String := ["linear", "lower", "higher", "midpoint", "nearest"]

def ofName? (text : String) : Option Interpolation :=
  if text = "linear" then some .linear
  else if text = "lower" then some .lower
  else if text = "higher" then some .higher
  else if text = "midpoint" then some .midpoint
  else if text = "nearest" then some .nearest
  else none

end Interpolation

/-- Why there is no quantile. -/
inductive QuantileFault where
  | outside
  | noBins

namespace Histogram

/-- The first bin whose cumulative probability reaches `q`, or else the last one. -/
def binReaching (histogram : Histogram α) (q : α) : Nat :=
  (histogram.values.findIdx? fun cumulative => q ≤ cumulative).getD (histogram.values.length - 1)

/-- How far into its bin a probability lies, between zero and one. -/
def fractionOf (histogram : Histogram α) (bin : Nat) (q : α) : α :=
  let below := if bin = 0 then Scalar.zero else histogram.values.getD (bin - 1) Scalar.zero
  let span := histogram.values.getD bin Scalar.zero - below
  if Scalar.zero < span then
    let fraction := (q - below) / span
    if fraction < Scalar.zero then Scalar.zero
    else if Scalar.one < fraction then Scalar.one
    else fraction
  else Scalar.zero

/-- The value with cumulative probability `q`. -/
def quantile (histogram : Histogram α) (q : α) (rule : Interpolation) :
    Except QuantileFault α :=
  if ¬ (Scalar.zero ≤ q ∧ q ≤ Scalar.one) then .error .outside
  else if histogram.values.isEmpty then .error .noBins
  else
    let bin := histogram.binReaching q
    let width := (histogram.high - histogram.low) / Scalar.ofNat histogram.values.length
    let lower := histogram.low + Scalar.ofNat bin * width
    let upper := lower + width
    let fraction := histogram.fractionOf bin q
    .ok <| match rule with
      | .linear => lower + width * fraction
      | .lower => lower
      | .higher => upper
      | .midpoint => lower + Scalar.half width
      | .nearest => if fraction < Scalar.half Scalar.one then lower else upper

end Histogram

end InSitu
