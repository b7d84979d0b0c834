import InSitu.Sample.Statistics
import InSitu.Value.Basic
/-!
Sorting samples into the bins of several axes and reducing every bin.

The bins of all axes are numbered through: the number of a bin has the bins of the axes as its
digits, that of the first axis being the lowest. Numbers and their total are 64-bit words, which
wrap; a program that is built with checks stops where one does.
-/

namespace InSitu.Binning

/-- The number of all bins. That of one axis is a word, and every product wraps. -/
def totalBins : List (Axis Float) → Nat
  | [] => 1
  | axis :: axes =>
    axes.foldl (fun total axis => Number.wrap (total * axis.binCount)) axis.binCount

/-- Continues the number of a sample along further axes; neighbouring bins of the first of them are
a stride apart. -/
def binFrom? (number stride : Nat) : List (Axis Float × Float) → Option Nat
  | [] => some number
  | (axis, coordinate) :: rest => do
    let bin ← axis.locateSample? coordinate
    binFrom? (Number.wrap (number + bin * stride)) (Number.wrap (stride * axis.binCount)) rest

/-- The number of the bin of a sample, none if one of the axes does not count it. -/
def binOf? : List (Axis Float) → List Float → Option Nat
  | axis :: axes, coordinate :: coordinates => do
    let bin ← axis.locateSample? coordinate
    binFrom? bin axis.binCount (axes.zip coordinates)
  | _, _ => some 0

/-- The number of samples for which every column has a coordinate; none without columns. -/
def sampleCount (columns : List (List Float)) : Nat :=
  ((columns.map List.length).min?).getD 0

def coordinatesOf (columns : List (List Float)) (sample : Nat) : List Float :=
  columns.map fun column => column.getD sample 0.0

/-- The value of a sample; without values every sample counts as one. -/
def valueOf (values : Option (List Float)) (sample : Nat) : Float :=
  (values.bind fun values => values[sample]?).getD 1.0

/-- The samples that are counted, each with its bin and its value, in order. -/
def binnedSamples (axes : List (Axis Float)) (columns : List (List Float))
    (values : Option (List Float)) : List (Nat × Float) :=
  (List.range (sampleCount columns)).filterMap fun sample =>
    (binOf? axes (coordinatesOf columns sample)).map fun bin => (bin, valueOf values sample)

/-- Puts a sample behind those of its bin; there is no result if the bins end before it. -/
def push? (bins : List (List Float)) (sample : Nat × Float) : Option (List (List Float)) :=
  if sample.1 < bins.length then some (bins.modify sample.1 (· ++ [sample.2])) else none

def fill? (total : Nat) (samples : List (Nat × Float)) : Option (List (List Float)) :=
  samples.foldlM push? (List.replicate total [])

/-- The value of a bin with the given samples. The probability of a bin is its share of all counted
samples. -/
def binValue (reduction : Reduction) (emptyValue : Float) (counted : Nat) (inBin : List Float) :
    Float :=
  match Sample.reduce? reduction inBin with
  | none => emptyValue
  | some reduced => if reduction = .pdf then reduced / Float.ofNat counted else reduced

/-- Reduces the samples of every bin. There is no result if a sample has a number beyond the
bins. -/
def accumulate? (axes : List (Axis Float)) (columns : List (List Float))
    (values : Option (List Float)) (reduction : Reduction) (emptyValue : Float) :
    Option (List Float) :=
  (fill? (totalBins axes) (binnedSamples axes columns values)).map fun bins =>
    bins.map (binValue reduction emptyValue bins.flatten.length)

/-- The values of the bins. Without a result the program stops; here there are no values then. -/
def accumulate (axes : List (Axis Float)) (columns : List (List Float))
    (values : Option (List Float)) (reduction : Reduction) (emptyValue : Float) : List Float :=
  (accumulate? axes columns values reduction emptyValue).getD []

end InSitu.Binning
