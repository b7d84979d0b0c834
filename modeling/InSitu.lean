import InSitu.Axis.Basic
import InSitu.Axis.Literal
import InSitu.Axis.Spec
import InSitu.Binning.Accumulate
import InSitu.Binning.Lookup
import InSitu.Binning.Request
import InSitu.Config
import InSitu.Fault.Basic
import InSitu.Fault.Cause
import InSitu.Graph.Basic
import InSitu.Graph.Description
import InSitu.Graph.Evaluation
import InSitu.Graph.Layers
import InSitu.History.Basic
import InSitu.History.Gradient
import InSitu.History.Snapshot
import InSitu.History.Window
import InSitu.Json.Basic
import InSitu.Json.Printer
import InSitu.Json.Reader
import InSitu.Json.Record
import InSitu.Json.Token
import InSitu.Main
import InSitu.Mesh.Dataset
import InSitu.Mesh.Json
import InSitu.Mesh.PointMesh
import InSitu.Number.Layout
import InSitu.Number.Scalar
import InSitu.Number.Shortest
import InSitu.Operation.Basic
import InSitu.Operation.Catalog
import InSitu.Operation.Distribution
import InSitu.Operation.Inlet
import InSitu.Operation.Numeric
import InSitu.Operation.Operator
import InSitu.Operation.Query
import InSitu.Operation.Recall
import InSitu.Proofs.Axis.Literal
import InSitu.Proofs.Axis.Locating
import InSitu.Proofs.Axis.Partition
import InSitu.Proofs.Binning.Accumulation
import InSitu.Proofs.Binning.Buckets
import InSitu.Proofs.Binning.LargestBin
import InSitu.Proofs.Binning.NearestBin
import InSitu.Proofs.Binning.Numbering
import InSitu.Proofs.Binning.Searching
import InSitu.Proofs.Graph.Building
import InSitu.Proofs.Graph.Contents
import InSitu.Proofs.Graph.Dependency
import InSitu.Proofs.Graph.Describing
import InSitu.Proofs.Graph.Editing
import InSitu.Proofs.Graph.Evaluation
import InSitu.Proofs.Graph.Layering
import InSitu.Proofs.Graph.Outcome
import InSitu.Proofs.Graph.Parameters
import InSitu.Proofs.Graph.Reordering
import InSitu.Proofs.Graph.Verifying
import InSitu.Proofs.Histogram.Counting
import InSitu.Proofs.Histogram.Cumulative
import InSitu.Proofs.Histogram.Occupied
import InSitu.Proofs.Histogram.Quantile
import InSitu.Proofs.History.Addressing
import InSitu.Proofs.History.Bounds
import InSitu.Proofs.History.Capping
import InSitu.Proofs.History.Contents
import InSitu.Proofs.History.CycleWindow
import InSitu.Proofs.History.IndexWindow
import InSitu.Proofs.History.RangeGradient
import InSitu.Proofs.History.Scanning
import InSitu.Proofs.History.Soundness
import InSitu.Proofs.History.TimeWindow
import InSitu.Proofs.History.Timeline
import InSitu.Proofs.History.Trimming
import InSitu.Proofs.History.Untimed
import InSitu.Proofs.History.Window
import InSitu.Proofs.Json.Bounded
import InSitu.Proofs.Json.Indentation
import InSitu.Proofs.Json.Lines
import InSitu.Proofs.Json.Reading
import InSitu.Proofs.Json.Scanning
import InSitu.Proofs.Json.Texts
import InSitu.Proofs.Mesh.Columns
import InSitu.Proofs.Mesh.Lineout
import InSitu.Proofs.Number.Arithmetic
import InSitu.Proofs.Number.Digits
import InSitu.Proofs.Number.Distance
import InSitu.Proofs.Number.Extended
import InSitu.Proofs.Number.Integers
import InSitu.Proofs.Number.Merging
import InSitu.Proofs.Number.Order
import InSitu.Proofs.Number.Rounding
import InSitu.Proofs.Number.Unpacked
import InSitu.Proofs.Number.Words
import InSitu.Proofs.Operation.Axes
import InSitu.Proofs.Operation.Bounds
import InSitu.Proofs.Operation.Integers
import InSitu.Proofs.Operation.Needed
import InSitu.Proofs.Operation.Reading
import InSitu.Proofs.Sample.Champion
import InSitu.Proofs.Sample.CombinationTree
import InSitu.Proofs.Sample.Extremes
import InSitu.Proofs.Sample.FirstBest
import InSitu.Proofs.Sample.Moments
import InSitu.Proofs.Sample.Rounds
import InSitu.Proofs.Sample.Tournament
import InSitu.Proofs.Scenario.Playing
import InSitu.Proofs.Scenario.Printing
import InSitu.Proofs.Sequence
import InSitu.Proofs.Session.Axes
import InSitu.Proofs.Session.Cycle
import InSitu.Proofs.Session.Inspection
import InSitu.Proofs.Session.Ordering
import InSitu.Proofs.Session.Recall
import InSitu.Proofs.Session.Recording
import InSitu.Proofs.Session.Resaving
import InSitu.Proofs.Session.Restoring
import InSitu.Proofs.Session.Run
import InSitu.Proofs.Session.Saving
import InSitu.Proofs.Session.Surroundings
import InSitu.Proofs.Table
import InSitu.Proofs.Wire.Attributes
import InSitu.Proofs.Wire.Bounded
import InSitu.Proofs.Wire.Clipping
import InSitu.Proofs.Wire.Document
import InSitu.Proofs.Wire.Meaning
import InSitu.Proofs.Wire.Payload
import InSitu.Proofs.Wire.RoundTrip
import InSitu.Proofs.Wire.Storing
import InSitu.Proofs.Yielding
import InSitu.Sample.Statistics
import InSitu.Sample.Tournament
import InSitu.Scenario.Arguments
import InSitu.Scenario.Basic
import InSitu.Scenario.Playback
import InSitu.Scenario.Report
import InSitu.Session
import InSitu.Table
import InSitu.Text
import InSitu.Value.Attributes
import InSitu.Value.Basic
import InSitu.Value.Histogram
import InSitu.Value.Kind
import InSitu.Value.Text
import InSitu.Wire.Basic
import InSitu.Wire.Decode
import InSitu.Wire.Encode
import InSitu.Wire.Json
