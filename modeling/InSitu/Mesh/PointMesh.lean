import InSitu.Binning.Accumulate
import InSitu.Mesh.Dataset
import InSitu.Value.Histogram
/-!
A point cloud with named fields, held in memory, and its answers as a dataset.
-/

namespace InSitu

/-- The values of a field at the points. -/
inductive FieldData where
  | scalar (values : List Float)
  | components (columns : Table (List Float))

/-- Points in space with fields of one value per point. -/
structure PointMesh where
  cycle : Cycle
  time : Option Float
  topology : String
  coordinates : List (Point Float)
  fields : Table FieldData

/-- The name of the topology unless another is given. -/
def defaultTopology : String := "mesh"

namespace FieldData

def columns : FieldData → List (List Float)
  | .scalar values => [values]
  | .components columns => columns.values

/-- The names of the components, none for a scalar field. -/
def componentNames : FieldData → List String
  | .scalar _ => []
  | .components columns => columns.keys

end FieldData

namespace PointMesh

/-- The first column of the wrong size among the fields. -/
def firstMisfit? (points : Nat) : List (String × FieldData) → Option (String × Nat)
  | [] => none
  | (name, data) :: rest =>
    match data.columns.find? fun column => column.length != points with
    | some column => some (name, column.length)
    | none => firstMisfit? points rest

def check (mesh : PointMesh) : Except Fault Unit :=
  match firstMisfit? mesh.coordinates.length mesh.fields.entries with
  | some (name, size) => .error (.dataset (.fieldSize name size mesh.coordinates.length))
  | none => .ok ()

/-- The sum of squares of the components at a point. -/
def squaresAt (field : String) (points point : Nat) (total : Float) :
    List (String × List Float) → Except Fault Float
  | [] => .ok total
  | (name, column) :: rest =>
    match column[point]? with
    | some value => squaresAt field points point (total + value * value) rest
    | none => .error (.misuse "mesh" (.shortComponent name field column.length points))

def magnitudes (field : String) (points : Nat) (columns : Table (List Float)) :
    Except Fault (List Float) :=
  (List.range points).mapM fun point =>
    (squaresAt field points point 0.0 columns.entries).map Float.sqrt

/-- The samples of a field, of one of its components, or of a coordinate that no field hides. A
vector field without a chosen component gives its length. -/
def column (mesh : PointMesh) (field : String) (component : Option String) :
    Except Fault (List Float) :=
  match mesh.fields.get? field, component with
  | none, _ =>
    match Coordinate.ofName? field with
    | some coordinate => .ok (mesh.coordinates.map (·.get coordinate))
    | none => .error (.unknownField "mesh" field mesh.fields.keys)
  | some (.scalar values), none => .ok values
  | some (.scalar _), some component => .error (.component "mesh" (.scalarField field component))
  | some (.components columns), some component =>
    match columns.get? component with
    | some values => .ok values
    | none => .error (.component "mesh" (.unlisted field component))
  | some (.components columns), none => magnitudes field mesh.coordinates.length columns

/-- The smallest box around the points; without points its bounds are infinite and reversed. -/
def extent (points : List (Point Float)) : Box :=
  points.foldl
    (fun box point =>
      ⟨box.low.zipWith Number.least point, box.high.zipWith Number.greatest point⟩)
    ⟨Point.constant Number.infinity, Point.constant Number.negativeInfinity⟩

def bounds (mesh : PointMesh) (topology : Option String) : Except Fault Box :=
  match topology with
  | some name =>
    if name = mesh.topology then .ok (extent mesh.coordinates)
    else .error (.dataset (.unknownTopology name mesh.topology))
  | none => .ok (extent mesh.coordinates)

def located (mesh : PointMesh) (field : String) :
    Option (Indexed Float) → Except Fault FieldValue
  | none => .error (.dataset (.noSamples field))
  | some found =>
    .ok ⟨found.value, mesh.coordinates[found.index]?,
      some ⟨0, 0, Int64.ofNat found.index, .point⟩⟩

def unlocated (value : Float) : Except Fault FieldValue := .ok ⟨value, none, none⟩

def statistic (mesh : PointMesh) (statistic : FieldStatistic) (field : String)
    (component : Option String) : Except Fault FieldValue := do
  let samples ← mesh.column field component
  match statistic with
  | .min => mesh.located field (Sample.least? samples)
  | .max => mesh.located field (Sample.greatest? samples)
  | .sum => unlocated (Sample.sum samples)
  | .avg => unlocated (Sample.mean samples)
  | .nanCount => unlocated (Float.ofNat (samples.countP Float.isNaN))
  | .infCount => unlocated (Float.ofNat (samples.countP Float.isInf))

/-- The counts of a field in uniform bins that clamp. -/
def histogram (mesh : PointMesh) (field : String) (low high : Float) (count : Nat) :
    Except Fault (List Float) := do
  let samples ← mesh.column field none
  return bucketCounts samples low high count true

def binning (mesh : PointMesh) (request : BinningRequest) : Except Fault BinnedValues := do
  let columns ← request.axes.mapM fun axis => mesh.column axis.name none
  let values ← if request.reduced.isEmpty then .ok none
    else (mesh.column request.reduced request.component).map some
  return ⟨Binning.accumulate request.axes columns values request.reduction request.emptyValue,
    .point⟩

/-! ## Lineouts -/

/-- Evenly spaced points from one point to another, both included if there are two at least. -/
def segmentPoints {α : Type} [Scalar α] (start stop : Point α) (count : Nat) : List (Point α) :=
  (List.range count).map fun step =>
    let t : α :=
      if count = 1 then Scalar.zero else Scalar.ofNat step / Scalar.ofNat (count - 1)
    start.zipWith (fun first last => first + t * (last - first)) stop

def squaredDistance {α : Type} [Scalar α] (first second : Point α) : α :=
  let square (coordinate : Coordinate) : α :=
    let distance := first.get coordinate - second.get coordinate
    distance * distance
  square .x + square .y + square .z

/-- The place of the point nearest to a target, the first of several. -/
def nearestPoint? {α : Type} [Scalar α] (points : List (Point α)) (target : Point α) :
    Option Nat :=
  (Sample.least? (points.map fun point => squaredDistance point target)).map (·.index)

/-- The samples of fields at the points nearest to those of a segment. -/
def lineout (mesh : PointMesh) (request : LineoutRequest) : Except Fault Lineout := do
  let targets := segmentPoints request.start request.stop (Nat.max request.samples 1)
  let columns ← request.fields.mapM fun field => do
    let column ← mesh.column field none
    let samples := targets.map fun target =>
      ((nearestPoint? mesh.coordinates target).bind fun index => column[index]?).getD
        request.emptyValue
    return (field, samples)
  return ⟨request.emptyValue, targets, Table.ofList columns⟩

def toDataset (mesh : PointMesh) : Dataset where
  cycle := mesh.cycle
  time := mesh.time
  fieldNames := mesh.fields.keys
  components field := ((mesh.fields.get? field).map FieldData.componentNames).getD []
  topologyNames := [mesh.topology]
  bounds := mesh.bounds
  statistic := mesh.statistic
  histogram := mesh.histogram
  binning := mesh.binning
  lineout := mesh.lineout

end PointMesh

end InSitu
