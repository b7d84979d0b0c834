import Mathlib
import InSitu.Proofs.Mesh.Columns
import InSitu.Proofs.Sample.FirstBest

/-!
# Lineouts

A lineout takes the values of its fields at the points nearest to some positions on a segment.
Which point is nearest is decided by computed distances, the first of several being taken, and each
field is sampled from its own column at the same place.  Where nothing is rounded the positions
divide the segment evenly.
-/

namespace InSitu.PointMesh

/-- Points from one end of a segment to the other, each as far from the next. -/
structure DividesEvenly (start stop : Point ℚ) (points : List (Point ℚ)) : Prop where
  first : points[0]? = some start
  last : 1 < points.length → points[points.length - 1]? = some stop
  stride : ∃ stride : Point ℚ, ∀ place point next, points[place]? = some point →
    points[place + 1]? = some next → next = point.zipWith (· + ·) stride

theorem length_segmentPoints {α : Type} [Scalar α] (start stop : Point α) (count : Nat) :
    (segmentPoints start stop count).length = count := by
  rw [segmentPoints, List.length_map, List.length_range]

/-- The point of a segment that lies behind a share of it. -/
def pointBehind (start stop : Point ℚ) (share : ℚ) : Point ℚ :=
  start.zipWith (fun first last => first + share * (last - first)) stop

theorem getElem?_segmentPoints (start stop : Point ℚ) {count place : Nat} (within : place < count) :
    (segmentPoints start stop count)[place]? =
      some (pointBehind start stop (place / (count - 1 : Nat))) := by
  have share : (if count = 1 then Scalar.zero
      else Scalar.ofNat place / Scalar.ofNat (count - 1) : ℚ) = place / (count - 1 : Nat) := by
    split_ifs with single
    · rw [single, Nat.sub_self, Nat.cast_zero, div_zero, zero_rat]
    · rfl
  rw [segmentPoints, List.getElem?_map, List.getElem?_range within, Option.map_some]
  simp only [share]
  rfl

theorem dividesEvenly_segmentPoints (start stop : Point ℚ) {count : Nat} (positive : 0 < count) :
    DividesEvenly start stop (segmentPoints start stop count) := by
  constructor
  · rw [getElem?_segmentPoints start stop positive]
    simp [pointBehind, Point.zipWith]
  · rw [length_segmentPoints]
    intro several
    have gaps : ((count - 1 : Nat) : ℚ) ≠ 0 := Nat.cast_ne_zero.mpr (by omega)
    rw [getElem?_segmentPoints start stop (by omega), div_self gaps]
    simp [pointBehind, Point.zipWith]
  · refine ⟨start.zipWith (fun first last => (last - first) / (count - 1 : Nat)) stop, ?_⟩
    intro place point next isPoint isNext
    have within : place + 1 < count := by
      rw [← length_segmentPoints start stop count]
      exact (List.getElem?_eq_some_iff.mp isNext).1
    rw [getElem?_segmentPoints start stop (by omega)] at isPoint
    rw [getElem?_segmentPoints start stop within] at isNext
    cases isPoint
    cases isNext
    simp only [pointBehind, Point.zipWith, Point.mk.injEq]
    push_cast
    refine ⟨?_, ?_, ?_⟩ <;> ring

/-- The first of the points whose computed squared distance to the target is smallest. -/
def IsNearestPoint (points : List (Point Float)) (target : Point Float) (place : Nat) : Prop :=
  ∃ point, points[place]? = some point ∧ ∀ other otherPoint, points[other]? = some otherPoint →
    squaredDistance point target ≤ squaredDistance otherPoint target ∧
      (other < place → squaredDistance point target < squaredDistance otherPoint target)

theorem nearestPoint?_nil (target : Point Float) : nearestPoint? [] target = none := by
  simp [nearestPoint?, Sample.least?, champion?, indexed, reduceInRounds?]

theorem IsNearestPoint.lt_length {points : List (Point Float)} {target : Point Float} {place : Nat}
    (isNearest : IsNearestPoint points target place) : place < points.length := by
  obtain ⟨_, isPoint, _⟩ := isNearest
  exact (List.getElem?_eq_some_iff.mp isPoint).1

theorem exists_nearestPoint {points : List (Point Float)} {target : Point Float}
    (nonempty : points ≠ [])
    (numbers : ∀ point ∈ points, (squaredDistance point target).isNaN = false) :
    ∃ place, nearestPoint? points target = some place ∧ IsNearestPoint points target place := by
  have filled : points.map (fun point => squaredDistance point target) ≠ [] :=
    fun none => nonempty (List.map_eq_nil_iff.mp none)
  obtain ⟨found, isFound, isDistance, least⟩ :=
    Sample.exists_first_least filled (List.forall_mem_map.mpr numbers)
  rw [List.getElem?_map] at isDistance
  obtain ⟨point, isPoint, distance⟩ := Option.map_eq_some_iff.mp isDistance
  refine ⟨found.index, congrArg (Option.map _) isFound, point, isPoint,
    fun other otherPoint isOther => ?_⟩
  rw [distance]
  refine least other _ ?_
  rw [List.getElem?_map, isOther]
  rfl

/-- What a field is at a point: its value, the length of its components, or, if no field has the
name, the coordinate. -/
def ShowsAt (mesh : PointMesh) (field : String) (place : Nat) (value : Float) : Prop :=
  match mesh.fields.get? field with
  | some (.scalar values) => values[place]? = some value
  | some (.components columns) => value = magnitudeOf (columns.values.filterMap (·[place]?))
  | none => ∃ coordinate point, Coordinate.ofName? field = some coordinate ∧
    mesh.coordinates[place]? = some point ∧ value = point.get coordinate

variable {mesh : PointMesh} {request : LineoutRequest}

/-- A sound mesh has a column for each field it names, which shows the field at every point. -/
theorem exists_column (sound : mesh.check = .ok ()) {field : String}
    (known : mesh.toDataset.Names field none) :
    ∃ column, mesh.column field none = .ok column ∧ column.length = mesh.coordinates.length ∧
      ∀ place value, column[place]? = some value → mesh.ShowsAt field place value := by
  unfold column ShowsAt
  cases found : mesh.fields.get? field with
  | none =>
      rw [names_toDataset_of_hidden found] at known
      obtain ⟨coordinate, isCoordinate⟩ := Option.isSome_iff_exists.mp known
      simp only [isCoordinate]
      refine ⟨_, rfl, List.length_map _, fun place value shown => ?_⟩
      rw [List.getElem?_map] at shown
      obtain ⟨point, isPoint, same⟩ := Option.map_eq_some_iff.mp shown
      exact ⟨coordinate, point, rfl, isPoint, same.symm⟩
  | some data =>
      have whole := check_eq_ok_iff.mp sound field data found
      cases data with
      | scalar values =>
          exact ⟨values, rfl, whole values (List.mem_singleton_self values), fun _ _ shown => shown⟩
      | components columns =>
          refine ⟨_, magnitudes_eq whole, by simp, fun place value shown => ?_⟩
          rw [List.getElem?_map] at shown
          obtain ⟨_, isPlace, same⟩ := Option.map_eq_some_iff.mp shown
          obtain ⟨_, rfl⟩ := List.getElem?_eq_some_iff.mp isPlace
          rw [List.getElem_range] at same
          exact same.symm

/-! ## Samples -/

/-- A sample of a field is what the field shows at the nearest point, or the empty value if there
are no points. -/
def SampledAt (mesh : PointMesh) (field : String) (emptyValue : Float) (target : Point Float)
    (sample : Float) : Prop :=
  mesh.coordinates = [] ∧ sample = emptyValue ∨
    ∃ place, IsNearestPoint mesh.coordinates target place ∧ mesh.ShowsAt field place sample

/-- The samples that a lineout takes from a column. -/
def sampleColumn (mesh : PointMesh) (request : LineoutRequest) (column : List Float) : List Float :=
  (segmentPoints request.start request.stop (Nat.max request.samples 1)).map fun target =>
    ((nearestPoint? mesh.coordinates target).bind fun index => column[index]?).getD
      request.emptyValue

theorem sampledAt_nearestPoint {field : String} {column : List Float} {target : Point Float}
    (emptyValue : Float)
    (numbers : ∀ point ∈ mesh.coordinates, (squaredDistance point target).isNaN = false)
    (whole : column.length = mesh.coordinates.length)
    (shows : ∀ place value, column[place]? = some value → mesh.ShowsAt field place value) :
    mesh.SampledAt field emptyValue target
      (((nearestPoint? mesh.coordinates target).bind fun index => column[index]?).getD
        emptyValue) := by
  by_cases none : mesh.coordinates = []
  · refine .inl ⟨none, ?_⟩
    rw [none, nearestPoint?_nil]
    rfl
  · obtain ⟨place, isFound, isNearest⟩ := exists_nearestPoint none numbers
    have within : place < column.length := by
      rw [whole]
      exact isNearest.lt_length
    have isValue := List.getElem?_eq_getElem within
    rw [isFound, Option.bind_some, isValue, Option.getD_some]
    exact .inr ⟨place, isNearest, shows place _ isValue⟩

theorem lineout_eq {columnOf : String → List Float}
    (columns : ∀ field ∈ request.fields, mesh.column field none = .ok (columnOf field)) :
    mesh.lineout request =
      .ok ⟨request.emptyValue,
        segmentPoints request.start request.stop (Nat.max request.samples 1),
        Table.ofList (request.fields.map fun field =>
          (field, mesh.sampleColumn request (columnOf field)))⟩ := by
  have sampled : request.fields.mapM (fun field => do
      let column ← mesh.column field none
      return (field, mesh.sampleColumn request column)) =
        .ok (request.fields.map fun field =>
          (field, mesh.sampleColumn request (columnOf field))) := by
    refine mapM_eq_pure_map fun field member => ?_
    rw [columns field member]
    rfl
  change (request.fields.mapM fun field => do
    let column ← mesh.column field none
    return (field, mesh.sampleColumn request column)).bind _ = _
  rw [sampled]
  rfl

/-- A lineout of a sound mesh over fields it names is answered if the computed squared distances
from its positions to the points are numbers.  It has as many positions as samples are asked for,
one at least, and as many samples of each field: at each position what the field shows at the first
of the nearest points, or the empty value if the mesh has no points.  In exact arithmetic the
positions divide the segment evenly, from its start to its end if there are two at least. -/
theorem lineout_samples_nearest_points (sound : mesh.check = .ok ())
    (known : ∀ field ∈ request.fields, mesh.toDataset.Names field none)
    (numbers : ∀ target ∈ segmentPoints request.start request.stop (max request.samples 1),
      ∀ point ∈ mesh.coordinates, (squaredDistance point target).isNaN = false) :
    (∃ answer, mesh.lineout request = .ok answer ∧
      answer.coordinates = segmentPoints request.start request.stop (max request.samples 1) ∧
      answer.coordinates.length = max request.samples 1 ∧
      (∀ field, field ∈ answer.columns.keys ↔ field ∈ request.fields) ∧
      ∀ field ∈ request.fields, ∃ samples, answer.columns.get? field = some samples ∧
        samples.length = max request.samples 1 ∧
        List.Forall₂ (mesh.SampledAt field request.emptyValue) answer.coordinates samples) ∧
    ∀ (start stop : Point ℚ) (samples : Nat),
      (segmentPoints start stop (max samples 1)).length = max samples 1 ∧
      DividesEvenly start stop (segmentPoints start stop (max samples 1)) := by
  choose! columnOf isColumn whole shows using fun field member =>
    exists_column sound (known field member)
  refine ⟨⟨_, lineout_eq isColumn, rfl, length_segmentPoints _ _ _, fun field => ?_,
    fun field member => ⟨_, Table.get?_ofList_map member _, ?_, ?_⟩⟩, fun start stop samples =>
      ⟨length_segmentPoints _ _ _, dividesEvenly_segmentPoints start stop (by omega)⟩⟩
  · rw [Table.mem_keys_ofList, Entries.keys, List.map_map]
    simp
  · rw [sampleColumn, List.length_map]
    exact length_segmentPoints _ _ _
  · rw [sampleColumn, List.forall₂_map_right_iff, List.forall₂_same]
    intro target isTarget
    exact sampledAt_nearestPoint request.emptyValue (numbers target isTarget)
      (whole field member) (shows field member)

/-- Three points, all as far from the middle of the segment, with a number, a vector and a
coordinate to sample. -/
def flankedMesh : PointMesh where
  cycle := 0
  time := none
  topology := defaultTopology
  coordinates := [⟨0.0, 0.0, 0.0⟩, ⟨2.0, 0.0, 0.0⟩, ⟨1.0, 1.0, 0.0⟩]
  fields := Table.ofList
    [("pressure", .scalar [5.0, 7.0, 9.0]),
      ("velocity", .components (Table.ofList [("u", [3.0, 0.0, 1.0]), ("v", [4.0, 2.0, 1.0])]))]

def acrossFlanked : LineoutRequest where
  start := ⟨0.0, 0.0, 0.0⟩
  stop := ⟨2.0, 0.0, 0.0⟩
  samples := 3
  fields := ["pressure", "velocity", "y"]
  emptyValue := Number.notANumber

theorem flankedMesh_sampled_across :
    flankedMesh.check = .ok () ∧
      (∀ field ∈ acrossFlanked.fields, flankedMesh.toDataset.Names field none) ∧
      (∀ target ∈ segmentPoints acrossFlanked.start acrossFlanked.stop
          (max acrossFlanked.samples 1),
        ∀ point ∈ flankedMesh.coordinates, (squaredDistance point target).isNaN = false) ∧
      ∃ answer, flankedMesh.lineout acrossFlanked = .ok answer ∧ answer.coordinates.length = 3 ∧
        ∃ samples, answer.columns.get? "velocity" = some samples ∧ samples.length = 3 ∧
          List.Forall₂ (flankedMesh.SampledAt "velocity" Number.notANumber) answer.coordinates
            samples := by
  have sound : flankedMesh.check = .ok () := rfl
  have known : ∀ field ∈ acrossFlanked.fields, flankedMesh.toDataset.Names field none := by
    have named : ∀ field ∈ acrossFlanked.fields, field ∈ flankedMesh.fields.keys ∨
        (flankedMesh.toDataset.coordinate? field).isSome = true := by
      decide
    intro field member
    rcases named field member with isField | isCoordinate
    · exact .inr ⟨List.contains_iff_mem.mpr isField, nofun⟩
    · exact .inl isCoordinate
  have numbers : ∀ target ∈ segmentPoints acrossFlanked.start acrossFlanked.stop
      (max acrossFlanked.samples 1),
      ∀ point ∈ flankedMesh.coordinates, (squaredDistance point target).isNaN = false := by
    decide +kernel
  obtain ⟨⟨answer, answered, _, length, _, sampled⟩, _⟩ :=
    lineout_samples_nearest_points sound known numbers
  have asked : "velocity" ∈ acrossFlanked.fields := by
    decide
  obtain ⟨samples, found, sameLength, nearest⟩ := sampled "velocity" asked
  exact ⟨sound, known, numbers, answer, answered, length, samples, found, sameLength, nearest⟩

/-- Of the three points at the same distance the first is taken. -/
example : nearestPoint? flankedMesh.coordinates ⟨1.0, 0.0, 0.0⟩ = some 0 := by
  decide +kernel

end InSitu.PointMesh
