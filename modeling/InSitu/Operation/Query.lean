import InSitu.Operation.Inlet
import InSitu.Text
/-!
Queries to the dataset of the current cycle.
-/

namespace InSitu.Run

/-- A field must be published, and have the component if one is chosen. -/
def checkField (node : String) (mesh : Dataset) (field : String) (component : Option String) :
    Except Fault Unit :=
  if !mesh.hasField field then .error (.unknownField node field mesh.fieldNames)
  else match component with
    | none => .ok ()
    | some component =>
      if mesh.hasComponent field component then .ok ()
      else .error (.component node (.unknown field component (mesh.components field)))

/-- The cycle number, as a signed word. -/
def cycle (environment : Environment) : Value := .int environment.mesh.cycle.toInt64

def time (environment : Environment) : Except Fault Value :=
  match environment.mesh.time with
  | some time => .ok (.double time)
  | none => .error (.dataset .noTime)

def filled (text : Option String) : Option String := text.filter fun text => !text.isEmpty

/-- A reference to a field, perhaps to one of its components. -/
def field (inputs : Inputs) (environment : Environment) : Except Fault Value := do
  let name ← inputs.string "field_name"
  let component ← inputs.string? "component"
  checkField inputs.node environment.mesh name (filled component)
  return .field name (filled component)

/-- A reference to a topology; the only one needs no name. -/
def topology (inputs : Inputs) (environment : Environment) : Except Fault Value := do
  let known := environment.mesh.topologyNames
  match ← inputs.string? "arg1" with
  | some name =>
    if environment.mesh.hasTopology name then return .topology name
    else .error (.misuse inputs.node (.unknownTopology name known))
  | none =>
    match known with
    | [only] => return .topology only
    | _ => .error (.misuse inputs.node (.ambiguousTopology known))

def topologyName? : Value → Option String
  | .topology name | .string name => some name
  | _ => none

/-- The extent of a topology, or of the whole dataset. -/
def bounds (inputs : Inputs) (environment : Environment) : Except Fault Value := do
  let topology ← inputs.read? "topology" .topologyOrString topologyName?
  (environment.mesh.bounds topology).map .aabb

/-- A statistic of a field; an extreme value comes with its place. -/
def fieldStatistic (statistic : FieldStatistic) (inputs : Inputs) (environment : Environment) :
    Except Fault Value := do
  let (field, component) ← inputs.field "arg1"
  checkField inputs.node environment.mesh field component
  let found ← environment.mesh.statistic statistic field component
  if statistic.isLocated then
    let position := found.position.getD (Point.constant Number.notANumber)
    return .valuePosition ⟨found.value, position, found.element⟩
  else return .double found.value

/-- The fields of a lineout: a list of names, or all scalar fields. -/
def lineoutFields (environment : Environment) : Option String → List String
  | some list => Text.namesBetweenCommas list
  | none => environment.mesh.fieldNames.filter environment.mesh.isScalar

def lineout (inputs : Inputs) (environment : Environment) : Except Fault Value := do
  let samples ← inputs.int "samples"
  if samples < 1 then .error (.badArgument inputs.node (.tooFewSamples samples))
  let start ← inputs.vector "start"
  let stop ← inputs.vector "end"
  let list ← inputs.string? "fields"
  let fields := lineoutFields environment list
  fields.forM fun field => checkField inputs.node environment.mesh field none
  let emptyValue ← inputs.number? "empty_val"
  let request : LineoutRequest :=
    ⟨start, stop, samples.toInt.toNat, fields, emptyValue.getD Number.notANumber⟩
  (environment.mesh.lineout request).map .lineout

end InSitu.Run
