import InSitu.Config
import InSitu.History.Basic
import InSitu.Mesh.Dataset
/-!
The inlets of a node, what is fed into them, and how a node reads it.

An input that is not connected and an input with the empty value are the same thing: there is
nothing to read.
-/

namespace InSitu

/-- An input of a node. -/
structure Inlet where
  name : String
  required : Bool

def Inlet.needed (name : String) : Inlet := ⟨name, true⟩

def Inlet.optional (name : String) : Inlet := ⟨name, false⟩

/-- What a node hands on: a value, and the name of the expression from which it was recalled. -/
structure Output where
  value : Value
  origin : Option String := none

/-- What an evaluation can see besides its inputs. -/
structure Environment where
  history : ValueHistory
  mesh : Dataset
  config : Config

/-- The outputs that feed a node, by inlet. -/
structure Inputs where
  node : String
  bound : Table Output

namespace Inputs

/-- The value at an inlet, none if there is nothing to read. -/
def get? (inputs : Inputs) (inlet : String) : Option Value :=
  (inputs.bound.get? inlet).bind fun output =>
    if output.value.isNull then none else some output.value

/-- The name of the expression from which the value at an inlet was recalled. -/
def origin? (inputs : Inputs) (inlet : String) : Option String :=
  (inputs.bound.get? inlet).bind (·.origin)

def missing (inputs : Inputs) (inlet : String) : Fault := .missingInput inputs.node inlet

/-- The fault of an inlet with a value of the wrong kind. -/
def mismatch (inputs : Inputs) (inlet : String) (expected : Expected) (found : Value) : Fault :=
  .typeMismatch inputs.node inlet expected found.kind

def required (inputs : Inputs) (inlet : String) : Except Fault Value :=
  match inputs.get? inlet with
  | some value => .ok value
  | none => .error (inputs.missing inlet)

/-- What is read from the value at an inlet, none if there is nothing to read. -/
def read? {α : Type} (inputs : Inputs) (inlet : String) (expected : Expected)
    (read : Value → Option α) : Except Fault (Option α) :=
  match inputs.get? inlet with
  | none => .ok none
  | some value =>
    match read value with
    | some result => .ok (some result)
    | none => .error (inputs.mismatch inlet expected value)

def read {α : Type} (inputs : Inputs) (inlet : String) (expected : Expected)
    (read : Value → Option α) : Except Fault α := do
  match ← inputs.read? inlet expected read with
  | some result => return result
  | none => .error (inputs.missing inlet)

def number? (inputs : Inputs) (inlet : String) : Except Fault (Option Float) :=
  inputs.read? inlet .number Value.double?

def number (inputs : Inputs) (inlet : String) : Except Fault Float :=
  inputs.read inlet .number Value.double?

def int? (inputs : Inputs) (inlet : String) : Except Fault (Option Int64) :=
  inputs.read? inlet .int Value.int?

def int (inputs : Inputs) (inlet : String) : Except Fault Int64 :=
  inputs.read inlet .int Value.int?

def bool? (inputs : Inputs) (inlet : String) : Except Fault (Option Bool) :=
  inputs.read? inlet .bool Value.bool?

def bool (inputs : Inputs) (inlet : String) : Except Fault Bool :=
  inputs.read inlet .bool Value.bool?

def string? (inputs : Inputs) (inlet : String) : Except Fault (Option String) :=
  inputs.read? inlet .string Value.string?

def string (inputs : Inputs) (inlet : String) : Except Fault String :=
  inputs.read inlet .string Value.string?

/-- A field and perhaps one of its components, given as a reference or by name. -/
def fieldReference? : Value → Option (String × Option String)
  | .field name component => some (name, component)
  | .string name => some (name, none)
  | _ => none

def field? (inputs : Inputs) (inlet : String) : Except Fault (Option (String × Option String)) :=
  inputs.read? inlet .fieldOrString fieldReference?

def field (inputs : Inputs) (inlet : String) : Except Fault (String × Option String) :=
  inputs.read inlet .fieldOrString fieldReference?

def vector (inputs : Inputs) (inlet : String) : Except Fault (Point Float) :=
  inputs.read inlet .vector Value.vector?

def array (inputs : Inputs) (inlet : String) : Except Fault NumericArray :=
  inputs.read inlet .array Value.array?

end Inputs

end InSitu
