import Telemetry.Payload.BodyAttribute
import Telemetry.Text.Pad

/-!
# Mappings

A mapping binds an attribute key to a field path in one phase of a call and
says how the value at the end of the path becomes the attribute.
-/

namespace Telemetry.Mapping

inductive Phase where
  | request
  | response
  deriving DecidableEq, Repr

def Phase.name : Phase → String
  | .request => "request"
  | .response => "response"

def Phase.write (column : Text.Column) (phase : Phase) : String :=
  column.write phase.name

inductive Decode where
  /-- The text of the value. -/
  | text
  /-- The text of the value, read as an integer. -/
  | count
  /-- The value is a payload, and the attribute is read from inside it. -/
  | body (wanted : Payload.BodyAttribute)
  deriving DecidableEq, Repr

structure FieldPath where
  first : String
  rest : List String := []
  deriving DecidableEq, Repr

instance : Coe String FieldPath := ⟨fun first => { first }⟩

namespace FieldPath

def segments (path : FieldPath) : List String :=
  path.first :: path.rest

def emptyMessage : String :=
  "field path must not be empty"

def ofSegments : List String → Except String FieldPath
  | [] => .error emptyMessage
  | first :: rest => .ok { first, rest }

def last (path : FieldPath) : String :=
  path.rest.getLastD path.first

def display (path : FieldPath) : String :=
  ".".intercalate path.segments

end FieldPath

structure FieldMapping where
  key : String
  path : FieldPath
  phase : Phase
  decode : Decode
  deriving DecidableEq, Repr

namespace FieldMapping

def request (key : String) (path : FieldPath) : FieldMapping :=
  ⟨key, path, .request, .text⟩

def response (key : String) (path : FieldPath) : FieldMapping :=
  ⟨key, path, .response, .text⟩

def requestCount (key : String) (path : FieldPath) : FieldMapping :=
  ⟨key, path, .request, .count⟩

def responseCount (key : String) (path : FieldPath) : FieldMapping :=
  ⟨key, path, .response, .count⟩

/-- A mapping of a payload attribute, under the attribute's own key. -/
def body (wanted : Payload.BodyAttribute) (path : FieldPath) (phase : Phase) : FieldMapping :=
  ⟨wanted.key, path, phase, .body wanted⟩

def isPayload (mapping : FieldMapping) : Bool :=
  match mapping.decode with
  | .body _ => true
  | .text | .count => false

end FieldMapping

end Telemetry.Mapping
