import Telemetry.Decimal.Layout
import Telemetry.Text.Inspect
import Telemetry.Text.Integer
import Telemetry.Text.Order

/-!
# Field values

What a field of a request or response holds. An object is known only by the
identity and name of its type and by its getters, in slot order. Reading a
getter gives a value, nothing, or a fault: the getter's own code failed.
-/

namespace Telemetry.Field

/-- The identity of an object's type. -/
abbrev TypeKey := Nat

/-- The code of a field or getter failed, with this message. -/
structure Fault where
  message : String
  deriving DecidableEq, Repr

mutual
inductive Value where
  | text (s : String)
  | int (n : Int64)
  | float (x : Float)
  | bool (b : Bool)
  | bytes (bs : List UInt8)
  | list (items : List Value)
  /-- A mapping, known by its keys. -/
  | keys (names : List String)
  | object (target : Object)
inductive Object where
  | mk (type : TypeKey) (typeName : String) (getters : List Getter)
inductive Getter where
  | mk (name : String) (reading : Reading)
inductive Reading where
  | value (v : Value)
  | absent
  | fault (f : Fault)
end

def Getter.name : Getter → String
  | .mk name _ => name

def Getter.reading : Getter → Reading
  | .mk _ reading => reading

def Object.type : Object → TypeKey
  | .mk type _ _ => type

def Object.typeName : Object → String
  | .mk _ typeName _ => typeName

def Object.getters : Object → List Getter
  | .mk _ _ getters => getters

def Object.names (target : Object) : List String :=
  target.getters.map Getter.name

/-- Calls the getter in a slot; there is nothing in a slot beyond the last. -/
def Object.call (target : Object) (slot : Nat) : Reading :=
  match target.getters[slot]? with
  | some getter => getter.reading
  | none => .absent

/-- The value read, if any; a fault counts as none. -/
def Reading.toOption : Reading → Option Value
  | .value v => some v
  | .absent => none
  | .fault _ => none

def Reading.ofOption : Option Value → Reading
  | some v => .value v
  | none => .absent

def Value.kind : Value → String
  | .text _ => "string"
  | .int _ => "integer"
  | .float _ => "float"
  | .bool _ => "boolean"
  | .bytes _ => "bytes"
  | .list _ => "list"
  | .keys _ => "map"
  | .object _ => "object"

def Value.asText? : Value → Option String
  | .text s => some s
  | _ => none

-- ---------------------------------------------------------------------------
-- Inspection
-- ---------------------------------------------------------------------------

def inspectList (items : List String) : String :=
  "[" ++ ", ".intercalate items ++ "]"

mutual
/-- The value as a developer sees it. Bytes are counted, never shown. -/
def Value.inspect : Value → String
  | .text s => "Str(" ++ Text.inspect s ++ ")"
  | .int n => "Int(" ++ Text.ofInt64 n ++ ")"
  | .float x => "Float(" ++ Decimal.inspection.write x ++ ")"
  | .bool b => "Bool(" ++ (if b then "true" else "false") ++ ")"
  | .bytes bs => "Bytes(" ++ toString bs.length ++ " bytes)"
  | .list items => "List(" ++ inspectList (inspectItems items) ++ ")"
  | .keys names => "Map(" ++ inspectList (names.map Text.inspect) ++ ")"
  | .object target => "Object(" ++ target.typeName ++ ")"
def inspectItems : List Value → List String
  | [] => []
  | v :: rest => v.inspect :: inspectItems rest
end

end Telemetry.Field
