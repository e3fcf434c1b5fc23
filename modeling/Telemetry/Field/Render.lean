import Telemetry.Field.Accessor
import Telemetry.Json.Writer

/-!
# Rendering field values

A sequence or a mapping is written `[a,b]`, an object as the compact JSON of
its getters, anything else in its natural form. Unlike a read through an
accessor, rendering calls the getters of an object bare: one that faults
makes the rendering fault.
-/

namespace Telemetry.Field

/-- Objects inside this many others are left out of a rendering. -/
def maxRenderDepth : Nat := 16

mutual
/-- The JSON form of a value inside `depth` objects, if it has one. -/
def Value.jsonAt (depth : Nat) : Value → Except Fault (Option Json.Value)
  | .text s => .ok (some (.string s))
  | .int n => .ok (some (.number (.ofInt64 n)))
  | .float x => .ok ((Json.Number.ofFloat? x).map .number)
  | .bool b => .ok (some (.bool b))
  | .bytes bs => .ok ((Utf8.toString? bs).map .string)
  | .list items => do return some (.array (← jsonItems depth items))
  | .keys names => .ok (some (.array (names.map .string)))
  | .object target => do return (← target.membersAt depth).map .object
/-- The members of an object that is inside `depth` others. A repeated name
keeps its first place and its last value. -/
def Object.membersAt (depth : Nat) : Object → Except Fault (Option (List (String × Json.Value)))
  | .mk _ _ getters =>
    if maxRenderDepth ≤ depth then .ok none
    else do return some (Entries.ofList (← jsonMembers (depth + 1) getters))
def jsonItems (depth : Nat) : List Value → Except Fault (List Json.Value)
  | [] => .ok []
  | v :: rest => do
    match ← v.jsonAt depth with
    | some json => return json :: (← jsonItems depth rest)
    | none => jsonItems depth rest
def jsonMembers (depth : Nat) : List Getter → Except Fault (List (String × Json.Value))
  | [] => .ok []
  | .mk name reading :: rest => do
    match ← reading.jsonAt depth with
    | some json => return (name, json) :: (← jsonMembers depth rest)
    | none => jsonMembers depth rest
def Reading.jsonAt (depth : Nat) : Reading → Except Fault (Option Json.Value)
  | .value v => v.jsonAt depth
  | .absent => .ok none
  | .fault f => .error f
end

def Value.toJson (v : Value) : Except Fault (Option Json.Value) :=
  v.jsonAt 0

/-- The texts in square brackets, unless there are none. -/
def bracketed : List String → Option String
  | [] => none
  | items => some ("[" ++ ",".intercalate items ++ "]")

def unlessEmpty (s : String) : Option String :=
  if s.isEmpty then none else some s

def Object.render (target : Object) : Except Fault (Option String) := do
  match ← target.membersAt 0 with
  | none => return none
  | some [] => return none
  | some members => return some (Json.Value.object members).write

mutual
/-- The text of a value. Empty texts, sequences, mappings and objects have
none, nor do bytes that are not UTF-8. -/
def Value.render : Value → Except Fault (Option String)
  | .text s => .ok (unlessEmpty s)
  | .int n => .ok (some (Text.ofInt64 n))
  | .float x => .ok (some (Decimal.plain.write x))
  | .bool b => .ok (some (if b then "true" else "false"))
  | .bytes bs => .ok ((Utf8.toString? bs).bind unlessEmpty)
  | .list items => do return bracketed (← renderItems items)
  | .keys names => .ok (bracketed names)
  | .object target => target.render
def renderItems : List Value → Except Fault (List String)
  | [] => .ok []
  | v :: rest => do
    match ← v.render with
    | some s => return s :: (← renderItems rest)
    | none => renderItems rest
end

end Telemetry.Field
