import Telemetry.Decimal.Read
import Telemetry.Failure
import Telemetry.Text.Blank

/-!
# Nodes as single values

The text of a node, and its reading as a probability or a count. Numbers
written as strings are read like numbers; a number that a kind does not
admit is a failure, never another number.
-/

namespace Telemetry.Payload

def nonEmpty (s : String) : Option String :=
  if s.isEmpty then none else some s

/-- The text of a node, compact JSON for a container. Empty strings, nulls
and rejected numbers have none. -/
def Tree.render : Tree → Option String
  | .string s => nonEmpty s
  | .integer n => some (Text.ofInt64 n)
  | .fraction x => some (Decimal.plain.write x)
  | .bool b => some (if b then "true" else "false")
  | .null => none
  | .rejected _ => none
  | t => some t.toJson.write

/-- A number from zero to one, white space around it allowed. -/
def probability? (s : String) : Option Float :=
  (Decimal.float? (Text.trim s)).filter inUnitInterval

def count? (s : String) : Option Int64 :=
  Text.int64? (Text.trim s)

def Tree.toProbability : Tree → Except Failure Float
  | .fraction x => .ok x
  | .integer n =>
    if n = 0 then .ok 0.0
    else if n = 1 then .ok 1.0
    else .error (.outOfRange (Text.ofInt64 n))
  | .rejected literal => .error (.outOfRange literal)
  | .string s =>
    match probability? s with
    | some x => .ok x
    | none => .error (.outOfRange s)
  | t => .error (.mismatch "probability" t.kind)

def Tree.toCount : Tree → Except Failure Int64
  | .integer n => .ok n
  | .rejected literal => .error (.outOfRange literal)
  | .string s =>
    match count? s with
    | some n => .ok n
    | none => .error (.mismatch "integer" "string")
  | t => .error (.mismatch "integer" t.kind)

def charsPerToken : Nat := 6

/-- The number of tokens that a text of this length may have, rounded up. -/
def approximateCount (s : String) : Int64 :=
  Int64.ofNat ((s.length + (charsPerToken - 1)) / charsPerToken)

end Telemetry.Payload
