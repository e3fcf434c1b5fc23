import Telemetry.Entries
import Telemetry.Json.Reader
import Telemetry.Json.Writer

/-!
# Payload trees

A request or response body is a JSON document, read into a tree on which
numbers obey two rules: an integer fits `Int64`, and a number with a
fraction or an exponent lies between zero and one. A number that breaks its
rule does not spoil the document; it becomes a rejected literal, and every
other value stays reachable.

The members of an object are kept in a map, which lists them in an order of
its own: whenever a map is built, it ranks its keys anew, and nothing in the
document says how. A `Ranking` is what the maps of one tree happen to do, and
every order of the members is that of some ranking.
-/

namespace Telemetry.Payload

inductive Tree where
  /-- Members in the order in which their map lists them, each key once. -/
  | object (members : List (String × Tree))
  | array (items : List Tree)
  | string (s : String)
  | integer (n : Int64)
  /-- A number from zero to one. -/
  | fraction (x : Float)
  | bool (b : Bool)
  | null
  /-- A number that breaks its rule, as text. -/
  | rejected (literal : String)

def Tree.kind : Tree → String
  | .object _ => "object"
  | .array _ => "array"
  | .string _ => "string"
  | .integer _ => "integer"
  | .fraction _ => "fraction"
  | .bool _ => "boolean"
  | .null => "null"
  | .rejected _ => "rejected number"

def Tree.isNull : Tree → Bool
  | .null => true
  | _ => false

def Tree.asString? : Tree → Option String
  | .string s => some s
  | _ => none

/-- Finite, and from zero to one. Minus zero counts. -/
def inUnitInterval (x : Float) : Bool :=
  x.isFinite && 0.0 ≤ x && x ≤ 1.0

def Tree.ofNumber (n : Json.Number) : Tree :=
  match n with
  | .float x => if inUnitInterval x then .fraction x else .rejected n.write
  | _ =>
    match n.toInt64? with
    | some i => .integer i
    | none => .rejected n.write

mutual
/-- The tree of a value, with the members of each object in the value's order. -/
def Tree.written : Json.Value → Tree
  | .null => .null
  | .bool b => .bool b
  | .number n => .ofNumber n
  | .string s => .string s
  | .array items => .array (writtenItems items)
  | .object members => .object (writtenMembers members)
def writtenItems : List Json.Value → List Tree
  | [] => []
  | v :: rest => Tree.written v :: writtenItems rest
def writtenMembers : List (String × Json.Value) → List (String × Tree)
  | [] => []
  | (k, v) :: rest => (k, Tree.written v) :: writtenMembers rest
end

/-- The rank of a key in the map at a place of a tree. The place is given by the
keys and the indices that lead to it. -/
abbrev Ranking := List String → String → Nat

/-- All keys have the same rank, so a map lists its members as they came. -/
def Ranking.level : Ranking := fun _ _ => 0

/-- The ranking of what stands under a key or at an index. -/
def Ranking.below (ranking : Ranking) (segment : String) : Ranking :=
  fun place => ranking (segment :: place)

mutual
/-- The tree with the members of each map by their ranks. -/
def Tree.arrange (ranking : Ranking) : Tree → Tree
  | .object members => .object (Entries.byRank (ranking []) (arrangeMembers ranking members))
  | .array items => .array (arrangeItems ranking 0 items)
  | t => t
def arrangeItems (ranking : Ranking) (index : Nat) : List Tree → List Tree
  | [] => []
  | t :: rest =>
    t.arrange (ranking.below (toString index)) :: arrangeItems ranking (index + 1) rest
def arrangeMembers (ranking : Ranking) : List (String × Tree) → List (String × Tree)
  | [] => []
  | (k, t) :: rest => (k, t.arrange (ranking.below k)) :: arrangeMembers ranking rest
end

/-- The tree of a value in maps that rank their keys so. -/
def Tree.ofJson (ranking : Ranking) (v : Json.Value) : Tree :=
  (Tree.written v).arrange ranking

mutual
/-- The tree as JSON, members in the order of their map. A rejected literal
leaves null. -/
def Tree.toJson : Tree → Json.Value
  | .object members => .object (toJsonMembers members)
  | .array items => .array (toJsonItems items)
  | .string s => .string s
  | .integer n => .number (.ofInt64 n)
  | .fraction x =>
    match Json.Number.ofFloat? x with
    | some n => .number n
    | none => .null
  | .bool b => .bool b
  | .null => .null
  | .rejected _ => .null
def toJsonItems : List Tree → List Json.Value
  | [] => []
  | t :: rest => t.toJson :: toJsonItems rest
def toJsonMembers : List (String × Tree) → List (String × Json.Value)
  | [] => []
  | (k, t) :: rest => (k, t.toJson) :: toJsonMembers rest
end

inductive Error where
  | unexpectedEnd (line column : Nat)
  | invalid (detail : String)
  deriving DecidableEq, Repr

def Error.message : Error → String
  | .unexpectedEnd line column =>
    "Unexpected end of payload at line " ++ toString line ++ ", column " ++ toString column
  | .invalid detail => "Invalid payload: " ++ detail

def Error.ofRead : Json.ReadError → Error
  | .ended p => .unexpectedEnd p.line p.column
  | .malformed flaw p =>
    .invalid (flaw.message ++ " at line " ++ toString p.line ++ " column " ++ toString p.column)

def Tree.ofRead (ranking : Ranking) : Except Json.ReadError Json.Value → Except Error Tree
  | .ok v => .ok (.ofJson ranking v)
  | .error e => .error (.ofRead e)

def parse (bytes : List UInt8) (ranking : Ranking := .level) : Except Error Tree :=
  Tree.ofRead ranking (Json.parse bytes)

def parseText (s : String) (ranking : Ranking := .level) : Except Error Tree :=
  Tree.ofRead ranking (Json.parseText s)

end Telemetry.Payload
