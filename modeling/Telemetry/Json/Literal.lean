import Telemetry.Json.Value

/-!
# Number literals

The digits of a number literal and the number they denote. An integer that
fits 64 bits is itself. Everything else is a double, computed in two steps:
as many leading digits as fit 64 bits make the significand, which becomes a
double, and that is multiplied by or divided by a power of ten, both single
roundings. The result need not be the double nearest to the literal. A
literal whose double would be infinite has no value.
-/

namespace Telemetry.Json

/-- A number literal. Digits are kept last first, as they are read. -/
structure Literal where
  negative : Bool := false
  whole : List Nat := []
  fraction : Option (List Nat) := none
  /-- Whether the exponent is negative, and its size by `raise`. -/
  exponent : Option (Bool × Nat) := none
  deriving DecidableEq, Repr

/-- Exponents of this size and above are not told apart. -/
def exponentBound : Nat := 0x80000000

def raise (size digit : Nat) : Nat :=
  min (size * 10 + digit) exponentBound

/-- The significand with as many of the digits appended as 64 bits can hold,
and the number of digits left over. -/
def absorb : Nat → List Nat → Nat × Nat
  | significand, [] => (significand, 0)
  | significand, d :: ds =>
    if significand * 10 + d < 0x10000000000000000 then absorb (significand * 10 + d) ds
    else (significand, (d :: ds).length)

/-- The double nearest to a power of ten, up to the 308th. -/
def powerOfTen (n : Nat) : Float :=
  Float.ofScientific 1 false n

/-- `x · 10 ^ power`, at most 308 places at a time; nothing if infinite. -/
def scale (x : Float) (power : Int) : Option Float :=
  if power.natAbs ≤ 308 then
    if 0 ≤ power then
      let product := x * powerOfTen power.toNat
      if product.isInf then none else some product
    else some (x / powerOfTen (-power).toNat)
  else if x == 0.0 then some x
  else if 0 ≤ power then none
  else scale (x / powerOfTen 308) (power + 308)
termination_by (-power).toNat
decreasing_by omega

/-- The significand of a literal and its power of ten before the exponent. -/
def Literal.parts (l : Literal) : Nat × Int :=
  let (significand, dropped) := absorb 0 l.whole.reverse
  let fraction := (l.fraction.getD []).reverse
  let (significand, unread) := absorb significand fraction
  (significand, (dropped : Int) - ((fraction.length : Int) - unread))

def Literal.magnitude? (l : Literal) : Option Float :=
  let (significand, power) := l.parts
  let x := (UInt64.ofNat significand).toFloat
  match l.exponent with
  | none => scale x power
  | some (true, size) => if size < exponentBound then scale x (power - size) else some 0.0
  | some (false, size) =>
    if size < exponentBound then scale x (power + size)
    else if significand = 0 then some 0.0 else none

def Literal.float? (l : Literal) : Option Float :=
  l.magnitude?.map fun x => if l.negative then -x else x

/-- The integer that the digits spell, for a literal without fraction and
exponent whose digits fit 64 bits. -/
def Literal.integer? (l : Literal) : Option Int :=
  match l.fraction, l.exponent, absorb 0 l.whole.reverse with
  | none, none, (n, 0) => some (if l.negative then -(n : Int) else n)
  | _, _, _ => none

/-- The number of a literal. Minus zero is a double. -/
def Literal.number? (l : Literal) : Option Number :=
  match l.integer? with
  | none => l.float?.map .float
  | some n =>
    if l.negative && n == 0 then l.float?.map .float
    else match Number.ofInt? n with
      | some number => some number
      | none => l.float?.map .float

end Telemetry.Json
