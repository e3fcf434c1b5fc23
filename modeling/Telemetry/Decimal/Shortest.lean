/-!
# Shortest decimals

A finite double is `m · 2^q`, and every real number between the midpoints to
its two neighbours rounds to it; the midpoints themselves round to it when
`m` is even. `shortest` is the number with the fewest significant digits in
that interval, and the nearest of those. All arithmetic is on natural
numbers.
-/

namespace Telemetry

/-- `significand · 10 ^ exponent`, without trailing zeros in the significand
unless it is zero. -/
structure Decimal where
  significand : Nat
  exponent : Int
  deriving DecidableEq, Repr

namespace Decimal

/-- Which of two equally near decimals is taken. -/
inductive Tie where
  | upper
  | even
  deriving DecidableEq, Repr

/-- A positive double and its rounding interval, in units of
`numerator / denominator`. -/
structure Rounding where
  value : Nat
  low : Nat
  high : Nat
  /-- Whether the ends of the interval round to the value. -/
  closed : Bool
  numerator : Nat
  denominator : Nat

/-- The rounding interval of the positive finite double with these bits.
Units are quarters of the last place, since the gap below a power of two is
half the gap above it. -/
def Rounding.ofBits (bits : UInt64) : Rounding :=
  let biased : Nat := (bits.toNat / 0x10000000000000) % 0x800
  let fraction : Nat := bits.toNat % 0x10000000000000
  let m : Nat := if biased = 0 then fraction else 0x10000000000000 + fraction
  let q : Int := (if biased = 0 then 1 else (biased : Int)) - 1077
  { value := 4 * m
    low := if fraction = 0 ∧ 1 < biased then 4 * m - 1 else 4 * m - 2
    high := 4 * m + 2
    closed := m % 2 == 0
    numerator := 1 <<< q.toNat
    denominator := 1 <<< (-q).toNat }

def digitCount (n : Nat) : Nat :=
  (Nat.toDigits 10 n).length

/-- The power of ten of the first significant digit of `n / d`. -/
def leadingPower (n d : Nat) : Int :=
  let guess : Int := (digitCount n : Int) - (digitCount d : Int)
  if d * Nat.pow 10 guess.toNat ≤ n * Nat.pow 10 (-guess).toNat then guess else guess - 1

/-- The multiple of `10 ^ power` that rounds to the value and is nearest to
it, if the interval holds one. -/
def Rounding.onGrid? (r : Rounding) (tie : Tie) (power : Int) : Option Nat :=
  let scale := r.numerator * Nat.pow 10 (-power).toNat
  let grid := r.denominator * Nat.pow 10 power.toNat
  let value := r.value * scale
  let below := value / grid
  let above := below + 1
  let inside (n : Nat) : Bool :=
    if r.closed then r.low * scale ≤ n * grid && n * grid ≤ r.high * scale
    else r.low * scale < n * grid && n * grid < r.high * scale
  match inside below, inside above with
  | false, false => none
  | true, false => some below
  | false, true => some above
  | true, true =>
    let toBelow := value - below * grid
    let toAbove := above * grid - value
    if toBelow < toAbove then some below
    else if toAbove < toBelow then some above
    else match tie with
      | .upper => some above
      | .even => some (if below % 2 = 0 then below else above)

/-- The first of the grids `10 ^ power`, `10 ^ (power - 1)`, … with a point
in the interval. Seventeen digits always suffice, so the last case is never
reached from there. -/
def Rounding.search (r : Rounding) (tie : Tie) : Nat → Int → Decimal
  | 0, power =>
    ⟨r.value * r.numerator * Nat.pow 10 (-power).toNat / (r.denominator * Nat.pow 10 power.toNat),
      power⟩
  | steps + 1, power =>
    match r.onGrid? tie power with
    | some n => ⟨n, power⟩
    | none => r.search tie steps (power - 1)

/-- Ten in the first place is one in the place before. -/
def normal (d : Decimal) : Decimal :=
  if d.significand = 10 then ⟨1, d.exponent + 1⟩ else d

def shortest (tie : Tie) (x : Float) : Decimal :=
  let r := Rounding.ofBits x.toBits
  (r.search tie 17 (leadingPower (r.value * r.numerator) r.denominator)).normal

end Decimal

end Telemetry
