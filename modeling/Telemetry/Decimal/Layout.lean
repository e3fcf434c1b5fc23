import Telemetry.Decimal.Shortest

/-!
# Decimals as text

A double is written as its shortest decimal. A `Layout` settles the rest:
which magnitudes are written without an exponent, whether an integral number
shows its fraction, and the sign of a positive exponent.
-/

namespace Telemetry.Decimal

structure Layout where
  /-- Whether a number whose first digit stands for `10 ^ power` is written
  without an exponent. -/
  positional : Int → Bool
  /-- Integral numbers end in `.0`. -/
  showFraction : Bool
  /-- Positive exponents carry a plus sign. -/
  plus : Bool
  tie : Tie

/-- Digits with a point, never an exponent. -/
def plain : Layout := ⟨fun _ => true, false, false, .upper⟩

def json : Layout := ⟨fun power => -5 ≤ power && power ≤ 15, true, true, .even⟩

/-- Numbers shown to a developer. -/
def inspection : Layout := ⟨fun power => -4 ≤ power && power ≤ 15, true, false, .upper⟩

def zeros (n : Nat) : String :=
  String.ofList (List.replicate n '0')

def positional (showFraction : Bool) (d : Decimal) : String :=
  let digits := Nat.toDigits 10 d.significand
  if 0 ≤ d.exponent then
    String.ofList digits ++ zeros d.exponent.toNat ++ (if showFraction then ".0" else "")
  else
    let places := (-d.exponent).toNat
    if places < digits.length then
      String.ofList (digits.take (digits.length - places)) ++ "." ++
        String.ofList (digits.drop (digits.length - places))
    else
      "0." ++ zeros (places - digits.length) ++ String.ofList digits

/-- The power of ten of the first digit. -/
def power (d : Decimal) : Int :=
  d.exponent + digitCount d.significand - 1

def scientific (plus : Bool) (d : Decimal) : String :=
  let digits := Nat.toDigits 10 d.significand
  let fraction := digits.drop 1
  String.ofList (digits.take 1) ++
    (if fraction.isEmpty then "" else "." ++ String.ofList fraction) ++
    "e" ++ (if plus && 0 < d.power then "+" else "") ++ toString d.power

def Layout.ofDecimal (layout : Layout) (d : Decimal) : String :=
  if layout.positional d.power then d.positional layout.showFraction else d.scientific layout.plus

def Layout.write (layout : Layout) (x : Float) : String :=
  if x.isNaN then "NaN"
  else
    let negative := x.toBits ≥ 0x8000000000000000
    let size := if negative then -x else x
    let text :=
      if size.isInf then "inf"
      else if size == 0.0 then (if layout.showFraction then "0.0" else "0")
      else layout.ofDecimal (shortest layout.tie size)
    if negative then "-" ++ text else text

end Telemetry.Decimal
