/-!
# Reading decimals

A number as a person types it: a sign, digits with an optional point, and an
optional exponent, or one of the words for infinity and not-a-number in any
letter case. The result is the double nearest to the number written, of two
equally near ones the one with the even significand.
-/

namespace Telemetry.Decimal

/-- The double nearest to the number that `digits`, without leading zeros,
spell times `10 ^ exponent`. With its first digit more than four hundred
places from the point it is zero or infinite, whatever the digits. -/
def nearest (digits : List Char) (exponent : Int) : Float :=
  let significand := Nat.ofDigitChars 10 digits 0
  if significand = 0 then 0.0
  else if exponent + digits.length > 400 then 1.0 / 0.0
  else if exponent + digits.length < -400 then 0.0
  else if 0 ≤ exponent then Float.ofScientific significand false exponent.toNat
  else Float.ofScientific significand true (-exponent).toNat

/-- The size of an exponent with one more digit. From `0x10000` on further
digits do not count. -/
def raise (size : Nat) (digit : Char) : Nat :=
  if size < 0x10000 then 10 * size + (digit.toNat - '0'.toNat) else size

/-- An exponent: nothing, or `e`, an optional sign and digits. -/
def exponent? : List Char → Option Int
  | [] => some 0
  | e :: rest =>
    if e = 'e' ∨ e = 'E' then
      let (negative, ds) := match rest with
        | '-' :: ds => (true, ds)
        | '+' :: ds => (false, ds)
        | ds => (false, ds)
      if ds.isEmpty || !ds.all Char.isDigit then none
      else
        let size := ds.foldl raise 0
        some (if negative then -size else size)
    else none

/-- Digits, an optional point with digits, an optional exponent. -/
def magnitude? (cs : List Char) : Option Float :=
  let whole := cs.takeWhile Char.isDigit
  let rest := cs.dropWhile Char.isDigit
  let (fraction, rest) := match rest with
    | '.' :: rest => (rest.takeWhile Char.isDigit, rest.dropWhile Char.isDigit)
    | rest => ([], rest)
  let digits := whole ++ fraction
  if digits.isEmpty then none
  else (exponent? rest).map fun e =>
    nearest (digits.dropWhile (· == '0')) (e - fraction.length)

/-- A magnitude or a word. -/
def unsigned? (cs : List Char) : Option Float :=
  let word := cs.map Char.toLower
  if word = ['i', 'n', 'f'] ∨ word = ['i', 'n', 'f', 'i', 'n', 'i', 't', 'y'] then some (1.0 / 0.0)
  else if word = ['n', 'a', 'n'] then some (0.0 / 0.0)
  else magnitude? cs

def float? (s : String) : Option Float :=
  match s.toList with
  | '-' :: cs => (unsigned? cs).map fun x => -x
  | '+' :: cs => unsigned? cs
  | cs => unsigned? cs

end Telemetry.Decimal
