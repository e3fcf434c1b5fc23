/-!
# Integers as text

Decimal integers as a person types them: an optional sign and one or more
ASCII digits, leading zeros allowed. A reader for a fixed width refuses what
does not fit.
-/

namespace Telemetry.Text

/-- The number that one or more ASCII digits spell. -/
def natural? (cs : List Char) : Option Nat :=
  if cs.isEmpty || !cs.all Char.isDigit then none else some (Nat.ofDigitChars 10 cs 0)

def unsigned? : List Char → Option Nat
  | '+' :: ds => natural? ds
  | ds => natural? ds

def signed? : List Char → Option Int
  | '-' :: ds => (natural? ds).map fun n => -(n : Int)
  | cs => (unsigned? cs).map fun n => (n : Int)

def uint64? (s : String) : Option UInt64 :=
  match unsigned? s.toList with
  | some n => if n < 0x10000000000000000 then some (UInt64.ofNat n) else none
  | none => none

def int64? (s : String) : Option Int64 :=
  match signed? s.toList with
  | some n =>
    if -0x8000000000000000 ≤ n ∧ n < 0x8000000000000000 then some (Int64.ofInt n) else none
  | none => none

def ofInt64 (n : Int64) : String :=
  toString n.toInt

def ofUInt64 (n : UInt64) : String :=
  toString n.toNat

theorem natural?_toDigits (n : Nat) : natural? (Nat.toDigits 10 n) = some n := by
  have h : (Nat.toDigits 10 n).all Char.isDigit = true :=
    List.all_eq_true.mpr fun c hc => Nat.isDigit_of_mem_toDigits (by omega) (by omega) hc
  simp [natural?, h, Nat.toDigits_ne_nil, Nat.ofDigitChars_toDigits]

end Telemetry.Text
