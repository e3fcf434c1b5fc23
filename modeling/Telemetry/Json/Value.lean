/-!
# JSON values

Numbers are kept as they can be told apart in a text: an integer that fits
64 bits, unsigned unless it is negative, or a double. An object is the list
of its members in order.
-/

namespace Telemetry.Json

inductive Number where
  | unsigned (n : UInt64)
  | negative (n : Int64) (below : n < 0)
  | float (x : Float)

def Number.ofInt64 (n : Int64) : Number :=
  if below : n < 0 then .negative n below else .unsigned n.toUInt64

theorem ofInt_lt_zero (low : -0x8000000000000000 ≤ n) (high : n < 0) : Int64.ofInt n < 0 := by
  rw [Int64.lt_iff_toInt_lt, Int64.toInt_ofInt_of_le (by omega) (by omega)]
  exact high

def Number.ofInt? (n : Int) : Option Number :=
  if h : -0x8000000000000000 ≤ n ∧ n < 0 then
    some (.negative (Int64.ofInt n) (ofInt_lt_zero h.1 h.2))
  else if 0 ≤ n ∧ n < 0x10000000000000000 then some (.unsigned (UInt64.ofNat n.toNat))
  else none

/-- JSON has no infinite number and no not-a-number. -/
def Number.ofFloat? (x : Float) : Option Number :=
  if x.isFinite then some (.float x) else none

def Number.toInt64? : Number → Option Int64
  | .unsigned n => if n.toNat < 0x8000000000000000 then some (Int64.ofNat n.toNat) else none
  | .negative n _ => some n
  | .float _ => none

inductive Value where
  | null
  | bool (b : Bool)
  | number (n : Number)
  | string (s : String)
  | array (items : List Value)
  | object (members : List (String × Value))

end Telemetry.Json
