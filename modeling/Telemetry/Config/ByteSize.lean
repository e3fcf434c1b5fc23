import Telemetry.Text.Blank
import Telemetry.Text.Case
import Telemetry.Text.Integer

/-!
# Byte sizes

A size as a person types it: a number of bytes, of kibibytes with the suffix
`k` or of mebibytes with the suffix `m`, in either case. It fits 64 bits.
-/

namespace Telemetry.Config

/-- The characters in lower case, without white space at both ends. -/
def normalized (s : String) : List Char :=
  (Text.strip s.toList).flatMap Text.lower

/-- The characters before the suffix, and the number of bytes it stands for. -/
def splitSuffix (cs : List Char) : List Char × Nat :=
  match cs.getLast? with
  | some 'k' => (cs.dropLast, 1024)
  | some 'm' => (cs.dropLast, 1024 * 1024)
  | _ => (cs, 1)

def byteSize? (s : String) : Option Nat :=
  let (digits, unit) := splitSuffix (normalized s)
  match Text.unsigned? (Text.strip digits) with
  | some n =>
    if n < 0x10000000000000000 ∧ n * unit < 0x10000000000000000 then some (n * unit) else none
  | none => none

def byteSizeMessage (s : String) : String :=
  "Invalid size '" ++ s ++ "'. Use a byte count, optionally suffixed with k or m"

end Telemetry.Config
