import Telemetry.Text.Integer

/-!
# Log levels
-/

namespace Telemetry.Log

inductive Level where
  | off
  | error
  | warn
  | info
  | debug
  | trace
  deriving DecidableEq, Repr

def Level.rank : Level → Nat
  | .off => 0
  | .error => 1
  | .warn => 2
  | .info => 3
  | .debug => 4
  | .trace => 5

def Level.all : List (String × Level) :=
  [("off", .off), ("error", .error), ("warn", .warn), ("info", .info), ("debug", .debug),
    ("trace", .trace)]

/-- A level by its name in any case of letters, or by its rank. -/
def Level.ofString? (s : String) : Option Level :=
  match Text.unsigned? s.toList with
  | some n => (Level.all.map (·.2)).find? (·.rank == n)
  | none => (Level.all.find? (·.1 == String.ofList (s.toList.map Char.toLower))).map (·.2)

end Telemetry.Log
