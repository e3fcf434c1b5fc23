import Telemetry.Decimal.Layout
import Telemetry.Text.Integer

/-!
# Attribute values
-/

namespace Telemetry.Attribute

inductive Value where
  | text (s : String)
  | int (n : Int64)
  | float (x : Float)
  deriving DecidableEq

def Value.display : Value → String
  | .text s => s
  | .int n => Text.ofInt64 n
  | .float x => Decimal.plain.write x

end Telemetry.Attribute
