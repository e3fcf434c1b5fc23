/-!
# Settings of an extraction
-/

namespace Telemetry.Extract

def defaultPayloadLimit : Nat := 1024 * 1024

def defaultSystem : String := "aws.bedrock"

structure Settings where
  /-- Whether payloads are decoded at all. -/
  genAi : Bool := true
  /-- Payloads of more bytes are skipped unread. -/
  payloadLimit : Nat := defaultPayloadLimit
  /-- Written as the system's name when a payload gave an attribute, unless
  it is blank. -/
  system : Option String := some defaultSystem
  deriving DecidableEq, Repr

end Telemetry.Extract
