import Telemetry.Config.Fields
import Telemetry.Text.Blank

/-!
# Layers of settings

Each source of settings may leave any of them open. Of two layers the upper
one counts where it sets something; what no layer sets has its default.
-/

namespace Telemetry.Config

structure Overrides where
  genAi : Option Bool := none
  payloadLimit : Option Nat := none
  system : Option String := none
  deriving DecidableEq, Repr

namespace Overrides

/-- The settings of both, each from `upper` if it is set there. -/
def onto (upper lower : Overrides) : Overrides where
  genAi := upper.genAi.or lower.genAi
  payloadLimit := upper.payloadLimit.or lower.payloadLimit
  system := upper.system.or lower.system

/-- The settings that result. A blank system is none. -/
def settings (overrides : Overrides) : Extract.Settings :=
  { genAi := overrides.genAi.getD true
    payloadLimit := overrides.payloadLimit.getD Extract.defaultPayloadLimit
    system := some (overrides.system.getD Extract.defaultSystem) |>.filter
      fun system => !Text.allBlank system }

end Overrides

/-- Null leaves a setting open. -/
def Fields.overrides (fields : Fields) : Overrides where
  genAi := fields.genAi.join
  payloadLimit := fields.payloadLimit.join
  system := fields.system.join

end Telemetry.Config
