import Telemetry.Extract.Settings
import Telemetry.Json.Scan

/-!
# Settings as JSON

The three settings of an extraction are the members of an object, or the
items of an array in their fixed order. A member that names no setting is
passed over; one that names a setting twice is refused.
-/

namespace Telemetry.Config

open Json (Scan Value)

/-- What a text says of each setting: nothing, null, or a value. -/
structure Fields where
  genAi : Option (Option Bool) := none
  payloadLimit : Option (Option Nat) := none
  system : Option (Option String) := none
  deriving DecidableEq, Repr

/-- Whether null may stand in place of a value. A system may always be null. -/
inductive Nulls where
  | allowed
  | refused
  deriving DecidableEq, Repr

def bool? : Value → Option Bool
  | .bool b => some b
  | _ => none

/-- An integer literal from zero to the greatest that 64 bits hold. -/
def size? : Value → Option Nat
  | .number (.unsigned n) => some n.toNat
  | _ => none

def text? : Value → Option String
  | .string s => some s
  | _ => none

/-- Accepts null besides what `accept` does, if nulls are allowed. -/
def Nulls.accept (nulls : Nulls) (accept : Value → Option α) (v : Value) : Option (Option α) :=
  match v, nulls with
  | .null, .allowed => some none
  | v, _ => (accept v).map some

namespace Fields

def genAiValue (nulls : Nulls) : Scan (Option Bool) :=
  Scan.scalar (nulls.accept bool?)

def payloadLimitValue (nulls : Nulls) : Scan (Option Nat) :=
  Scan.scalar (nulls.accept size?)

def systemValue : Scan (Option String) :=
  Scan.scalar (Nulls.allowed.accept text?)

/-- Refuses a setting that has been given already. -/
def once (earlier : Option α) : Scan Unit :=
  if earlier.isSome then throw .mismatched else return

def member (nulls : Nulls) (fields : Fields) (key : String) : Scan Fields :=
  match key with
  | "gen_ai" => do
    once fields.genAi
    Scan.expect 0x3a
    return { fields with genAi := some (← genAiValue nulls) }
  | "payload_limit_bytes" => do
    once fields.payloadLimit
    Scan.expect 0x3a
    return { fields with payloadLimit := some (← payloadLimitValue nulls) }
  | "gen_ai_system" => do
    once fields.system
    Scan.expect 0x3a
    return { fields with system := some (← systemValue) }
  | _ => do
    Scan.expect 0x3a
    Scan.pass
    return fields

def items (nulls : Nulls) : Scan Fields := do
  match ← Scan.item true (genAiValue nulls) with
  | none => return {}
  | genAi =>
    match ← Scan.item false (payloadLimitValue nulls) with
    | none => return { genAi }
    | payloadLimit => return { genAi, payloadLimit, system := ← Scan.item false systemValue }

/-- Reads the settings in either form. `complete` says whether the fields
given as an array are enough. -/
def scan (nulls : Nulls) (complete : Fields → Bool) : Scan Fields := do
  let b ← Scan.peek
  if b = 0x7b then Scan.members (member nulls) {}
  else if b = 0x5b then
    Scan.expect 0x5b
    let fields ← items nulls
    if !complete fields then throw .mismatched
    Scan.expect 0x5d
    return fields
  else Scan.scalar fun _ => none

def settings (fields : Fields) : Extract.Settings :=
  let defaults : Extract.Settings := {}
  { genAi := fields.genAi.join.getD defaults.genAi
    payloadLimit := fields.payloadLimit.join.getD defaults.payloadLimit
    system := fields.system.getD defaults.system }

end Fields

def settings? (bytes : List UInt8) : Except Json.ScanError Extract.Settings :=
  (Scan.run (Fields.scan .refused fun _ => true) bytes).map Fields.settings

end Telemetry.Config
