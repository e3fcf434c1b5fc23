import Telemetry.Config.Layers

/-!
# Settings files

A settings file is a JSON object. Its member `extract` holds the settings,
any of them null if it is to be left open; the whole member may be null, too.
Other members are read in full and their keys kept, since such a key is
likely to be mistyped.
-/

namespace Telemetry.Config

open Json (Scan Value)

structure FileSettings where
  extract : Overrides := {}
  /-- The keys that mean nothing, in the order in which they first appear. -/
  unknown : List String := []
  deriving DecidableEq, Repr

structure FileDraft where
  extract : Option Overrides := none
  unknown : List String := []
  deriving DecidableEq, Repr

def extractKey : String := "extract"

/-- An array of settings names all three. -/
def allGiven (fields : Fields) : Bool :=
  fields.genAi.isSome && fields.payloadLimit.isSome && fields.system.isSome

def extractValue : Scan Overrides := do
  if (← Scan.peek) = 0x6e then
    Scan.scalar fun
      | .null => some {}
      | _ => none
  else return (← Fields.scan .allowed allGiven).overrides

mutual
def depth : Value → Nat
  | .array items => depthOfItems items + 1
  | .object members => depthOfMembers members + 1
  | _ => 0
def depthOfItems : List Value → Nat
  | [] => 0
  | v :: rest => max (depth v) (depthOfItems rest)
def depthOfMembers : List (String × Value) → Nat
  | [] => 0
  | (_, v) :: rest => max (depth v) (depthOfMembers rest)
end

/-- Reads on after a key of the file. The file itself is one container. -/
def fileMember (draft : FileDraft) (key : String) : Scan FileDraft := do
  if key = extractKey then
    if draft.extract.isSome then throw .mismatched
    Scan.expect 0x3a
    return { draft with extract := some (← extractValue) }
  else
    Scan.expect 0x3a
    if Json.maxOpen ≤ depth (← Scan.value) then throw .malformed
    return { draft with
      unknown := if key ∈ draft.unknown then draft.unknown else draft.unknown ++ [key] }

def fileScan : Scan FileSettings := do
  if (← Scan.peek) ≠ 0x7b then throw .mismatched
  let draft ← Scan.members fileMember {}
  return { extract := draft.extract.getD {}, unknown := draft.unknown }

def fileSettings? (bytes : List UInt8) : Option FileSettings :=
  (Scan.run fileScan bytes).toOption

end Telemetry.Config
