import Telemetry.Files.Host
import Telemetry.Files.Path

/-!
# Sessions

A command runs in a session: it looks at the host, prints lines, warns about
keys that mean nothing, and may end in a problem. What was printed before a
problem stays printed.
-/

namespace Telemetry.Program

open Files (Entry Host)

inductive Problem where
  | configMissing (path : String)
  | configUnreadable (path : String)
  | configMalformed (path : String)
  | zeroLimit
  | unknownAttribute (key : String)
  | payloadMissing (path : String)
  | payloadTooLarge (path : String) (size limit : Nat)
  | payloadUnreadable (path : String)
  | payloadMalformed (path : String)
  deriving DecidableEq, Repr

def Problem.message : Problem → String
  | .configMissing path => "Config file not found: " ++ path
  | .configUnreadable path => "Failed to read config file: " ++ path
  | .configMalformed path => "Failed to parse config file: " ++ path
  | .zeroLimit => "extract.payload_limit_bytes must be greater than zero"
  | .unknownAttribute key => "No payload attribute named '" ++ key ++ "'"
  | .payloadMissing path => "Failed to stat payload file: " ++ path
  | .payloadTooLarge path size limit =>
    "Payload file " ++ path ++ " is " ++ toString size ++ " bytes, over the " ++
      toString limit ++ " byte limit"
  | .payloadUnreadable path => "Failed to read payload file: " ++ path
  | .payloadMalformed path => "Failed to parse payload: " ++ path

structure Report where
  lines : List String := []
  /-- The keys without meaning of each settings file that has any. -/
  unknownKeys : List (List String) := []
  deriving DecidableEq, Repr

abbrev Session (m : Type → Type) := ExceptT Problem (StateT Report m)

section
variable {m : Type → Type} [Monad m]

def print (line : String) : Session m Unit :=
  modify fun report => { report with lines := report.lines ++ [line] }

def warnUnknown (keys : List String) : Session m Unit :=
  if keys.isEmpty then return
  else modify fun report => { report with unknownKeys := report.unknownKeys ++ [keys] }

def look (host : Host m) (path : String) : Session m Entry :=
  liftM (host.look path)

def expand (host : Host m) (path : String) : String :=
  Files.expand host.home host.working path

/-- The bytes of a payload file of at most `limit` bytes. Its size is looked
at first. -/
def readPayload (host : Host m) (path : String) (limit : Nat) : Session m (List UInt8) := do
  match ← look host path with
  | .missing => throw (.payloadMissing path)
  | .file bytes =>
    if limit < bytes.length then throw (.payloadTooLarge path bytes.length limit)
    else return bytes
  | .closed size =>
    if limit < size then throw (.payloadTooLarge path size limit)
    else throw (.payloadUnreadable path)

end

end Telemetry.Program
