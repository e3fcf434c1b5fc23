import Telemetry.Config.File
import Telemetry.Program.Session

/-!
# Loading the settings

Settings come from the command line and its variables, from one settings
file that is named there or else lies in the working folder, and from one in
the home folder, in this order. A file that is named must be there; the
others need not. Every file that is there must be good, even if nothing in it
counts.
-/

namespace Telemetry.Program

open Config (FileSettings Overrides)
open Files (Entry Host)

def configFileName : String := "fieldscope.json"

def profileFolderName : String := ".fieldscope"

section
variable {m : Type → Type} [Monad m]

def fileSettings (path : String) (entry : Entry) : Session m FileSettings := do
  match entry with
  | .file bytes =>
    if (Utf8.decode? bytes).isNone then throw (.configUnreadable path)
    match Config.fileSettings? bytes with
    | none => throw (.configMalformed path)
    | some settings =>
      warnUnknown settings.unknown
      return settings
  | _ => throw (.configUnreadable path)

/-- What a settings file says that need not be there. -/
def optionalFile (host : Host m) (path : String) : Session m Overrides := do
  match ← look host path with
  | .missing => return {}
  | entry => return (← fileSettings path entry).extract

/-- What a settings file says that must be there. -/
def namedFile (host : Host m) (path : String) : Session m Overrides := do
  match ← look host path with
  | .missing => throw (.configMissing path)
  | entry => return (← fileSettings path entry).extract

def profile (host : Host m) : Session m Overrides := do
  match host.home with
  | none => return {}
  | some home =>
    optionalFile host (Files.join (Files.join home profileFolderName) configFileName)

/-- What the file named `config` says, or else the one in the working folder. -/
def overlay (host : Host m) (config : Option String) : Session m Overrides :=
  match config with
  | some path => namedFile host (expand host path)
  | none => optionalFile host configFileName

/-- The settings of all layers. The limit of the payloads is not zero. -/
def configure (host : Host m) (config : Option String) (given : Overrides) :
    Session m Extract.Settings := do
  let lowest ← profile host
  let middle ← overlay host config
  let settings := (given.onto (middle.onto lowest)).settings
  if settings.payloadLimit = 0 then throw .zeroLimit
  return settings

end

end Telemetry.Program
