import Telemetry.Config.ByteSize

/-!
# Parameters

What can be set on the command line. The shared parameters are accepted
before and after the command's name and have a variable of the environment
besides; every other belongs to one command.
-/

namespace Telemetry.CommandLine

inductive Parameter where
  | config
  | genAi
  | payloadLimit
  | system
  | attributeKey
  | file
  | modelId
  | request
  | response
  deriving DecidableEq, Repr

inductive Usage where
  | help
  | version
  /-- Nothing is given at all. -/
  | nothing
  | noCommand
  | unknownCommand
  | unknownArgument
  | missingArgument
  /-- A parameter is given twice in one place. -/
  | repeated
  /-- A flag that takes no value has one. -/
  | unexpectedValue
  | badValue
  | badSize (value : String)
  deriving DecidableEq, Repr

namespace Parameter

/-- The name after two dashes; a file is given without a name. -/
def long? : Parameter → Option String
  | .config => some "config"
  | .genAi => some "gen-ai"
  | .payloadLimit => some "payload-limit"
  | .system => some "gen-ai-system"
  | .attributeKey => some "attribute"
  | .file => none
  | .modelId => some "model-id"
  | .request => some "request"
  | .response => some "response"

def short? : Parameter → Option Char
  | .config => some 'c'
  | .attributeKey => some 'a'
  | _ => none

/-- The variable that sets it where the command line does not. -/
def variableName? : Parameter → Option String
  | .config => some "FIELDSCOPE_CONFIG"
  | .genAi => some "FIELDSCOPE_GEN_AI"
  | .payloadLimit => some "FIELDSCOPE_PAYLOAD_LIMIT"
  | .system => some "FIELDSCOPE_GEN_AI_SYSTEM"
  | _ => none

end Parameter

/-- The parameters of every command, in the order in which their variables
are checked. -/
def shared : List Parameter :=
  [.config, .genAi, .payloadLimit, .system]

def switch? : String → Option Bool
  | "true" => some true
  | "false" => some false
  | _ => none

/-- Checks a value: a path is not empty, a switch is `true` or `false`, and a
size is one. -/
def Parameter.check (parameter : Parameter) (value : String) : Except Usage Unit :=
  match parameter with
  | .config | .file | .request | .response =>
    if value.isEmpty then .error .badValue else .ok ()
  | .genAi => if (switch? value).isSome then .ok () else .error .badValue
  | .payloadLimit =>
    if (Config.byteSize? value).isSome then .ok () else .error (.badSize value)
  | .system | .attributeKey | .modelId => .ok ()

end Telemetry.CommandLine
