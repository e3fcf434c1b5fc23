import Telemetry.CommandLine.Place
import Telemetry.Config.Layers

/-!
# Command lines

A command line names one of three commands and sets what it needs. Of a
shared parameter the value after the command's name counts before the one in
front of it, and that before its variable. Variables are checked in either
place that does not give the parameter, so a bad one is a fault even where a
value overrides it.
-/

namespace Telemetry.CommandLine

inductive Command where
  | categories
  | resolve (key : String) (file : String)
  | invoke (modelId : String) (request response : Option String)
  deriving DecidableEq, Repr

structure Invocation where
  command : Command
  config : Option String := none
  overrides : Config.Overrides := {}
  deriving DecidableEq, Repr

/-- Reads the arguments in front of a command's name. The result is the place
that follows, if the name is there, and its arguments. -/
def front (draft : Draft) : List String → Except Usage (Draft × Option (Place × List String))
  | [] => .ok (draft, none)
  | text :: rest =>
    if draft.plainOnly || draft.isWaiting then do front (← draft.argument .front text) rest
    else if text = helpName then .error (helpOn rest)
    else match command? text with
      | some place => .ok (draft, some (place, rest))
      | none => do front (← draft.argument .front text) rest

def arguments (place : Place) (draft : Draft) : List String → Except Usage Draft
  | [] => .ok draft
  | text :: rest => do arguments place (← draft.argument place text) rest

def require (place : Place) (draft : Draft) : Except Usage Unit :=
  if place.required.all fun parameter => (draft.value? parameter).isSome then .ok ()
  else .error .missingArgument

def Place.command (place : Place) (value? : Parameter → Option String) : Command :=
  match place with
  | .front | .categories => .categories
  | .resolve => .resolve ((value? .attributeKey).getD "") ((value? .file).getD "")
  | .invoke => .invoke ((value? .modelId).getD "") (value? .request) (value? .response)

def anySet (environment : String → Option String) (draft : Draft) : Bool :=
  shared.any fun parameter =>
    (draft.value? parameter).isSome || (parameter.variableName?.bind environment).isSome

def parse (environment : String → Option String) (args : List String) :
    Except Usage Invocation := do
  match ← front {} args with
  | (before, none) =>
    let before ← before.close environment
    if anySet environment before then throw .noCommand else throw .nothing
  | (before, some (place, rest)) =>
    let after ← (← arguments place {} rest).close environment
    require place after
    let before ← before.close environment
    let value? (parameter : Parameter) : Option String :=
      (after.value? parameter).or
        ((before.value? parameter).or (parameter.variableName?.bind environment))
    return {
      command := place.command value?
      config := value? .config
      overrides := {
        genAi := (value? .genAi).bind switch?
        payloadLimit := (value? .payloadLimit).bind Config.byteSize?
        system := value? .system } }

end Telemetry.CommandLine
