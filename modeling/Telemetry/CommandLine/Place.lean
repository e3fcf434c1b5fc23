import Telemetry.CommandLine.Parameter
import Telemetry.Entries

/-!
# Places on the command line

A command line has two places for parameters, before the command's name and
after it. In each place arguments are taken one by one. A parameter's value
is checked late: at the next parameter, or where the place ends. A parameter
named without a value waits for the next argument, unless that starts with a
dash.
-/

namespace Telemetry.CommandLine

inductive Place where
  | front
  | categories
  | resolve
  | invoke
  deriving DecidableEq, Repr

namespace Place

def named : Place → List Parameter
  | .front => shared
  | .categories => shared
  | .resolve => .attributeKey :: shared
  | .invoke => [.modelId, .request, .response] ++ shared

def required : Place → List Parameter
  | .front => []
  | .categories => []
  | .resolve => [.attributeKey, .file]
  | .invoke => [.modelId]

def long? (place : Place) (name : String) : Option Parameter :=
  place.named.find? (·.long? == some name)

def short? (place : Place) (letter : Char) : Option Parameter :=
  place.named.find? (·.short? == some letter)

end Place

def command? : String → Option Place
  | "categories" => some .categories
  | "resolve" => some .resolve
  | "invoke" => some .invoke
  | _ => none

def helpName : String := "help"

/-- What asks for help may name a command, and no more. -/
def helpOn : List String → Usage
  | [] => .help
  | [name] => if name = helpName ∨ (command? name).isSome then .help else .unknownCommand
  | _ => .unknownCommand

/-- A place that has been read so far. -/
structure Draft where
  values : List (Parameter × String) := []
  /-- The parameter named last and its value, not checked yet. -/
  pending : Option (Parameter × Option String) := none
  /-- Whether two dashes have ended the named parameters. -/
  plainOnly : Bool := false
  fileSeen : Bool := false
  deriving DecidableEq, Repr

namespace Draft

def value? (draft : Draft) (parameter : Parameter) : Option String :=
  Entries.get? draft.values parameter

def set (draft : Draft) (parameter : Parameter) (value : String) : Except Usage Draft := do
  if (draft.value? parameter).isSome then throw .repeated
  parameter.check value
  return { draft with values := draft.values ++ [(parameter, value)] }

/-- Settles the parameter that is pending. -/
def settle (draft : Draft) : Except Usage Draft :=
  match draft.pending with
  | none => .ok draft
  | some (_, none) => .error .badValue
  | some (parameter, some value) => { draft with pending := none }.set parameter value

def name (draft : Draft) (parameter : Parameter) (value : Option String) : Except Usage Draft := do
  let draft ← draft.settle
  match value with
  | some value => draft.set parameter value
  | none => return { draft with pending := some (parameter, none) }

/-- The complaint of a flag that ends everything, after what is pending. -/
def flag (draft : Draft) (usage : Usage) : Except Usage Draft := do
  let _ ← draft.settle
  throw usage

/-- An argument that starts with two dashes. -/
def long (place : Place) (draft : Draft) (text : List Char) : Except Usage Draft :=
  let name := String.ofList (text.takeWhile (· != '='))
  let value := match text.dropWhile (· != '=') with
    | [] => none
    | _ :: rest => some (String.ofList rest)
  match place.long? name with
  | some parameter => draft.name parameter value
  | none =>
    let usage? : Option Usage :=
      if name = helpName then some .help
      else if place = .front ∧ name = "version" then some .version
      else none
    match usage?, value with
    | none, _ => .error .unknownArgument
    | some _, some _ => .error .unexpectedValue
    | some usage, none => draft.flag usage

/-- The value written behind a letter; an equals sign may part them. -/
def attached : List Char → Option String
  | [] => none
  | '=' :: rest => some (String.ofList rest)
  | rest => some (String.ofList rest)

def short (place : Place) (draft : Draft) (letter : Char) (rest : List Char) :
    Except Usage Draft :=
  match place.short? letter with
  | some parameter => draft.name parameter (attached rest)
  | none =>
    if letter = 'h' then draft.flag .help
    else if place = .front ∧ letter = 'V' then draft.flag .version
    else .error .unknownArgument

/-- Whether the next argument can be the value that is missing. -/
def isWaiting (draft : Draft) : Bool :=
  !draft.plainOnly && match draft.pending with
    | some (_, none) => true
    | _ => false

/-- An argument that names no parameter. -/
def plain (place : Place) (draft : Draft) (argument : String) : Except Usage Draft :=
  match draft.isWaiting, draft.pending with
  | true, some (parameter, _) => .ok { draft with pending := some (parameter, some argument) }
  | _, _ =>
    match place with
    | .resolve => do
      if draft.fileSeen then throw .unknownArgument
      return { ← draft.settle with pending := some (.file, some argument), fileSeen := true }
    | .front =>
      if draft.plainOnly ∧ (argument = helpName ∨ (command? argument).isSome) then
        .error .unknownArgument
      else .error .unknownCommand
    | _ => .error .unknownArgument

def argument (place : Place) (draft : Draft) (text : String) : Except Usage Draft :=
  if draft.plainOnly then draft.plain place text
  else match text.toList with
    | ['-', '-'] => .ok { draft with plainOnly := true }
    | '-' :: '-' :: rest => long place draft rest
    | '-' :: letter :: rest => short place draft letter rest
    | _ => draft.plain place text

def checkVariables (environment : String → Option String) (draft : Draft) : Except Usage Unit :=
  shared.forM fun parameter =>
    match draft.value? parameter, parameter.variableName?.bind environment with
    | none, some value => parameter.check value
    | _, _ => .ok ()

/-- Settles a place and checks the variables that it leaves to. -/
def close (environment : String → Option String) (draft : Draft) : Except Usage Draft := do
  let draft ← draft.settle
  draft.checkVariables environment
  return draft

end Draft

end Telemetry.CommandLine
