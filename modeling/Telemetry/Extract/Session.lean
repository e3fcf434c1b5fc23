import Telemetry.Attribute.Sink
import Telemetry.Extract.Settings
import Telemetry.Field.Render
import Telemetry.Field.Traverse
import Telemetry.Mapping.Registry

/-!
# Extraction

For one phase of a call, each mapping of the operation and then of its
category is tried on the call's fields, and what it yields is put into the
sink. A mapping that yields nothing is skipped. A payload that several
mappings reach is loaded and read once, whether that succeeds or not. Only a
fault while an object is rendered ends an extraction early; what was put
before it stays in the sink.

Every payload that is read ranks the keys of its maps anew, so an extraction
is told which ranking it happens to meet at each path. It loads no path twice.
-/

namespace Telemetry.Extract

open Attribute (Sink)
open Telemetry.Field (Cache Fault Source World)
open Mapping (Decode FieldMapping FieldPath Operation Phase Registry)
open Payload (Ranking Tree)

structure Extractor where
  registry : Registry
  settings : Settings

/-- The mappings of a call in the order in which they are tried. -/
def Extractor.plan (e : Extractor) (operation : Operation) (phase : Phase) : List FieldMapping :=
  operation.mappings phase ++ e.registry.mappings operation.category phase

/-- How the payload at each path ranks the keys of its maps. -/
abbrev Rankings := List String → Ranking

def Rankings.level : Rankings := fun _ => .level

structure Session (σ κ : Type) where
  world : World σ
  sink : κ
  rankings : Rankings
  /-- The payloads loaded so far, by path. -/
  payloads : List (List String × Option Tree) := []
  written : Nat := 0
  /-- Whether a payload gave an attribute. -/
  fromPayload : Bool := false

abbrev Action (σ κ : Type) := EStateM Fault (Session σ κ)

section
variable {σ κ : Type} [Sink κ]

def traverse (source : Source σ) (path : List String) : Action σ κ (Except Failure Field.Value) :=
  fun s =>
    let (result, world) := source.traverse path s.world
    .ok result { s with world }

def renderValue (v : Field.Value) : Action σ κ (Option String) :=
  match v.render with
  | .ok text => pure text
  | .error fault => throw fault

def decodeText (decode : Decode) (v : Field.Value) (text : String) :
    Except Failure Attribute.Value :=
  match decode with
  | .count =>
    match Payload.count? text with
    | some n => .ok (.int n)
    | none => .error (.mismatch "integer" v.kind)
  | _ => .ok (.text text)

def readField (source : Source σ) (mapping : FieldMapping) :
    Action σ κ (Except Failure Attribute.Value) := do
  match ← traverse source mapping.path.segments with
  | .error failure => return .error failure
  | .ok v =>
    match ← renderValue v with
    | none => return .error (.pathMiss mapping.path.last "empty value")
    | some text => return decodeText mapping.decode v text

def payloadBytes (v : Field.Value) : Except Failure (List UInt8) :=
  match v with
  | .bytes bs => .ok bs
  | .text s => .ok (Utf8.ofString s)
  | v => .error (.mismatch "payload" v.kind)

def payloadTree (limit : Nat) (ranking : Ranking) (v : Field.Value) : Except Failure Tree := do
  let bytes ← payloadBytes v
  if limit < bytes.length then .error (.tooLarge bytes.length limit)
  else (Payload.parse bytes ranking).mapError .malformedPayload

def loadPayload (limit : Nat) (source : Source σ) (path : List String) :
    Action σ κ (Option Tree) := do
  let s ← get
  match Entries.get? s.payloads path with
  | some loaded => return loaded
  | none =>
    let result ← traverse source path
    let loaded := (result.bind (payloadTree limit (s.rankings path))).toOption
    modify fun s => { s with payloads := s.payloads ++ [(path, loaded)] }
    return loaded

def emit (key : String) (value : Attribute.Value) : Action σ κ Unit :=
  modify fun s => { s with sink := Attribute.put s.sink key value, written := s.written + 1 }

def visit (settings : Settings) (source : Source σ) (mapping : FieldMapping) :
    Action σ κ Unit := do
  match mapping.decode with
  | .body wanted =>
    if settings.genAi then
      match ← loadPayload settings.payloadLimit source mapping.path.segments with
      | none => return
      | some tree =>
        match wanted.resolve tree with
        | none => return
        | some resolved =>
          emit resolved.key resolved.value
          modify fun s => { s with fromPayload := true }
  | _ =>
    match ← readField source mapping with
    | .error _ => return
    | .ok value => emit mapping.key value

/-- The system's name, unless it is blank. -/
def Settings.activeSystem (settings : Settings) : Option String :=
  settings.system.filter fun system => !Text.allBlank system

def nameSystem (settings : Settings) : Action σ κ Unit := do
  if (← get).fromPayload then
    match settings.activeSystem with
    | some system => emit Attribute.Key.system (.text system)
    | none => return

def visitAll (settings : Settings) (source : Source σ) : List FieldMapping → Action σ κ Unit
  | [] => return
  | mapping :: rest => do
    visit settings source mapping
    visitAll settings source rest

/-- What an extraction leaves: the number of attributes put or the fault that
ended it, and the sink and world after it. -/
structure Outcome (σ κ : Type) where
  written : Except Fault Nat
  sink : κ
  world : World σ

def Extractor.extract (e : Extractor) (operation : Operation) (phase : Phase)
    (source : Source σ) (world : World σ) (sink : κ) (rankings : Rankings := .level) :
    Outcome σ κ :=
  let action : Action σ κ Unit := do
    visitAll e.settings source (e.plan operation phase)
    nameSystem e.settings
  match action { world, sink, rankings } with
  | .ok _ s => ⟨.ok s.written, s.sink, s.world⟩
  | .error fault s => ⟨.error fault, s.sink, s.world⟩

def Extractor.onRequest (e : Extractor) (operation : Operation) (source : Source σ)
    (world : World σ) (sink : κ) (rankings : Rankings := .level) : Outcome σ κ :=
  e.extract operation .request source world sink rankings

def Extractor.onResponse (e : Extractor) (operation : Operation) (source : Source σ)
    (world : World σ) (sink : κ) (rankings : Rankings := .level) : Outcome σ κ :=
  e.extract operation .response source world sink rankings

/-- Records why a call failed, in place of the attributes of a response. -/
def Extractor.onFailure (_ : Extractor) (_ : Operation) (errorType : String) (sink : κ) :
    Nat × κ :=
  if errorType.isEmpty then (0, sink)
  else (1, Attribute.put sink Attribute.Key.errorType (.text errorType))

end

end Telemetry.Extract
