import Telemetry.Attribute.Sink
import Telemetry.CommandLine.Parse
import Telemetry.Extract.Adapter
import Telemetry.Extract.Session
import Telemetry.Mapping.Builtin
import Telemetry.Program.Configure

/-!
# Commands

Listing the categories, resolving one payload attribute of a body, and
extracting a model invocation from the bodies of its request and response. The
payloads that a command reads are counted, and each ranks the keys of its maps
as it happens to.
-/

namespace Telemetry.Program

open CommandLine (Command Invocation)
open Extract (Extractor ModelCall Settings)
open Files (Host)
open Mapping (Category FieldMapping Phase Registry)
open Payload (Ranking)

/-- A mapping as a row of three columns. -/
def mappingLine (phase : Phase) (mapping : FieldMapping) : String :=
  "    " ++ phase.write { width := 9 } ++ " " ++
    ({ width := 45 } : Text.Column).write mapping.key ++ " " ++ mapping.path.display

def categoryLines (category : Category) : List String :=
  ["", "  " ++ category.name] ++
    [Phase.request, Phase.response].flatMap fun phase =>
      (category.mappings phase).map (mappingLine phase)

def resolvedLine (resolved : Payload.Resolved) : String :=
  resolved.key ++ " = " ++ resolved.value.display ++
    match resolved.derivation with
    | .direct => ""
    | .approximated => " (approximated)"

def attributeLine (entry : String × Attribute.Value) : String :=
  entry.1 ++ " = " ++ entry.2.display

section
variable {m : Type → Type} [Monad m]

def listCategories : Session m Unit := do
  print "FieldScope request categories:"
  Registry.builtin.categories.forM fun category => (categoryLines category).forM print

def resolve (host : Host m) (settings : Settings) (key file : String)
    (ranking : Ranking := .level) : Session m Unit := do
  match Payload.bodyAttribute? key with
  | none => throw (.unknownAttribute key)
  | some wanted =>
    let path := expand host file
    match Payload.parse (← readPayload host path settings.payloadLimit) ranking with
    | .error _ => throw (.payloadMalformed path)
    | .ok tree =>
      match wanted.resolve tree with
      | some resolved => print (resolvedLine resolved)
      | none => print (wanted.key ++ " not found")

/-- The call that a body file stands for; without a file it has no body. -/
def modelCall (host : Host m) (settings : Settings) (modelId : String) (file : Option String) :
    Session m ModelCall := do
  match file with
  | none => return { modelId := some modelId, body := none }
  | some file =>
    let bytes ← readPayload host (expand host file) settings.payloadLimit
    return { modelId := some modelId, body := some ⟨bytes⟩ }

def invocationRecords (settings : Settings) (request response : ModelCall)
    (rankings : Nat → Ranking := fun _ => .level) : Attribute.Records :=
  let e : Extractor := { registry := Registry.builtin, settings }
  let asked := e.onRequest Mapping.invokeModel request.source
    ({ state := () } : Field.World Unit) ({} : Attribute.Records) fun _ => rankings 0
  (e.onResponse Mapping.invokeModel response.source asked.world asked.sink
    fun _ => rankings 1).sink

def invoke (host : Host m) (settings : Settings) (modelId : String)
    (request response : Option String) (rankings : Nat → Ranking := fun _ => .level) :
    Session m Unit := do
  let request ← modelCall host settings modelId request
  let response ← modelCall host settings modelId response
  (invocationRecords settings request response rankings).entries.forM fun entry =>
    print (attributeLine entry)

def execute (host : Host m) (invocation : Invocation)
    (rankings : Nat → Ranking := fun _ => .level) : Session m Unit := do
  let settings ← configure host invocation.config invocation.overrides
  match invocation.command with
  | .categories => listCategories
  | .resolve key file => resolve host settings key file (rankings 0)
  | .invoke modelId request response =>
    invoke host settings modelId request response rankings

end

end Telemetry.Program
