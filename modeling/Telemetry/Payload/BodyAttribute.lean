import Telemetry.Attribute.Key
import Telemetry.Attribute.Value
import Telemetry.Payload.Pointer
import Telemetry.Payload.Scalar

/-!
# Attributes read from a payload

Model families put the same value in different places. An attribute lists
pointers in order of preference, and the first that reaches a node its kind
accepts wins, whoever produced the payload. A count may name texts besides:
when no pointer is accepted, the length of the first text found stands in.
-/

namespace Telemetry.Payload

inductive Kind where
  | text
  /-- The value in brackets, a sequence of one. -/
  | sequence
  | count
  | probability
  deriving DecidableEq, Repr

structure BodyAttribute where
  key : String
  kind : Kind
  candidates : List String
  textFallback : Option (List String) := none
  deriving DecidableEq, Repr

inductive Derivation where
  | direct
  | approximated
  deriving DecidableEq, Repr

structure Resolved where
  key : String
  value : Attribute.Value
  derivation : Derivation
  deriving DecidableEq

/-- What the first pointer with an accepted node is accepted as. -/
def firstMatch (paths : List String) (t : Tree) (accept : Tree → Except Failure α) : Option α :=
  paths.findSome? fun path => (t.pointer path).bind fun node => (accept node).toOption

def present (node : Tree) : Except Failure Tree :=
  match node with
  | .null => .error (.pathMiss "" "null value")
  | .rejected literal => .error (.outOfRange literal)
  | _ => .ok node

def resolveCandidates (paths : List String) (t : Tree) : Option Tree :=
  firstMatch paths t present

def rendered (node : Tree) : Except Failure String :=
  match node.render with
  | some s => .ok s
  | none => .error (.mismatch "non-empty value" node.kind)

def estimated (node : Tree) : Except Failure Int64 :=
  match node.asString? with
  | some s => .ok (approximateCount s)
  | none => .error (.mismatch "string" node.kind)

def BodyAttribute.resolve (wanted : BodyAttribute) (t : Tree) : Option Resolved :=
  let direct (value : Attribute.Value) : Resolved := ⟨wanted.key, value, .direct⟩
  match wanted.kind with
  | .text => (firstMatch wanted.candidates t rendered).map fun s => direct (.text s)
  | .sequence =>
    (firstMatch wanted.candidates t rendered).map fun s => direct (.text ("[" ++ s ++ "]"))
  | .probability =>
    (firstMatch wanted.candidates t Tree.toProbability).map fun x => direct (.float x)
  | .count =>
    match firstMatch wanted.candidates t Tree.toCount with
    | some n => some (direct (.int n))
    | none =>
      (wanted.textFallback.bind fun paths => firstMatch paths t estimated).map fun n =>
        ⟨wanted.key, .int n, .approximated⟩

-- ---------------------------------------------------------------------------
-- The built-in attributes
-- ---------------------------------------------------------------------------

def maxTokens : BodyAttribute where
  key := Attribute.Key.requestMaxTokens
  kind := .count
  candidates := ["/max_tokens", "/max_gen_len", "/textGenerationConfig/maxTokenCount",
    "/inferenceConfig/max_new_tokens"]

def temperature : BodyAttribute where
  key := Attribute.Key.requestTemperature
  kind := .probability
  candidates := ["/temperature", "/textGenerationConfig/temperature",
    "/inferenceConfig/temperature"]

def topP : BodyAttribute where
  key := Attribute.Key.requestTopP
  kind := .probability
  candidates := ["/top_p", "/p", "/textGenerationConfig/topP", "/inferenceConfig/top_p"]

def finishReasons : BodyAttribute where
  key := Attribute.Key.finishReasons
  kind := .sequence
  candidates := ["/stopReason", "/finish_reason", "/stop_reason", "/results/0/completionReason",
    "/generations/0/finish_reason", "/choices/0/finish_reason", "/outputs/0/stop_reason"]

def inputTokens : BodyAttribute where
  key := Attribute.Key.inputTokens
  kind := .count
  candidates := ["/inputTextTokenCount", "/prompt_token_count", "/usage/input_tokens",
    "/usage/prompt_tokens", "/usage/inputTokens"]
  textFallback := some ["/prompt", "/message"]

def outputTokens : BodyAttribute where
  key := Attribute.Key.outputTokens
  kind := .count
  candidates := ["/generation_token_count", "/results/0/tokenCount", "/usage/output_tokens",
    "/usage/completion_tokens", "/usage/outputTokens"]
  textFallback := some ["/text", "/outputs/0/text"]

def bodyAttributes : List BodyAttribute :=
  [maxTokens, temperature, topP, finishReasons, inputTokens, outputTokens]

def bodyAttribute? (key : String) : Option BodyAttribute :=
  bodyAttributes.find? (·.key == key)

end Telemetry.Payload
