import Telemetry.Program.Commands
import Telemetry.Proofs.Attribute.Records
import Telemetry.Proofs.Extract.Adapters
import Telemetry.Proofs.Payload.Values
import Telemetry.Proofs.Program.Session

/-!
# Resolving a payload attribute and extracting it

The command that resolves one attribute reads a body from a file and looks the
attribute up in it; an extraction comes to the same body through a model's
call and its mappings. Where payloads are decoded, the two agree for every
attribute that the phase asks for: what the command finds is what the
extraction puts under the attribute's key, once, and where it finds nothing
nothing is put there. Each reads the body for itself. Where the two reads rank the
keys of its maps differently, the two texts of a node may list its members
differently. A body that is too long or no document is a problem for
the command, and the extraction puts nothing that comes from a payload
(`resolve_eq_extract`).
-/

namespace Telemetry.Extract

open Attribute (KeyValues Sink)
open Telemetry.Field (Reading Source World)
open Mapping (FieldMapping Phase)
open Payload (BodyAttribute Resolved Tree)

variable {σ : Type}

-- ---------------------------------------------------------------------------
-- The mappings of a model invocation
-- ---------------------------------------------------------------------------

/-- A key that is only put because of a payload. -/
def isPayloadKey (key : String) : Bool :=
  (Payload.bodyAttribute? key).isSome || key == Attribute.Key.system

theorem invokeModel_plan (settings : Settings) (phase : Phase) :
    ({ registry := .builtin, settings } : Extractor).plan Mapping.invokeModel phase =
      Mapping.modelInvocation.mappings phase := by
  cases phase <;> rfl

/-- Payload attributes are read from the body, the others have keys of their own. -/
theorem modelInvocation_mappings (phase : Phase) :
    ∀ mapping ∈ Mapping.modelInvocation.mappings phase,
      (∃ wanted, mapping = .body wanted Mapping.bodyPath phase) ∨
        mapping.isPayload = false ∧ isPayloadKey mapping.key = false := by
  intro mapping h
  cases phase <;> fin_cases h
  · exact .inr (by decide)
  all_goals exact .inl ⟨_, rfl⟩

theorem modelInvocation_filter (phase : Phase) :
    ∀ mapping ∈ Mapping.modelInvocation.mappings phase,
      ∀ wanted ∈ Payload.bodyAttribute? mapping.key,
        (Mapping.modelInvocation.mappings phase).filter (·.key == mapping.key) =
          [.body wanted Mapping.bodyPath phase] := by
  cases phase <;> decide

-- ---------------------------------------------------------------------------
-- Its puts
-- ---------------------------------------------------------------------------

def modelPut (settings : Settings) (call : ModelCall) (rankings : Rankings)
    (mapping : FieldMapping) : Option Put :=
  plainPut settings (.ofFields (KnownCall.model call).fields) () rankings mapping

theorem any_payload (put : FieldMapping → Option Put) (mappings : List FieldMapping) :
    (mappings.filterMap fun mapping => (put mapping).map (mapping, ·)).any (·.1.isPayload) =
      mappings.any fun mapping => mapping.isPayload && (put mapping).isSome := by
  induction mappings with
  | nil => rfl
  | cons mapping rest ih => cases h : put mapping <;> simp [h, ih]

theorem extract_model (settings : Settings) (phase : Phase) (call : ModelCall) (world : World σ)
    (rankings : Rankings) :
    (({ registry := .builtin, settings } : Extractor).extract Mapping.invokeModel phase
        call.source world ({} : KeyValues) rankings).sink.entries =
      (Mapping.modelInvocation.mappings phase).filterMap (modelPut settings call rankings) ++
        systemPuts settings ((Mapping.modelInvocation.mappings phase).any fun mapping =>
          mapping.isPayload && (modelPut settings call rankings mapping).isSome) := by
  obtain ⟨hfault, hputs⟩ := (KnownCall.model call).trace_adapted settings
    (.inl (by decide) : IsBuiltin Mapping.invokeModel) phase world rankings
  refine (congrArg (·.sink.entries) (Extractor.extract_unbroken hfault ({} : KeyValues))).trans ?_
  simp only [Attribute.putAll_keyValues, List.nil_append, Trace.attributes, Trace.fromPayload,
    hputs, invokeModel_plan, any_payload, List.map_filterMap, Option.map_map, Function.comp_def,
    Option.map_id']
  rfl

theorem modelPut_body {settings : Settings} (genAi : settings.genAi = true)
    (modelId : Option String) (bytes : List UInt8) (rankings : Rankings) (wanted : BodyAttribute)
    (phase : Phase) :
    modelPut settings ⟨modelId, some ⟨bytes⟩⟩ rankings (.body wanted Mapping.bodyPath phase) =
      ((plainTree settings.payloadLimit (rankings Mapping.bodyPath.segments) (.bytes bytes)).bind
        wanted.resolve).map fun resolved => (resolved.key, resolved.value) := by
  simp only [modelPut, plainPut, FieldMapping.body, genAi, if_true]
  rfl

theorem plainPut_key {settings : Settings} {source : Source σ} {state : σ} {rankings : Rankings}
    {mapping : FieldMapping} {put : Put}
    (own : ∀ wanted, mapping.decode = .body wanted → wanted.key = mapping.key)
    (h : plainPut settings source state rankings mapping = some put) : put.1 = mapping.key := by
  obtain ⟨v, -, h⟩ := Option.bind_eq_some_iff.mp h
  cases hd : mapping.decode with
  | body wanted =>
    simp only [hd] at h
    split at h
    · obtain ⟨resolved, hresolved, rfl⟩ := Option.map_eq_some_iff.mp h
      obtain ⟨tree, -, hresolved⟩ := Option.bind_eq_some_iff.mp hresolved
      exact (BodyAttribute.resolve_reads hresolved).1.trans (own wanted hd)
    · cases h
  | _ =>
    simp only [hd] at h
    obtain ⟨-, -, rfl⟩ := Option.map_eq_some_iff.mp h
    rfl

theorem modelPut_key {settings : Settings} {call : ModelCall} {rankings : Rankings}
    {phase : Phase} {mapping : FieldMapping}
    (hm : mapping ∈ Mapping.modelInvocation.mappings phase) {put : Put}
    (h : modelPut settings call rankings mapping = some put) : put.1 = mapping.key := by
  refine plainPut_key (fun wanted hd => ?_) h
  rcases modelInvocation_mappings phase mapping hm with ⟨other, rfl⟩ | ⟨hp, -⟩
  · cases hd
    rfl
  · simp [FieldMapping.isPayload, hd] at hp

theorem mem_systemPuts {settings : Settings} {fromPayload : Bool} {put : Put}
    (h : put ∈ systemPuts settings fromPayload) :
    put.1 = Attribute.Key.system ∧ fromPayload = true := by
  unfold systemPuts at h
  split at h
  · obtain ⟨system, -, rfl⟩ := List.mem_map.mp h
    exact ⟨rfl, ‹_›⟩
  · cases h

theorem bodyAttribute?_key {key : String} {wanted : BodyAttribute}
    (h : Payload.bodyAttribute? key = some wanted) :
    wanted.key = key ∧ key ≠ Attribute.Key.system := by
  have hkey : wanted.key = key := by simpa using List.find?_some h
  have hown : ∀ wanted ∈ Payload.bodyAttributes, wanted.key ≠ Attribute.Key.system := by decide
  exact ⟨hkey, hkey ▸ hown wanted (List.mem_of_find?_eq_some h)⟩

section
variable {settings : Settings} {phase : Phase} {modelId : Option String} {bytes : List UInt8}
  {rankings : Rankings}

/-- Under the key of a payload attribute the extraction puts what the attribute
has in the body, once. -/
theorem extract_model_filter (genAi : settings.genAi = true) {key : String} {wanted : BodyAttribute}
    (answered : Payload.bodyAttribute? key = some wanted)
    (asked : key ∈ (Mapping.modelInvocation.mappings phase).map (·.key)) (world : World σ) :
    (({ registry := .builtin, settings } : Extractor).extract Mapping.invokeModel phase
        (ModelCall.source ⟨modelId, some ⟨bytes⟩⟩) world ({} : KeyValues)
        rankings).sink.entries.filter (·.1 == key) =
      ((plainTree settings.payloadLimit (rankings Mapping.bodyPath.segments) (.bytes bytes)).bind
        wanted.resolve).toList.map fun resolved => (resolved.key, resolved.value) := by
  obtain ⟨mapping, hm, rfl⟩ := List.mem_map.mp asked
  have hsystem (fromPayload : Bool) :
      (systemPuts settings fromPayload).filter (·.1 == mapping.key) = [] := by
    refine List.filter_eq_nil_iff.mpr fun put hput => ?_
    simp [(mem_systemPuts hput).1, Ne.symm (bodyAttribute?_key answered).2]
  have hputs : ((Mapping.modelInvocation.mappings phase).filterMap
        (modelPut settings ⟨modelId, some ⟨bytes⟩⟩ rankings)).filter (·.1 == mapping.key) =
      ((Mapping.modelInvocation.mappings phase).filter (·.key == mapping.key)).filterMap
        (modelPut settings ⟨modelId, some ⟨bytes⟩⟩ rankings) := by
    rw [List.filter_filterMap, List.filterMap_filter]
    refine List.filterMap_congr fun other hother => ?_
    cases hput : modelPut settings ⟨modelId, some ⟨bytes⟩⟩ rankings other with
    | none => simp
    | some put => simp [Option.filter, modelPut_key hother hput]
  rw [extract_model, List.filter_append, hsystem, List.append_nil, hputs,
    modelInvocation_filter phase mapping hm wanted answered, List.filterMap_cons,
    modelPut_body genAi]
  cases (plainTree settings.payloadLimit (rankings Mapping.bodyPath.segments) (.bytes bytes)).bind
    wanted.resolve <;> rfl

theorem plainTree_document {tree : Tree} (short : bytes.length ≤ settings.payloadLimit)
    (document : Payload.parse bytes = .ok tree) (ranking : Payload.Ranking) :
    plainTree settings.payloadLimit ranking (.bytes bytes) = some (tree.arrange ranking) := by
  simp [plainTree, short, Payload.parse_of_level document, Except.toOption]

theorem plainTree_eq_none (h : settings.payloadLimit < bytes.length ∨
      ∀ tree, Payload.parse bytes ≠ .ok tree) (ranking : Payload.Ranking) :
    plainTree settings.payloadLimit ranking (.bytes bytes) = none := by
  unfold plainTree
  dsimp only
  split
  · rename_i short
    obtain ⟨error, herror⟩ :=
      Payload.parse_error_of_level (h.resolve_left (Nat.not_lt.mpr short)) ranking
    rw [herror, Except.toOption]
  · rfl

theorem extract_model_treeless (genAi : settings.genAi = true)
    (treeless :
      plainTree settings.payloadLimit (rankings Mapping.bodyPath.segments) (.bytes bytes) = none)
    (world : World σ) :
    ∀ put ∈ (({ registry := .builtin, settings } : Extractor).extract Mapping.invokeModel phase
        (ModelCall.source ⟨modelId, some ⟨bytes⟩⟩) world ({} : KeyValues) rankings).sink.entries,
      isPayloadKey put.1 = false := by
  have hnone : ∀ mapping ∈ Mapping.modelInvocation.mappings phase,
      modelPut settings ⟨modelId, some ⟨bytes⟩⟩ rankings mapping = none ∨
        mapping.isPayload = false ∧ isPayloadKey mapping.key = false := by
    intro mapping hm
    refine (modelInvocation_mappings phase mapping hm).imp_left ?_
    rintro ⟨wanted, rfl⟩
    rw [modelPut_body genAi, treeless]
    rfl
  intro put hput
  rw [extract_model] at hput
  rcases List.mem_append.mp hput with hput | hput
  · obtain ⟨mapping, hm, hput⟩ := List.mem_filterMap.mp hput
    rcases hnone mapping hm with hnone | ⟨-, hkey⟩
    · rw [hnone] at hput
      cases hput
    · rw [modelPut_key hm hput]
      exact hkey
  · obtain ⟨mapping, hm, hany⟩ := List.any_eq_true.mp (mem_systemPuts hput).2
    rcases hnone mapping hm with hnone | ⟨hp, -⟩
    · simp [hnone] at hany
    · simp [hp] at hany

end

end Telemetry.Extract

namespace Telemetry.Program

open Attribute (KeyValues)
open Extract (Extractor ModelCall Rankings Settings reasonedAnswer reasonedPuts)
open Files (Host)
open Telemetry.Field (World)
open Mapping (Phase)
open Payload (BodyAttribute Ranking Resolved)

-- ---------------------------------------------------------------------------
-- The command
-- ---------------------------------------------------------------------------

def foundLine (key : String) : Option Resolved → String
  | some resolved => resolvedLine resolved
  | none => key ++ " not found"

theorem resolve_ran {host : Host Id} {settings : Settings} {key file : String}
    {bytes : List UInt8} (there : host.look (expand host file) = .file bytes)
    {wanted : BodyAttribute} (answered : Payload.bodyAttribute? key = some wanted)
    (ranking : Ranking) (report : Report) :
    (resolve host settings key file ranking).ran report =
      if settings.payloadLimit < bytes.length then
        (.error (.payloadTooLarge (expand host file) bytes.length settings.payloadLimit), report)
      else match Payload.parse bytes ranking with
        | .error _ => (.error (.payloadMalformed (expand host file)), report)
        | .ok tree =>
          let line := foundLine key (wanted.resolve tree)
          (.ok (), { report with lines := report.lines ++ [line] }) := by
  simp only [resolve, answered, bind_ran, readPayload_ran there]
  by_cases long : settings.payloadLimit < bytes.length
  · simp only [long, if_true]
  · simp only [long, if_false]
    cases Payload.parse bytes ranking with
    | error e => rfl
    | ok tree =>
      cases hfound : wanted.resolve tree with
      | some resolved => simp only [print_ran, foundLine, hfound]
      | none => simp only [print_ran, foundLine, hfound, (Extract.bodyAttribute?_key answered).1]

/-- The command fails on a body that is too long or no document, and prints nothing. -/
theorem resolve_refused {host : Host Id} {settings : Settings} {key file : String}
    {bytes : List UInt8} (there : host.look (expand host file) = .file bytes)
    {wanted : BodyAttribute} (answered : Payload.bodyAttribute? key = some wanted)
    (h : settings.payloadLimit < bytes.length ∨ ∀ tree, Payload.parse bytes ≠ .ok tree)
    (ranking : Ranking) (report : Report) :
    ∃ problem, (resolve host settings key file ranking).ran report = (.error problem, report) := by
  rw [resolve_ran there answered]
  split
  · exact ⟨_, rfl⟩
  · rename_i short
    obtain ⟨error, herror⟩ := Payload.parse_error_of_level (h.resolve_left short) ranking
    rw [herror]
    exact ⟨_, rfl⟩

/-- A line about what was found is never the one that says that nothing was. -/
theorem foundLine_eq_iff {key : String} {found : Option Resolved}
    (own : ∀ resolved, found = some resolved → resolved.key = key) :
    foundLine key found = key ++ " not found" ↔ found = none := by
  refine ⟨fun h => ?_, fun h => by rw [h, foundLine]⟩
  cases found with
  | none => rfl
  | some resolved =>
    have hlist := congrArg String.toList h
    simp [foundLine, resolvedLine, own resolved rfl] at hlist

/-- Where payloads are decoded, the command that resolves an attribute finds
what the extraction of a model invocation over the same body puts under its
key, once, and says that there is nothing where the extraction puts nothing
there. What is found in a body is one value but for the order in which a text lists
members, which the command and the extraction meet each on its own. Where the body
is too long or no document the command fails, and the extraction puts nothing that
comes from a payload. -/
theorem resolve_eq_extract (host : Host Id) (settings : Settings) (genAi : settings.genAi = true)
    (key : String) (wanted : BodyAttribute) (answered : Payload.bodyAttribute? key = some wanted)
    (phase : Phase) (asked : key ∈ (Mapping.modelInvocation.mappings phase).map (·.key))
    (file : String) (bytes : List UInt8) (there : host.look (expand host file) = .file bytes)
    (modelId : Option String) (world : World σ) (report : Report) :
    let e : Extractor := { registry := .builtin, settings }
    let call : ModelCall := { modelId, body := some ⟨bytes⟩ }
    let puts (rankings : Rankings) := match phase with
      | .request =>
        (e.onRequest Mapping.invokeModel call.source world ({} : KeyValues) rankings).sink.entries
      | .response =>
        (e.onResponse Mapping.invokeModel call.source world ({} : KeyValues) rankings).sink.entries
    let ran (ranking : Ranking) := (resolve host settings key file ranking).run.run report
    (bytes.length ≤ settings.payloadLimit → ∀ tree, Payload.parse bytes = .ok tree →
      ∃ found : Ranking → Option Resolved,
        (∀ ranking ranking', Option.Rel Resolved.Relisted (found ranking) (found ranking')) ∧
        (∀ ranking,
          ran ranking =
            (.ok (), { report with lines := report.lines ++ [foundLine key (found ranking)] }) ∧
          (foundLine key (found ranking) = key ++ " not found" ↔ found ranking = none)) ∧
        ∀ rankings, (puts rankings).filter (·.1 == key) =
          (found (rankings Mapping.bodyPath.segments)).toList.map fun resolved =>
            (resolved.key, resolved.value)) ∧
    (settings.payloadLimit < bytes.length ∨ (∀ tree, Payload.parse bytes ≠ .ok tree) →
      (∀ ranking, ∃ problem, ran ranking = (.error problem, report)) ∧
        ∀ rankings, ∀ put ∈ puts rankings, Extract.isPayloadKey put.1 = false) := by
  intro e call puts ran
  have hputs (rankings : Rankings) : puts rankings =
      (e.extract Mapping.invokeModel phase call.source world ({} : KeyValues)
        rankings).sink.entries := by
    cases phase <;> rfl
  have hran (ranking : Ranking) : ran ranking = _ := resolve_ran there answered ranking report
  refine ⟨?_, ?_⟩
  · intro short tree htree
    refine ⟨fun ranking => wanted.resolve (tree.arrange ranking), ?_, fun ranking => ⟨?_, ?_⟩, ?_⟩
    · exact BodyAttribute.resolve_relisted (Payload.parse_keysDiffer htree) wanted
    · rw [hran, if_neg (Nat.not_lt.mpr short), Payload.parse_of_level htree]
    · refine foundLine_eq_iff fun resolved hresolved => ?_
      exact (Payload.BodyAttribute.resolve_reads hresolved).1.trans
        (Extract.bodyAttribute?_key answered).1
    · intro rankings
      rw [hputs, Extract.extract_model_filter genAi answered asked,
        Extract.plainTree_document short htree]
      rfl
  · intro h
    refine ⟨fun ranking => resolve_refused there answered h ranking report, fun rankings => ?_⟩
    rw [hputs]
    exact Extract.extract_model_treeless genAi (Extract.plainTree_eq_none h _) world

def askedBody : List UInt8 := Utf8.ofString "\x7b\"max_tokens\":5\x7d"

def askedHost : Host Id where
  look _ := .file askedBody
  environment _ := none
  home := none
  working := "/"

theorem resolve_eq_extract_max_tokens :
    let e : Extractor := { registry := .builtin, settings := { payloadLimit := 16 } }
    let call : ModelCall := { modelId := some "m", body := some ⟨askedBody⟩ }
    let puts := (e.onRequest Mapping.invokeModel call.source ({ state := () } : World Unit)
      ({} : KeyValues)).sink.entries
    ∃ found : Option Resolved,
      foundLine Attribute.Key.requestMaxTokens found = "gen_ai.request.max_tokens = 5" ∧
        puts.filter (·.1 == Attribute.Key.requestMaxTokens) =
          found.toList.map fun resolved => (resolved.key, resolved.value) := by
  intro e call puts
  obtain ⟨tree, htree⟩ : ∃ tree, Payload.parse askedBody = .ok tree := by
    have hok : (Payload.parse askedBody).toOption.isSome = true := by decide +kernel
    cases hparse : Payload.parse askedBody with
    | ok tree => exact ⟨tree, rfl⟩
    | error e => simp [hparse, Except.toOption] at hok
  obtain ⟨found, -, hran, hputs⟩ := (resolve_eq_extract askedHost { payloadLimit := 16 } rfl
    Attribute.Key.requestMaxTokens Payload.maxTokens (by decide) .request (by decide) "body.json"
    askedBody rfl (some "m") { state := () } {}).1 (by decide +kernel) tree htree
  have hline : ((resolve askedHost { payloadLimit := 16 } Attribute.Key.requestMaxTokens
      "body.json").run.run {}).2.lines = ["gen_ai.request.max_tokens = 5"] := by
    decide +kernel
  have hran : (resolve askedHost { payloadLimit := 16 } Attribute.Key.requestMaxTokens
      "body.json").run.run {} = _ := (hran .level).1
  rw [hran] at hline
  exact ⟨found .level, (List.cons.inj hline).1, hputs .level⟩

theorem resolve_extract_relisted :
    let host : Host Id := { askedHost with
      look := fun _ => .file (reasonedAnswer.body.elim [] (·.bytes)) }
    let e : Extractor := { registry := .builtin, settings := {} }
    (e.onResponse Mapping.invokeModel reasonedAnswer.source ({ state := () } : World Unit)
        ({} : KeyValues)).sink.entries =
        reasonedPuts "[\x7b\"b\":1,\"a\":2\x7d]" ∧
      ((resolve host {} Attribute.Key.finishReasons "body.json" Payload.aFirst).run.run
          {}).2.lines =
        ["gen_ai.response.finish_reasons = [\x7b\"a\":2,\"b\":1\x7d]"] := by
  decide +kernel

end Telemetry.Program
