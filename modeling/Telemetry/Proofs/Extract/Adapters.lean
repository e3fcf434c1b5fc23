import Telemetry.Extract.Adapter
import Telemetry.Mapping.Builtin
import Telemetry.Proofs.Extract.History

/-!
# Calls of known types, and the same calls as objects

A call of a known type answers the names that its service uses. The same call
as an object has getters of other names, which accessors are found for. Under
the names that the built-in mappings ask for the two answer alike
(`KnownCall.get?_eq`): the accessor of such a name is the getter that the
adapter has for it, and there is none for a name that the adapter refuses. So
a built-in operation puts the same from both (`extract_adapted_eq_reflected`), up to
the order in which the body of each lists its members (`extract_adapted_relisted`).
What a call of a known type answers is never an object, so for it the
accessor cache plays no part at all (`Extractor.trace_flat`).
-/

namespace Telemetry.Field

-- ---------------------------------------------------------------------------
-- Sources without objects
-- ---------------------------------------------------------------------------

theorem walk_flat (cache : Cache) {v : Value} (h : ∀ target, v ≠ .object target)
    (path : List String) : (walk cache v path).2 = cache := by
  cases path with
  | nil => simp only [walk]
  | cons segment rest =>
    cases v with
    | object target => exact absurd rfl (h target)
    | _ => simp only [walk]

theorem Source.traverse_flat {field : String → Reading}
    (flat : ∀ name target, field name ≠ .value (.object target)) (first : String)
    (rest : List String) (w : World σ) :
    ((Source.ofFields field).traverse (first :: rest) w).2 = w := by
  simp only [Source.traverse, Source.ofFields, Source.lookup]
  cases hf : field first with
  | value v =>
    have hwalk := walk_flat w.cache (fun target hv => flat first target (hv ▸ hf)) rest
    simp only [hwalk]
  | _ => rfl

/-- Nothing, or a value without parts. -/
def Reading.IsPlain : Reading → Prop
  | .value (.text _) => True
  | .value (.bytes _) => True
  | .absent => True
  | _ => False

theorem Reading.IsPlain.flat {reading : Reading} (h : reading.IsPlain) (target : Object) :
    reading ≠ .value (.object target) := by
  rintro rfl
  exact h

theorem Reading.IsPlain.conforms {reading : Reading} (h : reading.IsPlain) (table : TypeTable) :
    reading.Conforms table := by
  cases reading with
  | value v => cases v <;> trivial
  | _ => trivial

theorem Reading.IsPlain.faults {reading : Reading} (h : reading.IsPlain) {path : List String}
    {v : Value} (hv : reading.toOption.bind (·.descend path) = some v) : v.faults 0 = [] := by
  cases reading with
  | value w =>
    cases path with
    | nil =>
      obtain rfl : w = v := by simpa [Reading.toOption, Value.descend] using hv
      cases w <;> trivial
    | cons segment rest =>
      have hchild : w.child? segment = none := by cases w <;> trivial
      simp [Reading.toOption, Value.descend, hchild] at hv
  | absent => cases hv
  | fault f => cases hv

theorem Reading.toOption_ofOption (value : Option Value) :
    (Reading.ofOption value).toOption = value := by
  cases value <;> rfl

end Telemetry.Field

namespace Telemetry.Extract

open Attribute (KeyValues Sink)
open Telemetry.Field (Cache Getter Object Reading Source TypeKey TypeTable World)
open Mapping (Category FieldMapping Operation Phase Registry)

variable {σ κ : Type}

theorem Extractor.trace_flat (e : Extractor) (operation : Operation) (phase : Phase)
    {field : String → Reading} (flat : ∀ name target, field name ≠ .value (.object target))
    (cache : Cache) (state : σ) (rankings : Rankings) :
    (e.trace operation phase (.ofFields field) ⟨cache, state⟩ rankings).puts =
        (e.trace operation phase (.ofFields field) ⟨{}, state⟩ rankings).puts ∧
      (e.trace operation phase (.ofFields field) ⟨cache, state⟩ rankings).fault =
        (e.trace operation phase (.ofFields field) ⟨{}, state⟩ rankings).fault := by
  have hend : (e.trace operation phase (.ofFields field) ⟨{}, state⟩ rankings).readings.world =
      ⟨{}, state⟩ := by
    refine attempts_world (P := fun w => w = ⟨{}, state⟩) ?_ rfl _
    intro first rest w hw
    rw [Source.traverse_flat flat, hw]
  have hlast : ({} : Cache).Keeps
      (e.trace operation phase (.ofFields field) ⟨{}, state⟩ rankings).readings.world.cache := by
    rw [hend]
    exact Field.Cache.keeps_self _
  obtain ⟨hputs, hfault, -⟩ := e.trace_echoes operation phase (Source.alike_self _ state) rankings
    ⟨cache.keeps_empty, cache.keeps_empty.consistent.symm⟩ hlast
  exact ⟨hputs, hfault⟩

-- ---------------------------------------------------------------------------
-- Calls of known types
-- ---------------------------------------------------------------------------

/-- A call of a known type; a table's has no fields but its name. -/
inductive KnownCall where
  | objectStorage (call : ObjectStorageCall)
  | queue (call : QueueCall)
  | stream (call : StreamCall)
  | table (tableName : Option String)
  | model (call : ModelCall)

namespace KnownCall

def source : KnownCall → Source σ
  | .objectStorage call => call.source
  | .queue call => call.source
  | .stream call => call.source
  | .table tableName => ({ tableName } : TableCall).source
  | .model call => call.source

/-- The names that are answered, and the getters behind them. -/
def wires : KnownCall → List (String × Getter)
  | .objectStorage call => [("Bucket", .mk "bucket" (given call.bucket))]
  | .queue call =>
    [("QueueUrl", .mk "queue_url" (given call.queueUrl)),
      ("QueueName", .mk "queue_name" (given call.queueName))]
  | .stream call => [("StreamName", .mk "stream_name" (given call.streamName))]
  | .table tableName => [("TableName", .mk "table_name" (given tableName))]
  | .model call =>
    [("modelId", .mk "model_id" (given call.modelId)), ("body", .mk "body" (given call.body))]

def getters (call : KnownCall) : List Getter :=
  call.wires.map (·.2)

def object (call : KnownCall) (type : TypeKey) (typeName : String) : Object :=
  .mk type typeName call.getters

end KnownCall

/-- The top-level names that the built-in mappings ask for. -/
def builtinNames : List String :=
  (Mapping.builtinCategories.flatMap (fun category => category.request ++ category.response) ++
    Mapping.builtinOperations.flatMap (·.fields)).map (·.path.first)

/-- An operation of the built-in table, or one without mappings of its own. -/
def IsBuiltin (operation : Operation) : Prop :=
  operation ∈ Mapping.builtinOperations ∨ ∃ category, operation = .generic category

theorem mem_builtinNames {operation : Operation} (builtin : IsBuiltin operation)
    {settings : Settings} {phase : Phase} {mapping : FieldMapping}
    (h : mapping ∈ ({ registry := .builtin, settings } : Extractor).plan operation phase) :
    mapping.path.first ∈ builtinNames := by
  refine List.mem_map_of_mem (List.mem_append.mpr ?_)
  rcases List.mem_append.mp h with hop | hcategory
  · have hfields := (List.mem_filter.mp hop).1
    rcases builtin with hop | ⟨category, rfl⟩
    · exact .inr (List.mem_flatMap_of_mem hop hfields)
    · simp [Operation.generic] at hfields
  · refine .inl ?_
    simp only [Registry.mappings] at hcategory
    split at hcategory
    · rename_i found hfound
      obtain ⟨place, -, hplace⟩ := Option.bind_eq_some_iff.mp hfound
      refine List.mem_flatMap_of_mem (List.mem_of_getElem? hplace) (List.mem_append.mpr ?_)
      cases phase with
      | request => exact .inl hcategory
      | response => exact .inr hcategory
    · simp at hcategory

-- ---------------------------------------------------------------------------
-- The same answers
-- ---------------------------------------------------------------------------

def knownNames : List (List (String × String)) := [
  [("Bucket", "bucket")],
  [("QueueUrl", "queue_url"), ("QueueName", "queue_name")],
  [("StreamName", "stream_name")],
  [("TableName", "table_name")],
  [("modelId", "model_id"), ("body", "body")]]

/-- Of the names that the built-in mappings ask for, discovery finds a getter
for those that the type answers, and for no others. -/
theorem discover_knownNames : ∀ names ∈ knownNames, ∀ name ∈ builtinNames,
    (Field.discover (names.map (·.2)) name).map (·.slot) = names.findIdx? (name == ·.1) := by
  decide +kernel

namespace KnownCall

theorem mem_knownNames (call : KnownCall) :
    (call.wires.map fun wire => (wire.1, wire.2.name)) ∈ knownNames := by
  cases call <;> simp [wires, knownNames, Getter.name]

def fields (call : KnownCall) (name : String) : Reading :=
  ((call.wires.find? (name == ·.1)).map (·.2.reading)).getD .absent

theorem source_eq (call : KnownCall) : (call.source : Source σ) = .ofFields call.fields := by
  have fields_eq {given fields : String → Reading} (h : ∀ name, given name = fields name) :
      (Source.ofFields given : Source σ) = .ofFields fields :=
    congrArg _ (funext h)
  cases call <;> refine fields_eq fun name => ?_ <;> split <;>
    simp_all [fields, wires, Getter.reading]

theorem wires_plain (call : KnownCall) : ∀ wire ∈ call.wires, wire.2.reading.IsPlain := by
  have given_plain (value : Option String) : (given value).IsPlain := by cases value <;> trivial
  cases call with
  | model call =>
    have body_plain : (given call.body).IsPlain := by cases call.body <;> trivial
    simp [wires, Getter.reading, given_plain, body_plain]
  | _ => simp [wires, Getter.reading, given_plain]

theorem fields_plain (call : KnownCall) (name : String) : (call.fields name).IsPlain := by
  unfold fields
  cases hwire : call.wires.find? (name == ·.1) with
  | none => trivial
  | some wire => exact call.wires_plain wire (List.mem_of_find?_eq_some hwire)

theorem object_conforms (call : KnownCall) {table : TypeTable} {type : TypeKey}
    (named : table type = call.getters.map Getter.name) (typeName : String) :
    (call.object type typeName).Conforms table := by
  refine ⟨named.symm, ?_⟩
  have conform (wires : List (String × Getter)) (plain : ∀ wire ∈ wires, wire.2.reading.IsPlain) :
      Field.gettersConform table (wires.map (·.2)) := by
    induction wires with
    | nil => trivial
    | cons wire rest ih =>
      obtain ⟨name, getter⟩ := wire
      cases getter
      exact ⟨(plain _ List.mem_cons_self).conforms table,
        ih fun wire h => plain wire (List.mem_cons_of_mem _ h)⟩
  exact conform call.wires call.wires_plain

/-- Under a name that a built-in mapping asks for, the object has what the
call answers. -/
theorem get?_eq (call : KnownCall) (type : TypeKey) (typeName : String) {name : String}
    (h : name ∈ builtinNames) :
    (call.object type typeName).get? name = (call.fields name).toOption := by
  have hslot := discover_knownNames _ call.mem_knownNames name h
  simp only [List.map_map, List.findIdx?_map, Function.comp_def] at hslot
  have hget : (call.object type typeName).get? name =
      (call.wires.findIdx? (name == ·.1)).bind fun slot =>
        ((call.object type typeName).call slot).toOption := by
    rw [← hslot, Option.bind_map]
    simp only [Object.get?, Object.names, object, Object.getters, getters, List.map_map]
    rfl
  rw [hget, fields, List.find?_eq_bind_findIdx?_getElem?]
  cases call.wires.findIdx? (name == ·.1) with
  | none => rfl
  | some slot =>
    simp only [Option.bind_some, Object.call, object, Object.getters, getters, List.getElem?_map]
    cases call.wires[slot]? <;> rfl

end KnownCall

-- ---------------------------------------------------------------------------
-- The same puts
-- ---------------------------------------------------------------------------

theorem plainPut_eq {τ : Type} {settings : Settings} {source : Source σ} {state : σ}
    {other : Source τ} {state' : τ} {mapping : FieldMapping}
    (h : (other.answer mapping.path.first state').1.toOption =
      (source.answer mapping.path.first state).1.toOption) (rankings : Rankings) :
    plainPut settings other state' rankings mapping =
      plainPut settings source state rankings mapping := by
  simp only [plainPut, Mapping.FieldPath.segments, Source.value?, h]

/-- A run over an object that answers what a call of a known type answers
makes that call's puts. -/
theorem KnownCall.trace_object (call : KnownCall) (source : Source σ) (world : World σ)
    {table : TypeTable} (repeatable : source.Repeatable world.state)
    (conforms : source.Conforms table world.state) (agrees : world.cache.Agrees table)
    (answers : ∀ name ∈ builtinNames,
      (source.answer name world.state).1.toOption = (call.fields name).toOption)
    (settings : Settings) {operation : Operation} (builtin : IsBuiltin operation) (phase : Phase)
    (rankings : Rankings) :
    let e : Extractor := { registry := .builtin, settings }
    (e.trace operation phase source world rankings).fault = none ∧
      (e.trace operation phase source world rankings).puts =
        (e.plan operation phase).filterMap fun mapping =>
          (plainPut settings (.ofFields call.fields) () rankings mapping).map (mapping, ·) := by
  intro e
  have hanswer : ∀ mapping ∈ e.plan operation phase,
      (source.answer mapping.path.first world.state).1.toOption =
        (call.fields mapping.path.first).toOption :=
    fun mapping hm => answers _ (mem_builtinNames builtin hm)
  obtain ⟨hfault, hputs⟩ := e.trace_plain operation phase rankings repeatable conforms agrees (by
    intro mapping hm _ v hv
    simp only [Mapping.FieldPath.segments, Source.value?, hanswer mapping hm] at hv
    exact (call.fields_plain _).faults hv)
  refine ⟨hfault, hputs.trans (List.filterMap_congr fun mapping hm => ?_)⟩
  have hsame : (source.answer mapping.path.first world.state).1.toOption =
      ((Source.ofFields call.fields : Source Unit).answer mapping.path.first ()).1.toOption :=
    hanswer mapping hm
  rw [plainPut_eq hsame]

theorem KnownCall.trace_adapted (call : KnownCall) (settings : Settings) {operation : Operation}
    (builtin : IsBuiltin operation) (phase : Phase) (world : World σ) (rankings : Rankings) :
    let e : Extractor := { registry := .builtin, settings }
    (e.trace operation phase call.source world rankings).fault = none ∧
      (e.trace operation phase call.source world rankings).puts =
        (e.plan operation phase).filterMap fun mapping =>
          (plainPut settings (.ofFields call.fields) () rankings mapping).map (mapping, ·) := by
  intro e
  obtain ⟨hputs, hfault⟩ := e.trace_flat operation phase
    (fun name => (call.fields_plain name).flat) world.cache world.state rankings
  rw [call.source_eq, hputs, hfault]
  have hconforms : (Source.ofFields call.fields).Conforms (fun _ => []) world.state :=
    Source.ofFields_conforms (fun name => (call.fields_plain name).conforms _) world.state
  exact call.trace_object _ ⟨{}, world.state⟩ (fun _ _ => rfl) hconforms
    (Field.Cache.agrees_empty _) (fun _ _ => rfl) settings builtin phase rankings

/-- For a built-in operation a call of a known type, and an object with the
same getters whose type has no others, make the same puts and give the same
count, whether the object is read through the traversal's cache or through one
of its own. The traversal's cache plays no part for the call. Only the order in
which the payload happens to list its members is not for them to say. -/
theorem extract_adapted_eq_reflected (call : KnownCall) (settings : Settings)
    (operation : Operation) (builtin : IsBuiltin operation) (phase : Phase) (type : TypeKey)
    (typeName : String) (table : TypeTable) (named : table type = call.getters.map Getter.name)
    (state : σ) (known cache own : Cache) (agrees : cache.Agrees table)
    (agreesOwn : own.Agrees table) :
    let e : Extractor := { registry := .builtin, settings }
    let object := call.object type typeName
    ∃ puts : Rankings → List Put, UpToListing puts ∧
      ∀ (κ : Type) [Sink κ] (sink : κ) (rankings : Rankings),
        let count := (puts rankings).length
        let adapted := e.extract operation phase call.source ⟨known, state⟩ sink rankings
        let reflected :=
          e.extract operation phase (.reflected object) ⟨cache, state⟩ sink rankings
        let owned := e.extract operation phase (.ofObject object) ⟨cache, own⟩ sink rankings
        (adapted.sink = putAll sink (puts rankings) ∧ adapted.written = .ok count) ∧
          (reflected.sink = putAll sink (puts rankings) ∧ reflected.written = .ok count) ∧
          (owned.sink = putAll sink (puts rankings) ∧ owned.written = .ok count) := by
  intro e object
  have hobject := call.object_conforms named typeName
  have hget : ∀ name ∈ builtinNames, object.get? name = (call.fields name).toOption :=
    fun name h => call.get?_eq type typeName h
  let given (rankings : Rankings) := (e.plan operation phase).filterMap fun mapping =>
    (plainPut settings (.ofFields call.fields) () rankings mapping).map (mapping, ·)
  let all (rankings : Rankings) :=
    (given rankings).map (·.2) ++ systemPuts settings ((given rankings).any (·.1.isPayload))
  have told {τ : Type} {source : Source τ} {world : World τ}
      (h : ∀ rankings, (e.trace operation phase source world rankings).fault = none ∧
        (e.trace operation phase source world rankings).puts = given rankings)
      (rankings : Rankings) :
      (e.trace operation phase source world rankings).told e.settings =
        ⟨all rankings, .ok (all rankings).length⟩ := by
    rw [Trace.told_of_none (h rankings).1]
    simp only [Trace.attributes, Trace.fromPayload, (h rankings).2]
    rfl
  have hadapted := call.trace_adapted settings builtin phase (⟨known, state⟩ : World σ)
  have hreflected := call.trace_object (.reflected object) ⟨cache, state⟩
    (Source.reflected_repeatable object state)
    (Source.reflected_conforms hobject state) agrees
    (fun name h => (Field.Reading.toOption_ofOption _).trans (hget name h)) settings builtin phase
  have howned := call.trace_object (.ofObject object) ⟨cache, own⟩
    (Source.ofObject_repeatable object own) (Source.ofObject_conforms hobject own) agrees
    (fun name h => (Field.Reading.toOption_ofOption _).trans
      ((agreesOwn.read hobject name).1.trans (hget name h))) settings builtin phase
  refine ⟨all, ?_, fun κ _ sink rankings => ?_⟩
  · have hlisted := e.told_upToListing operation phase call.source (⟨known, state⟩ : World σ)
    simpa only [told hadapted] using hlisted
  · simp only [e.extract_told operation phase, told hadapted, told hreflected, told howned,
      and_self]

theorem extract_adapted_eq_reflected_of_model :
    let call : KnownCall := .model ⟨some "m", some ⟨Utf8.ofString "\x7b\"max_tokens\":5\x7d"⟩⟩
    let e : Extractor := { registry := .builtin, settings := {} }
    (e.extract Mapping.invokeModel .request (.reflected (call.object 0 "Request"))
        { state := () } ({} : KeyValues)).sink =
      ⟨[(Attribute.Key.requestModel, .text "m"), (Attribute.Key.requestMaxTokens, .int 5),
        (Attribute.Key.system, .text "aws.bedrock")]⟩ := by
  intro call e
  obtain ⟨puts, -, h⟩ := extract_adapted_eq_reflected call {} Mapping.invokeModel
    (.inl (by decide)) .request 0 "Request" (fun _ => ["model_id", "body"]) rfl () {} {} {}
    (Field.Cache.agrees_empty _) (Field.Cache.agrees_empty _)
  obtain ⟨⟨hadapted, -⟩, ⟨hreflected, -⟩, -⟩ := h KeyValues {} .level
  refine (hreflected.trans hadapted.symm).trans ?_
  decide +kernel

theorem extract_adapted_relisted :
    let e : Extractor := { registry := .builtin, settings := {} }
    let put (source : Source Unit) (rankings : Rankings) := (e.extract Mapping.invokeModel
      .response source { state := () } ({} : KeyValues) rankings).sink.entries
    put reasonedAnswer.source .level = reasonedPuts "[\x7b\"b\":1,\"a\":2\x7d]" ∧
      put (.reflected ((KnownCall.model reasonedAnswer).object 0 "Answer"))
          (fun _ => Payload.aFirst) =
        reasonedPuts "[\x7b\"a\":2,\"b\":1\x7d]" := by
  decide +kernel

end Telemetry.Extract
