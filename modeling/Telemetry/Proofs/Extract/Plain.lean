import Mathlib
import Telemetry.Proofs.Extract.Containment
import Telemetry.Proofs.Extract.Relisting
import Telemetry.Proofs.Field.Conformity

/-!
# The extraction loop without its memory

An extraction remembers payloads and accessors as it goes. `plainPut` says
what a mapping gives when it is evaluated on its own: nothing is loaded
before it, no accessor is known, and nothing it does is kept. For a source
that repeats its answers, over objects that conform to their types, an
extraction puts exactly what its mappings give on their own, in order, and
the system's name after them (`extract_eq_plain`). On its own a mapping reads its
payload anew and may meet another order of members (`extract_plain_relisted`).
-/

namespace Telemetry.Field

/-- Whatever has been looked up before, the source answers a name as it does
at first. -/
def Source.Repeatable (source : Source σ) (state : σ) : Prop :=
  ∀ names name, (source.answer name (source.after names state)).1 = (source.answer name state).1

end Telemetry.Field

namespace Telemetry.Extract

open Attribute (Sink)
open Telemetry.Field (Source TypeTable World)
open Mapping (FieldMapping FieldPath Operation Phase)
open Payload (Ranking Tree)

def plainText (v : Field.Value) : Option String :=
  match v.render with
  | .ok text => text
  | .error _ => none

/-- The tree of the payload that a field value holds, unless it is too long
or not a document. -/
def plainTree (limit : Nat) (ranking : Ranking) (v : Field.Value) : Option Tree :=
  let tree (bytes : List UInt8) : Option Tree :=
    if bytes.length ≤ limit then (Payload.parse bytes ranking).toOption else none
  match v with
  | .bytes bs => tree bs
  | .text s => tree (Utf8.ofString s)
  | _ => none

def plainPut (settings : Settings) (source : Source σ) (state : σ) (rankings : Rankings)
    (mapping : FieldMapping) : Option Put :=
  (source.value? state mapping.path.segments).bind fun v =>
    match mapping.decode with
    | .text => (plainText v).map fun text => (mapping.key, .text text)
    | .count => ((plainText v).bind Payload.count?).map fun n => (mapping.key, .int n)
    | .body wanted =>
      if settings.genAi then
        let tree? := plainTree settings.payloadLimit (rankings mapping.path.segments) v
        (tree?.bind wanted.resolve).map fun resolved => (resolved.key, resolved.value)
      else none

def plainSystem (settings : Settings) (fromPayload : Bool) : List Put :=
  match settings.system with
  | some system =>
    if fromPayload ∧ ∃ c ∈ system.toList, ¬ Text.isBlank c then
      [(Attribute.Key.system, .text system)]
    else []
  | none => []

/-- The puts of the mappings, each on its own, and of the system's name. The n-th
mapping meets the n-th rankings. -/
def Extractor.plainPuts (e : Extractor) (operation : Operation) (phase : Phase)
    (source : Source σ) (state : σ) (rankings : Nat → Rankings) : List Put :=
  let plan := operation.mappings phase ++ e.registry.mappings operation.category phase
  let given := plan.zipIdx.filterMap fun (mapping, n) =>
    (plainPut e.settings source state (rankings n) mapping).map (mapping, ·)
  given.map (·.2) ++ plainSystem e.settings (given.any (·.1.isPayload))

variable {σ κ : Type}

-- ---------------------------------------------------------------------------
-- One mapping
-- ---------------------------------------------------------------------------

theorem toOption_payloadTree (limit : Nat) (ranking : Ranking) (v : Field.Value) :
    (payloadTree limit ranking v).toOption = plainTree limit ranking v := by
  have tree (bytes : List UInt8) :
      (if limit < bytes.length then .error (.tooLarge bytes.length limit)
        else (Payload.parse bytes ranking).mapError .malformedPayload :
          Except Failure Tree).toOption =
      if bytes.length ≤ limit then (Payload.parse bytes ranking).toOption else none := by
    by_cases h : limit < bytes.length
    · simp [h, Nat.not_le.mpr h, Except.toOption]
    · rw [if_neg h, if_pos (Nat.not_lt.mp h)]
      cases Payload.parse bytes ranking <;> rfl
  cases v with
  | bytes bs => exact tree bs
  | text s => exact tree (Utf8.ofString s)
  | _ => rfl

/-- A mapping gives the same in two orders of members, up to them. -/
theorem plainPut_relisted (settings : Settings) (source : Source σ) (state : σ)
    (rankings rankings' : Rankings) (mapping : FieldMapping) :
    Option.Rel Relisted (plainPut settings source state rankings mapping)
      (plainPut settings source state rankings' mapping) := by
  unfold plainPut
  cases source.value? state mapping.path.segments with
  | none => exact .none
  | some v =>
    simp only [Option.bind_some]
    cases mapping.decode with
    | text => exact relisted?_refl _
    | count => exact relisted?_refl _
    | body wanted =>
      dsimp only
      split
      · have hbody := sameBody_loaded settings.payloadLimit (.ok v)
          (rankings mapping.path.segments) (rankings' mapping.path.segments)
        simp only [Except.bind, toOption_payloadTree] at hbody
        exact optionRel_map (hbody.resolve wanted) fun _ _ h => ⟨h.key, h.value⟩
      · exact .none

theorem systemPuts_eq (settings : Settings) (fromPayload : Bool) :
    systemPuts settings fromPayload = plainSystem settings fromPayload := by
  unfold systemPuts plainSystem Settings.activeSystem
  cases fromPayload with
  | false => cases settings.system <;> simp
  | true =>
    cases settings.system with
    | none => rfl
    | some system =>
      by_cases blank : ∃ c ∈ system.toList, ¬ Text.isBlank c
      · have h : Text.allBlank system = false := by simpa [Text.allBlank] using blank
        simp only [Option.filter, h, blank]
        rfl
      · have h : Text.allBlank system = true := by simpa [Text.allBlank] using blank
        simp only [Option.filter, h, blank]
        rfl

/-- What a run over a repeatable source keeps: a payload that was loaded is
the one that its path leads to from the start. -/
structure Readings.Faithful (limit : Nat) (table : TypeTable) (source : Source σ) (state : σ)
    (rankings : Rankings) (r : Readings σ) : Prop where
  ranked : r.rankings = rankings
  world : ∃ names, r.world.Follows table source state names
  payloads : ∀ path loaded, Entries.get? r.payloads path = some loaded →
    loaded = (source.value? state path).bind (plainTree limit (rankings path))

section
variable {settings : Settings} {source : Source σ} {table : TypeTable} {state : σ}
  {rankings : Rankings} {r : Readings σ}

theorem Readings.Faithful.traverse {limit : Nat} (h : r.Faithful limit table source state rankings)
    (repeatable : source.Repeatable state) (conforms : source.Conforms table state)
    (first : String) (rest : List String) :
    (source.traverse (first :: rest) r.world).1.toOption = source.value? state (first :: rest) ∧
      ({ r with world := (source.traverse (first :: rest) r.world).2 } : Readings σ).Faithful
        limit table source state rankings := by
  obtain ⟨names, hw⟩ := h.world
  obtain ⟨hv, hw'⟩ := hw.traverse conforms first rest
  refine ⟨hv.trans ?_, ⟨h.ranked, ⟨names ++ [first], hw'⟩, h.payloads⟩⟩
  simp only [Source.value?, repeatable names first]

theorem Readings.Faithful.fetch {limit : Nat} (h : r.Faithful limit table source state rankings)
    (repeatable : source.Repeatable state) (conforms : source.Conforms table state)
    (first : String) (rest : List String) :
    (fetch limit source (first :: rest) r).1 =
        (source.value? state (first :: rest)).bind
          (plainTree limit (rankings (first :: rest))) ∧
      (fetch limit source (first :: rest) r).2.Faithful limit table source state rankings := by
  unfold Extract.fetch
  cases hp : Entries.get? r.payloads (first :: rest) with
  | some loaded => exact ⟨h.payloads _ _ hp, h⟩
  | none =>
    obtain ⟨hv, hw⟩ := h.traverse repeatable conforms first rest
    have hloaded : ((source.traverse (first :: rest) r.world).1.bind
          (payloadTree limit (r.rankings (first :: rest)))).toOption =
        (source.value? state (first :: rest)).bind
          (plainTree limit (rankings (first :: rest))) := by
      simp only [bind_toOption, hv, toOption_payloadTree, h.ranked]
    refine ⟨hloaded, ⟨h.ranked, hw.world, ?_⟩⟩
    intro path loaded hget
    simp only [Entries.get?_append, Option.or_eq_some_iff] at hget
    rcases hget with hget | ⟨-, hget⟩
    · exact h.payloads path loaded hget
    · -- the payload that was loaded just now
      simp only [Entries.get?] at hget
      split at hget
      · rename_i hpath
        cases hpath
        exact (Option.some.inj hget).symm.trans hloaded
      · cases hget

/-- A mapping of a run gives what it gives on its own. -/
theorem attempt_plain (h : r.Faithful settings.payloadLimit table source state rankings)
    (repeatable : source.Repeatable state) (conforms : source.Conforms table state)
    (mapping : FieldMapping)
    (quiet : mapping.isPayload = false →
      ∀ v, source.value? state mapping.path.segments = some v → v.faults 0 = []) :
    (attempt settings source mapping r).1 = .ok (plainPut settings source state rankings mapping) ∧
      (attempt settings source mapping r).2.Faithful settings.payloadLimit table source state
        rankings := by
  rcases payload_or_field mapping with ⟨wanted, hd, -⟩ | hp
  · simp only [attempt, plainPut, hd]
    split
    · obtain ⟨hv, hr⟩ := h.fetch repeatable conforms mapping.path.first mapping.path.rest
      refine ⟨?_, hr⟩
      simp only [FieldPath.segments, hv]
      cases source.value? state (mapping.path.first :: mapping.path.rest) <;> rfl
    · exact ⟨by simp, h⟩
  · obtain ⟨hv, hr⟩ := h.traverse repeatable conforms mapping.path.first mapping.path.rest
    rw [attempt_field hp]
    refine ⟨?_, hr⟩
    simp only [FieldPath.segments, hv, plainPut]
    cases hval : source.value? state (mapping.path.first :: mapping.path.rest) with
    | none => rfl
    | some v =>
      obtain ⟨text, ht⟩ := Field.Value.render_eq_ok (quiet hp v hval)
      simp only [fieldPut, ht, Option.bind_some, plainText, Except.map]
      cases hd : mapping.decode with
      | text => cases text <;> rfl
      | count =>
        cases text with
        | none => rfl
        | some text => cases hc : Payload.count? text <;> simp [decodeText, hc, Except.toOption]
      | body wanted => simp [FieldMapping.isPayload, hd] at hp

-- ---------------------------------------------------------------------------
-- A run
-- ---------------------------------------------------------------------------

theorem attempts_plain {mappings : List FieldMapping}
    (h : r.Faithful settings.payloadLimit table source state rankings)
    (repeatable : source.Repeatable state) (conforms : source.Conforms table state)
    (quiet : ∀ mapping ∈ mappings, mapping.isPayload = false →
      ∀ v, source.value? state mapping.path.segments = some v → v.faults 0 = []) :
    (attempts settings source mappings r).fault = none ∧
      (attempts settings source mappings r).puts = mappings.filterMap fun mapping =>
        (plainPut settings source state rankings mapping).map (mapping, ·) := by
  induction mappings generalizing r with
  | nil => exact ⟨rfl, rfl⟩
  | cons mapping rest ih =>
    obtain ⟨hput, hr⟩ := attempt_plain h repeatable conforms mapping (quiet mapping (by simp))
    obtain ⟨hfault, hputs⟩ := ih hr fun later hm => quiet later (List.mem_cons_of_mem _ hm)
    simp only [attempts]
    rcases ha : attempt settings source mapping r with ⟨result, r'⟩
    rw [ha] at hput hfault hputs
    subst hput
    refine ⟨hfault, ?_⟩
    simp only [hputs, List.filterMap_cons]
    cases plainPut settings source state rankings mapping <;> rfl

theorem Extractor.trace_plain (e : Extractor) (operation : Operation) (phase : Phase)
    {source : Source σ} {world : World σ} (rankings : Rankings) {table : TypeTable}
    (repeatable : source.Repeatable world.state) (conforms : source.Conforms table world.state)
    (agrees : world.cache.Agrees table)
    (quiet : ∀ mapping ∈ e.plan operation phase, mapping.isPayload = false →
      ∀ v, source.value? world.state mapping.path.segments = some v → v.faults 0 = []) :
    (e.trace operation phase source world rankings).fault = none ∧
      (e.trace operation phase source world rankings).puts =
        (e.plan operation phase).filterMap fun mapping =>
          (plainPut e.settings source world.state rankings mapping).map (mapping, ·) := by
  have hstart : ({ world, rankings } : Readings σ).Faithful e.settings.payloadLimit table source
      world.state rankings :=
    ⟨rfl, ⟨[], World.follows_nil source agrees⟩, fun path loaded h => by simp [Entries.get?] at h⟩
  exact attempts_plain hstart repeatable conforms quiet

end

theorem plainPuts_relisted (e : Extractor) (operation : Operation) (phase : Phase)
    (source : Source σ) (state : σ) (rankings rankings' : Nat → Rankings) :
    List.Forall₂ Relisted (e.plainPuts operation phase source state rankings)
      (e.plainPuts operation phase source state rankings') := by
  have hgiven (plan : List FieldMapping) : List.Forall₂ RelistedBy
      (plan.zipIdx.filterMap fun (mapping, n) =>
        (plainPut e.settings source state (rankings n) mapping).map (mapping, ·))
      (plan.zipIdx.filterMap fun (mapping, n) =>
        (plainPut e.settings source state (rankings' n) mapping).map (mapping, ·)) := by
    refine List.rel_filterMap ?_ (List.forall₂_same.mpr fun _ _ => rfl)
    rintro ⟨mapping, n⟩ _ rfl
    exact optionRel_map
      (plainPut_relisted e.settings source state (rankings n) (rankings' n) mapping)
      fun _ _ hput => ⟨rfl, hput⟩
  have hputs := hgiven (e.plan operation phase)
  have hpayload := any_isPayload hputs
  unfold Extractor.plainPuts
  unfold Extractor.plan at hputs hpayload
  dsimp only
  rw [hpayload]
  exact List.rel_append (forall₂_puts hputs) (relisted_refl _)

/-- An extraction over a source that repeats its answers puts what its mappings give
on their own, and counts that. On its own each of them may meet the members of its
payload in another order, and then gives the same but for this order. -/
theorem extract_eq_plain [Sink κ] (e : Extractor) (operation : Operation) (phase : Phase)
    (source : Source σ) (world : World σ) (sink : κ) (rankings : Rankings) (table : TypeTable)
    (repeatable : source.Repeatable world.state) (conforms : source.Conforms table world.state)
    (agrees : world.cache.Agrees table)
    (quiet : ∀ mapping ∈ e.plan operation phase, mapping.isPayload = false →
      ∀ v, source.value? world.state mapping.path.segments = some v → v.faults 0 = []) :
    let puts := e.plainPuts operation phase source world.state fun _ => rankings
    (e.extract operation phase source world sink rankings).written = .ok puts.length ∧
      (e.extract operation phase source world sink rankings).sink = putAll sink puts ∧
      ∀ others : Nat → Rankings, List.Forall₂ Relisted puts
        (e.plainPuts operation phase source world.state others) := by
  intro puts
  obtain ⟨hfault, hputs⟩ := e.trace_plain operation phase rankings repeatable conforms agrees quiet
  have hattributes :
      (e.trace operation phase source world rankings).attributes e.settings = puts := by
    have hplan : (e.plan operation phase).zipIdx.map (·.1) = e.plan operation phase :=
      List.zipIdx_map_fst ..
    unfold Trace.attributes Trace.fromPayload
    rw [hputs, systemPuts_eq, ← hplan, List.filterMap_map]
    rfl
  refine ⟨?_, ?_, plainPuts_relisted e operation phase source world.state _⟩
  · rw [e.extract_unbroken hfault, hattributes]
  · rw [e.extract_unbroken hfault, hattributes]

def tableRequest : Source Unit :=
  .ofFields fun name =>
    if name = "ProvisionedThroughput" then
      .value (.object (.mk 7 "Throughput" [.mk "read_capacity_units" (.value (.int 5))]))
    else if name = "TableName" then .value (.text "t")
    else .absent

theorem extract_eq_plain_table :
    (({ registry := .ofTable [Mapping.keyValueStore], settings := {} } : Extractor).extract
      Mapping.createTable .request tableRequest { state := () } ({} : Attribute.KeyValues)).sink =
        ⟨[(Attribute.Key.provisionedReadCapacity, .int 5),
          (Attribute.Key.tableNames, .text "t")]⟩ := by
  refine (extract_eq_plain _ Mapping.createTable .request tableRequest { state := () }
    ({} : Attribute.KeyValues) .level (fun _ => ["read_capacity_units"]) ?_ ?_ ?_ ?_).2.1.trans ?_
  · exact fun _ _ => rfl
  · refine Source.ofFields_conforms (fun name => ?_) ()
    split
    · simp [Field.Reading.Conforms, Field.Value.Conforms, Field.Object.Conforms,
        Field.gettersConform, Field.Getter.name]
    · split <;> trivial
  · exact Field.Cache.agrees_empty _
  · have hquiet : ∀ mapping ∈ Extractor.plan ⟨.ofTable [Mapping.keyValueStore], {}⟩
        Mapping.createTable .request,
          ((tableRequest.value? () mapping.path.segments).map (·.faults 0)).getD [] = [] := by
      decide
    intro mapping hm _ v hv
    simpa [hv] using hquiet mapping hm
  · rfl

theorem extract_plain_relisted :
    let e : Extractor := { registry := .builtin, settings := {} }
    let extracted := e.extract Mapping.invokeModel .response reasonedAnswer.source
      { state := () } ({} : Attribute.KeyValues)
    extracted.sink.entries = reasonedPuts "[\x7b\"b\":1,\"a\":2\x7d]" ∧
      e.plainPuts Mapping.invokeModel .response reasonedAnswer.source ()
          (fun _ _ => Payload.aFirst) =
        reasonedPuts "[\x7b\"a\":2,\"b\":1\x7d]" := by
  intro e extracted
  refine ⟨by decide +kernel, ?_⟩
  simp only [Extractor.plainPuts, ← systemPuts_eq]
  decide +kernel

end Telemetry.Extract
