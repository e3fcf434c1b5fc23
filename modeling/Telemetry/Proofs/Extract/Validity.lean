import Telemetry.Proofs.Entries
import Telemetry.Proofs.Extract.Trace
import Telemetry.Proofs.Payload.Values

/-!
# Only valid values reach a sink

A run is any number of calls that share an accessor cache and a sink: requests
and responses that are extracted, and failures. `Emission` is a put together
with its origin. Whatever the sources answer and the payloads hold, every put
of a run is sound (`runCalls_valid`): its text is not empty, its number with
a fraction is a probability, a count is an integer, and what comes from a
payload was read from a node that holds a value. A rendering that faults ends
its extraction early, so it takes puts away and adds none.
-/

namespace Telemetry.Field

theorem unlessEmpty_ne_empty {s text : String} (h : unlessEmpty s = some text) : text ≠ "" :=
  Payload.nonEmpty_ne_empty h

theorem bracketed_ne_empty {items : List String} {text : String} (h : bracketed items = some text) :
    text ≠ "" := by
  cases items with
  | nil => cases h
  | cons item rest =>
    cases h
    intro hempty
    simp [String.append_eq_empty_iff] at hempty

theorem Object.render_ne_empty {target : Object} {text : String}
    (h : target.render = .ok (some text)) : text ≠ "" := by
  unfold Object.render at h
  rcases hm : target.membersAt 0 with fault | (_ | _ | ⟨member, members⟩) <;> rw [hm] at h <;>
    cases h
  exact Json.Value.write_container_ne_empty (.inr ⟨_, rfl⟩)

theorem Value.render_ne_empty {v : Value} {text : String} (h : v.render = .ok (some text)) :
    text ≠ "" := by
  cases v with
  | text s =>
    simp only [Value.render, Except.ok.injEq] at h
    exact unlessEmpty_ne_empty h
  | int n =>
    cases h
    exact Text.toString_ne_empty n.toInt
  | float x =>
    cases h
    exact Decimal.plain.write_ne_empty x
  | bool b =>
    cases h
    cases b <;> decide
  | bytes bs =>
    simp only [Value.render, Except.ok.injEq, Option.bind_eq_some_iff] at h
    obtain ⟨s, -, hs⟩ := h
    exact unlessEmpty_ne_empty hs
  | list items =>
    simp only [Value.render] at h
    cases hitems : renderItems items with
    | error fault =>
      rw [hitems] at h
      cases h
    | ok texts =>
      rw [hitems] at h
      exact bracketed_ne_empty (Except.ok.inj h)
  | keys names =>
    simp only [Value.render, Except.ok.injEq] at h
    exact bracketed_ne_empty h
  | object target => exact Object.render_ne_empty (by simpa only [Value.render] using h)

end Telemetry.Field

namespace Telemetry.Extract

open Attribute (IsProbability Sink)
open Telemetry.Field (Cache Source World)
open Mapping (FieldMapping Operation Phase)
open Payload (BodyAttribute Ranking Tree)

-- ---------------------------------------------------------------------------
-- Puts and their origins
-- ---------------------------------------------------------------------------

inductive Origin where
  | text
  | count
  /-- An attribute of a payload, and what was loaded for it. -/
  | payload (wanted : BodyAttribute) (loaded : Option Tree)
  | system
  | failure

def Origin.IsCount : Origin → Prop
  | .count => True
  | .payload wanted _ => wanted.kind = .count
  | _ => False

structure Emission where
  origin : Origin
  put : Put

variable {σ κ : Type}

def originOf (settings : Settings) (source : Source σ) (mapping : FieldMapping)
    (r : Readings σ) : Origin :=
  match mapping.decode with
  | .text => .text
  | .count => .count
  | .body wanted => .payload wanted (fetch settings.payloadLimit source mapping.path.segments r).1

def emissions (settings : Settings) (source : Source σ) :
    List FieldMapping → Readings σ → List Emission
  | [], _ => []
  | mapping :: rest, r =>
    match attempt settings source mapping r with
    | (.error _, _) => []
    | (.ok put, later) =>
      put.toList.map (⟨originOf settings source mapping r, ·⟩) ++
        emissions settings source rest later

theorem emissions_puts (settings : Settings) (source : Source σ) (mappings : List FieldMapping)
    (r : Readings σ) :
    (emissions settings source mappings r).map (·.put) =
      (attempts settings source mappings r).puts.map (·.2) := by
  induction mappings generalizing r with
  | nil => rfl
  | cons mapping rest ih =>
    simp only [emissions, attempts]
    rcases attempt settings source mapping r with ⟨fault | put, later⟩
    · rfl
    · cases put <;> simp [ih later]

def Extractor.emissions (e : Extractor) (operation : Operation) (phase : Phase)
    (source : Source σ) (world : World σ) (rankings : Rankings) : List Emission :=
  let trace := e.trace operation phase source world rankings
  Extract.emissions e.settings source (e.plan operation phase) { world, rankings } ++
    match trace.fault with
    | none => (systemPuts e.settings trace.fromPayload).map (⟨.system, ·⟩)
    | some _ => []

section
variable [Sink κ]

theorem Extractor.extract_emissions (e : Extractor) (operation : Operation) (phase : Phase)
    (source : Source σ) (world : World σ) (sink : κ) (rankings : Rankings) :
    (e.extract operation phase source world sink rankings).sink =
      putAll sink ((e.emissions operation phase source world rankings).map (·.put)) := by
  rw [Extractor.extract_eq]
  unfold Extractor.emissions
  simp only [List.map_append, emissions_puts]
  unfold Extractor.trace
  cases (attempts e.settings source (e.plan operation phase) { world, rankings }).fault with
  | some fault => simp
  | none => simp [Trace.attributes, Function.comp_def]

end

-- ---------------------------------------------------------------------------
-- Runs of calls
-- ---------------------------------------------------------------------------

/-- A call that is observed, with the extractor that observes it, the state that
its source is in and the order of members that its payloads meet. -/
inductive Call : Type 1 where
  | request {σ : Type} (e : Extractor) (operation : Operation) (source : Source σ) (state : σ)
    (rankings : Rankings)
  | response {σ : Type} (e : Extractor) (operation : Operation) (source : Source σ) (state : σ)
    (rankings : Rankings)
  | failure (e : Extractor) (operation : Operation) (errorType : String)

def Call.run [Sink κ] (cache : Cache) (sink : κ) : Call → Cache × κ
  | .request e operation source state rankings =>
    let outcome := e.onRequest operation source ⟨cache, state⟩ sink rankings
    (outcome.world.cache, outcome.sink)
  | .response e operation source state rankings =>
    let outcome := e.onResponse operation source ⟨cache, state⟩ sink rankings
    (outcome.world.cache, outcome.sink)
  | .failure e operation errorType => (cache, (e.onFailure operation errorType sink).2)

def runCalls [Sink κ] : List Call → Cache → κ → Cache × κ
  | [], cache, sink => (cache, sink)
  | call :: rest, cache, sink =>
    let (cache, sink) := call.run cache sink
    runCalls rest cache sink

/-- What a call puts, and the accessor cache after it. -/
def Call.emissions (cache : Cache) : Call → List Emission × Cache
  | .request e operation source state rankings =>
    (e.emissions operation .request source ⟨cache, state⟩ rankings,
      (e.trace operation .request source ⟨cache, state⟩ rankings).readings.world.cache)
  | .response e operation source state rankings =>
    (e.emissions operation .response source ⟨cache, state⟩ rankings,
      (e.trace operation .response source ⟨cache, state⟩ rankings).readings.world.cache)
  | .failure _ _ errorType =>
    (if errorType.isEmpty then []
      else [⟨.failure, (Attribute.Key.errorType, .text errorType)⟩], cache)

def runEmissions : List Call → Cache → List Emission
  | [], _ => []
  | call :: rest, cache =>
    (call.emissions cache).1 ++ runEmissions rest (call.emissions cache).2

section
variable [Sink κ]

theorem Extractor.extract_world (e : Extractor) (operation : Operation) (phase : Phase)
    (source : Source σ) (world : World σ) (sink : κ) (rankings : Rankings) :
    (e.extract operation phase source world sink rankings).world =
      (e.trace operation phase source world rankings).readings.world := by
  rw [Extractor.extract_eq]
  cases h : (e.trace operation phase source world rankings).fault <;> simp [h]

theorem Call.run_eq (call : Call) (cache : Cache) (sink : κ) :
    call.run cache sink =
      ((call.emissions cache).2, putAll sink ((call.emissions cache).1.map (·.put))) := by
  cases call with
  | request e operation source state rankings =>
    simp only [Call.run, Call.emissions, Extractor.onRequest, Extractor.extract_emissions,
      Extractor.extract_world]
  | response e operation source state rankings =>
    simp only [Call.run, Call.emissions, Extractor.onResponse, Extractor.extract_emissions,
      Extractor.extract_world]
  | failure e operation errorType =>
    simp only [Call.run, Call.emissions, Extractor.onFailure]
    split <;> rfl

theorem runCalls_sink (calls : List Call) (cache : Cache) (sink : κ) :
    (runCalls calls cache sink).2 = putAll sink ((runEmissions calls cache).map (·.put)) := by
  induction calls generalizing cache sink with
  | nil => rfl
  | cons call rest ih =>
    simp only [runCalls, runEmissions, call.run_eq cache sink, ih, List.map_append, putAll_append]

end

-- ---------------------------------------------------------------------------
-- Soundness
-- ---------------------------------------------------------------------------

structure Emission.Sound (emission : Emission) : Prop where
  valid : emission.put.2.Valid
  count : emission.origin.IsCount → ∃ n, emission.put.2 = .int n
  payload : ∀ wanted loaded, emission.origin = .payload wanted loaded →
    ∃ bytes ranking tree node, Payload.parse bytes ranking = .ok tree ∧ loaded = some tree ∧
      wanted.ReadsFrom tree node emission.put.2 ∧ node.HoldsValue

def Readings.Parsed (r : Readings σ) : Prop :=
  ∀ path tree, Entries.get? r.payloads path = some (some tree) →
    ∃ bytes ranking, Payload.parse bytes ranking = .ok tree

theorem Readings.Parsed.fetch {r : Readings σ} (h : r.Parsed) (limit : Nat) (source : Source σ)
    (path : List String) :
    (∀ tree, (fetch limit source path r).1 = some tree →
        ∃ bytes ranking, Payload.parse bytes ranking = .ok tree) ∧
      (fetch limit source path r).2.Parsed := by
  unfold Extract.fetch
  cases hp : Entries.get? r.payloads path with
  | some loaded =>
    refine ⟨?_, h⟩
    rintro tree rfl
    exact h path tree hp
  | none =>
    have hloaded (tree : Tree) (ht : ((source.traverse path r.world).1.bind
        (payloadTree limit (r.rankings path))).toOption = some tree) :
        ∃ bytes ranking, Payload.parse bytes ranking = .ok tree := by
      cases hv : (source.traverse path r.world).1 with
      | error failure =>
        rw [hv] at ht
        cases ht
      | ok v =>
        rw [hv] at ht
        cases hpt : payloadTree limit (r.rankings path) v with
        | error failure => simp [Except.bind, hpt, Except.toOption] at ht
        | ok t =>
          simp only [Except.bind, hpt, Except.toOption, Option.some.injEq] at ht
          obtain ⟨bytes, hbytes⟩ := parse_of_payloadTree hpt
          exact ht ▸ ⟨bytes, _, hbytes⟩
    refine ⟨hloaded, ?_⟩
    intro other tree hget
    simp only [Entries.get?_append, Option.or_eq_some_iff] at hget
    rcases hget with hget | ⟨-, hget⟩
    · exact h other tree hget
    · -- the payload that was loaded just now
      simp only [Entries.get?] at hget
      split at hget
      · exact hloaded tree (Option.some.inj hget)
      · cases hget

theorem decodeText_valid {mapping : FieldMapping} {v : Field.Value} {text : String}
    {value : Attribute.Value} (htext : text ≠ "")
    (h : decodeText mapping.decode v text = .ok value) :
    value.Valid ∧ (mapping.decode = .count → ∃ n, value = .int n) := by
  cases hd : mapping.decode with
  | count =>
    rw [hd] at h
    simp only [decodeText] at h
    split at h
    · rename_i n hn
      cases h
      exact ⟨trivial, fun _ => ⟨n, rfl⟩⟩
    · cases h
  | text =>
    rw [hd] at h
    cases h
    exact ⟨htext, fun hcount => (nomatch hcount)⟩
  | body wanted =>
    rw [hd] at h
    cases h
    exact ⟨htext, fun hcount => (nomatch hcount)⟩

theorem fieldPut_sound {mapping : FieldMapping} {v : Field.Value} {put : Put}
    (h : fieldPut mapping v = .ok (some put)) :
    put.2.Valid ∧ (mapping.decode = .count → ∃ n, put.2 = .int n) := by
  unfold fieldPut at h
  rcases hr : v.render with fault | (_ | text) <;> rw [hr] at h
  · cases h
  · cases h
  · simp only [Except.map, Option.bind_some, Except.ok.injEq, Option.map_eq_some_iff] at h
    obtain ⟨value, hvalue, rfl⟩ := h
    cases hd : decodeText mapping.decode v text with
    | error failure =>
      rw [hd] at hvalue
      cases hvalue
    | ok decoded =>
      rw [hd] at hvalue
      cases hvalue
      exact decodeText_valid (Field.Value.render_ne_empty hr) hd

/-- What one mapping puts is sound, and what it remembers was read from a
document. -/
theorem attempt_sound {r : Readings σ} (h : r.Parsed) (settings : Settings) (source : Source σ)
    (mapping : FieldMapping) :
    (∀ put, (attempt settings source mapping r).1 = .ok (some put) →
        Emission.Sound ⟨originOf settings source mapping r, put⟩) ∧
      (attempt settings source mapping r).2.Parsed := by
  rcases payload_or_field mapping with ⟨wanted, hd, -⟩ | hp
  · simp only [attempt, originOf, hd]
    split
    · obtain ⟨hparsed, hr⟩ := h.fetch settings.payloadLimit source mapping.path.segments
      refine ⟨?_, hr⟩
      intro put hput
      simp only [Except.ok.injEq, Option.map_eq_some_iff, Option.bind_eq_some_iff] at hput
      obtain ⟨resolved, ⟨tree, htree, hresolved⟩, rfl⟩ := hput
      obtain ⟨bytes, ranking, hbytes⟩ := hparsed tree htree
      obtain ⟨-, node, hnode⟩ := BodyAttribute.resolve_reads hresolved
      refine ⟨hnode.valid (Payload.parse_inRange hbytes), hnode.int_of_count, ?_⟩
      rintro wanted' loaded ⟨⟩
      exact ⟨bytes, ranking, tree, node, hbytes, htree, hnode, hnode.holdsValue⟩
    · refine ⟨?_, h⟩
      rintro put ⟨⟩
  · rw [attempt_field hp]
    refine ⟨?_, h⟩
    intro put hput
    cases hv : (source.traverse mapping.path.segments r.world).1.toOption with
    | none =>
      rw [hv] at hput
      cases hput
    | some v =>
      rw [hv] at hput
      obtain ⟨hvalid, hcount⟩ := fieldPut_sound hput
      unfold originOf
      cases hd : mapping.decode with
      | text =>
        refine ⟨hvalid, False.elim, ?_⟩
        rintro wanted loaded ⟨⟩
      | count =>
        refine ⟨hvalid, fun _ => hcount hd, ?_⟩
        rintro wanted loaded ⟨⟩
      | body wanted => simp [FieldMapping.isPayload, hd] at hp

theorem emissions_sound {r : Readings σ} (h : r.Parsed) (settings : Settings) (source : Source σ)
    (mappings : List FieldMapping) :
    ∀ emission ∈ emissions settings source mappings r, emission.Sound := by
  induction mappings generalizing r with
  | nil => exact fun _ hm => nomatch hm
  | cons mapping rest ih =>
    obtain ⟨hsound, hr⟩ := attempt_sound h settings source mapping
    simp only [emissions]
    rcases ha : attempt settings source mapping r with ⟨fault | put, later⟩
    · exact fun _ hm => nomatch hm
    · rw [ha] at hsound hr
      intro emission hm
      rcases List.mem_append.mp hm with hm | hm
      · obtain ⟨put', hput, rfl⟩ := List.mem_map.mp hm
        exact hsound put' (by rw [Option.mem_toList.mp hput])
      · exact ih hr emission hm

theorem activeSystem_ne_empty {settings : Settings} {system : String}
    (h : settings.activeSystem = some system) : system ≠ "" := by
  rintro rfl
  exact absurd (Option.filter_eq_some_iff.mp h).2 (by decide)

theorem Extractor.emissions_sound (e : Extractor) (operation : Operation) (phase : Phase)
    (source : Source σ) (world : World σ) (rankings : Rankings) :
    ∀ emission ∈ e.emissions operation phase source world rankings, emission.Sound := by
  intro emission hm
  rcases List.mem_append.mp hm with hm | hm
  · refine Extract.emissions_sound ?_ e.settings source _ emission hm
    intro path tree hget
    cases hget
  · split at hm
    · obtain ⟨put, hput, rfl⟩ := List.mem_map.mp hm
      unfold systemPuts at hput
      split at hput
      · obtain ⟨system, hsystem, rfl⟩ := List.mem_map.mp hput
        exact ⟨activeSystem_ne_empty (Option.mem_toList.mp hsystem), fun h => (nomatch h),
          fun _ _ h => (nomatch h)⟩
      · cases hput
    · cases hm

theorem Call.emissions_sound (call : Call) (cache : Cache) :
    ∀ emission ∈ (call.emissions cache).1, emission.Sound := by
  cases call with
  | request e operation source state rankings =>
    exact e.emissions_sound operation .request source _ rankings
  | response e operation source state rankings =>
    exact e.emissions_sound operation .response source _ rankings
  | failure e operation errorType =>
    intro emission hm
    simp only [Call.emissions] at hm
    split at hm
    · cases hm
    · rename_i hempty
      obtain rfl := List.mem_singleton.mp hm
      exact ⟨fun h => hempty (by rw [h]; rfl), fun h => (nomatch h), fun _ _ h => (nomatch h)⟩

theorem runEmissions_sound (calls : List Call) (cache : Cache) :
    ∀ emission ∈ runEmissions calls cache, emission.Sound := by
  induction calls generalizing cache with
  | nil => exact fun _ hm => nomatch hm
  | cons call rest ih =>
    intro emission hm
    rcases List.mem_append.mp hm with hm | hm
    · exact call.emissions_sound cache emission hm
    · exact ih _ emission hm

/-- Whatever calls are observed, the sink takes the puts of the run in order.
No text among them is empty, every number with a fraction is finite and lies
from zero to one, a count is an integer, and an attribute of a payload was
read from a node of the loaded document that is neither null nor rejected. -/
theorem runCalls_valid [Sink κ] (calls : List Call) (cache : Cache) (sink : κ) :
    (runCalls calls cache sink).2 = putAll sink ((runEmissions calls cache).map (·.put)) ∧
      ∀ emission ∈ runEmissions calls cache,
        (∀ s, emission.put.2 = .text s → s ≠ "") ∧
        (∀ x, emission.put.2 = .float x → x.isFinite = true ∧ 0.0 ≤ x ∧ x ≤ 1.0) ∧
        (emission.origin.IsCount → ∃ n, emission.put.2 = .int n) ∧
        ∀ wanted loaded, emission.origin = .payload wanted loaded →
          ∃ bytes ranking tree node, Payload.parse bytes ranking = .ok tree ∧ loaded = some tree ∧
            wanted.ReadsFrom tree node emission.put.2 ∧ node.HoldsValue := by
  refine ⟨runCalls_sink calls cache sink, ?_⟩
  intro emission hm
  obtain ⟨hvalid, hcount, hpayload⟩ := runEmissions_sound calls cache emission hm
  refine ⟨?_, ?_, hcount, hpayload⟩
  · intro s hs
    rw [hs] at hvalid
    exact hvalid
  · intro x hx
    rw [hx] at hvalid
    exact hvalid

end Telemetry.Extract
