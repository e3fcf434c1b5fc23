import Telemetry.Proofs.Extract.Replay

/-!
# Caches with a past

An accessor cache is used by calls that resolve accessors and by extractions.
As long as all objects of a type have the same getters, whatever it went
through leaves it in agreement with the type table (`agrees_cacheAfter`), and
an extraction cannot tell it from an empty one: it makes the same puts and
gives the same count (`extract_ignores_past`). The same holds of the cache of
a source that reads an object through a cache of its own. What a cache went
through has no say in the order in which payloads list their members.
-/

namespace Telemetry.Field

variable {table : TypeTable}

theorem Cache.Agrees.consistent {first second : Cache} (h : first.Agrees table)
    (h' : second.Agrees table) : first.Consistent second := by
  intro type field found other hfound hother
  rw [h _ _ _ hfound, h' _ _ _ hother]

theorem Object.Conforms.read {target : Object} (ht : target.Conforms table) (cache : Cache)
    (field : String) : (Reading.ofOption (cache.read target field).1).Conforms table := by
  cases hr : (cache.read target field).1 with
  | none => trivial
  | some v =>
    simp only [Cache.read, Option.bind_eq_some_iff] at hr
    obtain ⟨accessor, -, hv⟩ := hr
    exact (ht.call accessor.slot).of_toOption hv

theorem Source.reflected_conforms {target : Object} (ht : target.Conforms table) (state : σ) :
    (Source.reflected target).Conforms table state := by
  refine ⟨?_, ?_⟩
  · rintro other ⟨⟩
    exact ht
  · intro names name
    cases hv : target.get? name with
    | none => simp [Source.answer, hv, Reading.ofOption, Reading.Conforms]
    | some v => simpa [Source.answer, hv, Reading.ofOption, Reading.Conforms] using ht.get? hv

/-- Whatever its own cache knows, an object answers with what its getters give. -/
theorem Source.ofObject_conforms {target : Object} (ht : target.Conforms table) (own : Cache) :
    (Source.ofObject target).Conforms table own :=
  ⟨fun _ h => (nomatch h), fun _ name => ht.read _ name⟩

theorem Cache.Agrees.after {own : Cache} (h : own.Agrees table) {target : Object}
    (ht : target.Conforms table) (names : List String) :
    ((Source.ofObject target).after names own).Agrees table := by
  induction names generalizing own with
  | nil => exact h
  | cons name rest ih => exact ih (h.read ht name).2

theorem Source.ofObject_alike {target : Object} (ht : target.Conforms table) {own own' : Cache}
    (h : own.Agrees table) (h' : own'.Agrees table) : (Source.ofObject target).Alike own own' := by
  intro names name
  have hread := ((h.after ht names).read ht name).1
  have hread' := ((h'.after ht names).read ht name).1
  exact congrArg Reading.ofOption (hread.trans hread'.symm)

end Telemetry.Field

namespace Telemetry.Extract

open Attribute (KeyValues Sink)
open Telemetry.Field (Cache Object Source TypeTable World)
open Mapping (FieldMapping Operation Phase)

variable {σ κ : Type} {table : TypeTable}

-- ---------------------------------------------------------------------------
-- What a cache goes through
-- ---------------------------------------------------------------------------

/-- What a cache is used for. A source that reads an object through this cache,
while another one serves the extraction, resolves accessors in it. -/
inductive Use : Type 1 where
  | resolve (target : Object) (field : String)
  | extraction {σ κ : Type} [Sink κ] (e : Extractor) (operation : Operation) (phase : Phase)
    (source : Source σ) (state : σ) (sink : κ) (rankings : Rankings)

def Use.leave (cache : Cache) : Use → Cache
  | .resolve target field => (cache.resolve target field).2
  | @Use.extraction _ _ _ e operation phase source state sink rankings =>
    (e.extract operation phase source ⟨cache, state⟩ sink rankings).world.cache

def Use.Conforms (table : TypeTable) : Use → Prop
  | .resolve target _ => target.Conforms table
  | @Use.extraction _ _ _ _ _ _ source state _ _ => source.Conforms table state

def cacheAfter (past : List Use) : Cache :=
  past.foldl Use.leave {}

theorem attempts_agrees {settings : Settings} {source : Source σ} {r : Readings σ}
    (h : r.world.cache.Agrees table) (conforms : source.Conforms table r.world.state)
    (mappings : List FieldMapping) :
    (attempts settings source mappings r).readings.world.cache.Agrees table := by
  obtain ⟨names, hend⟩ := attempts_world
    (P := fun w => ∃ names, w.Follows table source r.world.state names)
    (fun first rest w ⟨names, hw⟩ => ⟨_, (hw.traverse conforms first rest).2⟩)
    ⟨[], World.follows_nil source h⟩ mappings
  exact hend.cache

theorem Use.leave_agrees {use : Use} (conforms : use.Conforms table) {cache : Cache}
    (h : cache.Agrees table) : (use.leave cache).Agrees table := by
  cases use with
  | resolve target field => exact (h.resolve conforms field).2
  | extraction e operation phase source state sink rankings =>
    have hsource : source.Conforms table state := conforms
    simp only [Use.leave, e.extract_told operation phase]
    exact attempts_agrees (r := { world := ⟨cache, state⟩, rankings }) h hsource _

theorem agrees_cacheAfter {past : List Use} (conforms : ∀ use ∈ past, use.Conforms table) :
    (cacheAfter past).Agrees table := by
  induction past using List.reverseRecOn with
  | nil => exact Field.Cache.agrees_empty table
  | append_singleton past use ih =>
    simp only [cacheAfter, List.foldl_append, List.foldl_cons, List.foldl_nil]
    refine Use.leave_agrees (conforms use (by simp)) (ih ?_)
    intro earlier h
    exact conforms earlier (by simp [h])

-- ---------------------------------------------------------------------------
-- Extractions
-- ---------------------------------------------------------------------------

/-- From two worlds an extraction makes the same puts, up to the order of members if
it meets two, and gives the same count. -/
def Extractor.Indifferent (e : Extractor) (operation : Operation) (phase : Phase)
    (source : Source σ) (world world' : World σ) : Prop :=
  ∃ puts : Rankings → List Put, UpToListing puts ∧
    ∀ (κ : Type) [Sink κ] (sink : κ) (rankings rankings' : Rankings),
      let outcome := e.extract operation phase source world sink rankings
      let outcome' := e.extract operation phase source world' sink rankings'
      outcome.sink = putAll sink (puts rankings) ∧ outcome'.sink = putAll sink (puts rankings') ∧
        outcome.written = outcome'.written

theorem Extractor.indifferent_agreeing (e : Extractor) (operation : Operation) (phase : Phase)
    {source : Source σ} {state state' : σ} {cache : Cache} (agrees : cache.Agrees table)
    (conforms : source.Conforms table state) (alike : source.Alike state state') :
    e.Indifferent operation phase source ⟨cache, state'⟩ ⟨{}, state⟩ := by
  have htold (rankings : Rankings) :
      (e.trace operation phase source ⟨cache, state'⟩ rankings).told e.settings =
        (e.trace operation phase source ⟨{}, state⟩ rankings).told e.settings := by
    have hlast : (e.trace operation phase source ⟨{}, state⟩ rankings).readings.world.cache.Agrees
        table :=
      attempts_agrees (Field.Cache.agrees_empty table) conforms _
    obtain ⟨hputs, hfault, -⟩ := e.trace_echoes operation phase alike rankings
      ⟨cache.keeps_empty, agrees.consistent hlast⟩ (Field.Cache.keeps_self _)
    exact Trace.told_eq hputs hfault e.settings
  refine ⟨_, e.told_upToListing operation phase source ⟨{}, state⟩, ?_⟩
  intro κ _ sink rankings rankings'
  have hlisted := e.trace_relisted operation phase source ⟨{}, state⟩ rankings rankings'
  simp only [e.extract_told operation phase, htold]
  exact ⟨trivial, trivial, (hlisted.told e.settings).written.symm⟩

def throughputGetters : TypeTable := fun type =>
  if type = 3 then ["provisioned_throughput"]
  else if type = 7 then ["write_capacity_units", "read_capacity_units"]
  else []

theorem throughput_conforms :
    throughputRequest.Conforms throughputGetters ∧ writeFirst.Conforms throughputGetters := by
  have hwrite : writeFirst.Conforms throughputGetters := ⟨by decide, trivial, trivial, trivial⟩
  exact ⟨⟨by decide, hwrite, trivial⟩, hwrite⟩

/-- Where all objects of a type have the same getters, an extraction makes the
puts and gives the count that it would with empty caches, whatever its cache
was used for before, and the source's own cache, if that is another one. -/
theorem extract_ignores_past (table : TypeTable) (past : List Use)
    (hpast : ∀ use ∈ past, use.Conforms table) (e : Extractor) (operation : Operation)
    (phase : Phase) :
    (∀ (σ : Type) (source : Source σ) (state : σ), source.Conforms table state →
      e.Indifferent operation phase source ⟨cacheAfter past, state⟩ ⟨{}, state⟩) ∧
    ∀ (target : Object) (own : List Use), target.Conforms table →
      (∀ use ∈ own, use.Conforms table) →
      e.Indifferent operation phase (.ofObject target) ⟨cacheAfter past, cacheAfter own⟩
        ⟨{}, {}⟩ := by
  have hcache := agrees_cacheAfter hpast
  refine ⟨?_, ?_⟩
  · intro σ source state conforms
    exact e.indifferent_agreeing operation phase hcache conforms (source.alike_self state)
  · intro target own ht hown
    have hempty := Field.Cache.agrees_empty table
    have halike := Source.ofObject_alike ht hempty (agrees_cacheAfter hown)
    exact e.indifferent_agreeing operation phase hcache (Source.ofObject_conforms ht {}) halike

theorem extract_ignores_past_of_requests :
    let e : Extractor := { registry := .ofTable [Mapping.keyValueStore], settings := {} }
    let own := [Use.resolve throughputRequest "provisioned_throughput"]
    let past := [Use.resolve writeFirst "ReadCapacityUnits", .resolve writeFirst "Missing",
      .extraction e Mapping.createTable .request (.reflected throughputRequest) () ({} : KeyValues)
        .level]
    (e.extract Mapping.createTable .request (.ofObject throughputRequest)
        ⟨cacheAfter past, cacheAfter own⟩ ({} : KeyValues)).sink =
      ⟨[(Attribute.Key.provisionedReadCapacity, .int 5),
        (Attribute.Key.provisionedWriteCapacity, .int 9)]⟩ := by
  intro e own past
  have hpast : ∀ use ∈ past, use.Conforms throughputGetters := by
    simp [past, Use.Conforms, throughput_conforms, Source.reflected_conforms throughput_conforms.1]
  have hown : ∀ use ∈ own, use.Conforms throughputGetters := by
    simp [own, Use.Conforms, throughput_conforms]
  obtain ⟨puts, -, hboth⟩ := (extract_ignores_past throughputGetters past hpast e
    Mapping.createTable .request).2 throughputRequest own throughput_conforms.1 hown
  obtain ⟨hused, hfresh, -⟩ := hboth KeyValues {} .level .level
  exact (hused.trans hfresh.symm).trans rfl

theorem extract_ignores_past_relisted :
    let e : Extractor := { registry := .builtin, settings := {} }
    let past := [Use.resolve writeFirst "ReadCapacityUnits"]
    let put (cache : Cache) (rankings : Rankings) := (e.extract Mapping.invokeModel .response
      reasonedAnswer.source ⟨cache, ()⟩ ({} : KeyValues) rankings).sink.entries
    put (cacheAfter past) .level = reasonedPuts "[\x7b\"b\":1,\"a\":2\x7d]" ∧
      put {} (fun _ => Payload.aFirst) = reasonedPuts "[\x7b\"a\":2,\"b\":1\x7d]" := by
  decide +kernel

end Telemetry.Extract
