import Telemetry.Extract.Adapter
import Telemetry.Mapping.Builtin
import Telemetry.Proofs.Attribute.Records
import Telemetry.Proofs.Extract.Lookups
import Telemetry.Proofs.Extract.Plain
import Telemetry.Proofs.Field.Recall

/-!
# Extractions taken again

Every answer that an extraction got from the accessor cache is still there
when it is taken again, so it walks the same ways, even where the cache was
filled from objects of one type with different getters. Over a source that
repeats its answers the second time gives the same count and adds nothing to
the cache. It gives the same puts and changes no records as far as its payloads
rank the keys of their maps as they did; otherwise the text of a container may
list its members in another order (`extract_again`), and so it does not replay a
model's answer whose reasons to stop are an object (`extract_again_relisted`). A
run is compared with an earlier one mapping by mapping
(`Readings.Echoes.attempt`), up to any cache that ends up knowing what the
earlier run knew.
-/

namespace Telemetry.Field

theorem Source.Repeatable.alike {source : Source σ} {state : σ} (h : source.Repeatable state)
    (names : List String) : source.Alike state (source.after names state) := by
  intro later name
  have happend : source.after later (source.after names state) =
      source.after (names ++ later) state := by
    simp [Source.after]
  rw [happend, h later name, h (names ++ later) name]

theorem Source.ofObject_repeatable (target : Object) (own : Cache) :
    (Source.ofObject target).Repeatable own :=
  fun names name => Source.ofObject_repeats target names name own

theorem Source.reflected_repeatable (target : Object) (state : σ) :
    (Source.reflected target).Repeatable state :=
  fun _ _ => rfl

end Telemetry.Field

namespace Telemetry.Extract

open Attribute (KeyValues Records Sink)
open Telemetry.Field (Cache Object Source World)
open Mapping (FieldMapping FieldPath Operation Phase)
open Payload (Ranking)

variable {σ τ κ : Type}

-- ---------------------------------------------------------------------------
-- What walks keep, a run keeps
-- ---------------------------------------------------------------------------

section
variable {settings : Settings} {source : Source σ} {P : World σ → Prop}

theorem fetch_world (hwalk : ∀ first rest w, P w → P (source.traverse (first :: rest) w).2)
    {limit : Nat} {r : Readings σ} (h : P r.world) (path : FieldPath) :
    P (fetch limit source path.segments r).2.world := by
  unfold fetch
  cases Entries.get? r.payloads path.segments with
  | some loaded => exact h
  | none => exact hwalk path.first path.rest r.world h

theorem attempt_world (hwalk : ∀ first rest w, P w → P (source.traverse (first :: rest) w).2)
    {r : Readings σ} (h : P r.world) (mapping : FieldMapping) :
    P (attempt settings source mapping r).2.world := by
  rcases payload_or_field mapping with ⟨wanted, hd, -⟩ | hp
  · simp only [attempt, hd]
    split
    · exact fetch_world hwalk h mapping.path
    · exact h
  · rw [attempt_field hp]
    exact hwalk mapping.path.first mapping.path.rest r.world h

theorem attempts_world (hwalk : ∀ first rest w, P w → P (source.traverse (first :: rest) w).2)
    {r : Readings σ} (h : P r.world) (mappings : List FieldMapping) :
    P (attempts settings source mappings r).readings.world := by
  induction mappings generalizing r with
  | nil => exact h
  | cons mapping rest ih =>
    have hstep : P (attempt settings source mapping r).2.world := attempt_world hwalk h mapping
    simp only [attempts]
    rcases ha : attempt settings source mapping r with ⟨fault | put, next⟩ <;> rw [ha] at hstep
    · exact hstep
    · exact ih hstep

end

theorem attempts_keeps (settings : Settings) (source : Source σ) (mappings : List FieldMapping)
    (r : Readings σ) :
    (attempts settings source mappings r).readings.world.cache.Keeps r.world.cache :=
  attempts_world (P := fun w => w.cache.Keeps r.world.cache)
    (fun first rest w h => (source.keeps_traverse first rest w).trans h)
    r.world.cache.keeps_self mappings

theorem attempts_reached (settings : Settings) (source : Source σ) (mappings : List FieldMapping)
    (r : Readings σ) :
    ∃ names, (attempts settings source mappings r).readings.world.state =
      source.after names r.world.state := by
  refine attempts_world (P := fun w => ∃ names, w.state = source.after names r.world.state)
    ?_ ⟨[], rfl⟩ mappings
  rintro first rest w ⟨names, hw⟩
  refine ⟨names ++ [first], ?_⟩
  rw [source.traverse_state, source.lookup_state, source.after_append, hw]

-- ---------------------------------------------------------------------------
-- The same run a second time
-- ---------------------------------------------------------------------------

structure Readings.Echoes (source : Source σ) (last : Cache) (state state' : σ)
    (r r' : Readings σ) : Prop where
  worlds : ∃ names, World.Echoes source last state state' names r.world r'.world
  rankings : r'.rankings = r.rankings
  payloads : r'.payloads = r.payloads

section
variable {source : Source σ} {last : Cache} {state state' : σ}
  {r r' : Readings σ}

theorem Readings.Echoes.traverse (h : r.Echoes source last state state' r')
    (alike : source.Alike state state') (path : FieldPath)
    (hlast : last.Keeps (source.traverse path.segments r.world).2.cache) :
    (source.traverse path.segments r'.world).1 = (source.traverse path.segments r.world).1 ∧
      (∃ names, World.Echoes source last state state' names
        (source.traverse path.segments r.world).2 (source.traverse path.segments r'.world).2) ∧
      (r'.world.cache.Keeps last →
        (source.traverse path.segments r'.world).2.cache = r'.world.cache) := by
  obtain ⟨names, hw⟩ := h.worlds
  obtain ⟨hsame, hnext, hstays⟩ := hw.traverse alike hlast
  exact ⟨hsame, ⟨_, hnext⟩, hstays⟩

theorem Readings.Echoes.fetch (h : r.Echoes source last state state' r')
    (alike : source.Alike state state') {limit : Nat} (path : FieldPath)
    (hlast : last.Keeps (fetch limit source path.segments r).2.world.cache) :
    (fetch limit source path.segments r').1 = (fetch limit source path.segments r).1 ∧
      (fetch limit source path.segments r).2.Echoes source last state state'
        (fetch limit source path.segments r').2 ∧
      (r'.world.cache.Keeps last →
        (fetch limit source path.segments r').2.world.cache = r'.world.cache) := by
  unfold Extract.fetch at hlast ⊢
  rw [h.payloads]
  cases hp : Entries.get? r.payloads path.segments with
  | some loaded => exact ⟨rfl, h, fun _ => rfl⟩
  | none =>
    rw [hp] at hlast
    obtain ⟨hsame, hworlds, hstays⟩ := h.traverse alike path hlast
    simp only [hsame, h.rankings]
    exact ⟨trivial, ⟨hworlds, rfl, rfl⟩, hstays⟩

theorem Readings.Echoes.attempt (h : r.Echoes source last state state' r')
    (alike : source.Alike state state') (settings : Settings) (mapping : FieldMapping)
    (hlast : last.Keeps (attempt settings source mapping r).2.world.cache) :
    (attempt settings source mapping r').1 = (attempt settings source mapping r).1 ∧
      (attempt settings source mapping r).2.Echoes source last state state'
        (attempt settings source mapping r').2 ∧
      (r'.world.cache.Keeps last →
        (attempt settings source mapping r').2.world.cache = r'.world.cache) := by
  rcases payload_or_field mapping with ⟨wanted, hd, -⟩ | hp
  · simp only [Extract.attempt, hd] at hlast ⊢
    split at hlast
    · rename_i hgen
      obtain ⟨hsame, hnext, hstays⟩ := h.fetch alike mapping.path hlast
      rw [if_pos hgen, if_pos hgen, hsame]
      exact ⟨rfl, hnext, hstays⟩
    · rename_i hgen
      rw [if_neg hgen, if_neg hgen]
      exact ⟨rfl, h, fun _ => rfl⟩
  · rw [attempt_field hp] at hlast ⊢
    rw [attempt_field hp]
    obtain ⟨hsame, hworlds, hstays⟩ := h.traverse alike mapping.path hlast
    rw [hsame]
    exact ⟨rfl, ⟨hworlds, h.rankings, h.payloads⟩, hstays⟩

theorem Readings.Echoes.attempts (h : r.Echoes source last state state' r')
    (alike : source.Alike state state') (settings : Settings) (mappings : List FieldMapping)
    (hlast : last.Keeps (attempts settings source mappings r).readings.world.cache) :
    (attempts settings source mappings r').puts = (attempts settings source mappings r).puts ∧
      (attempts settings source mappings r').fault =
        (attempts settings source mappings r).fault ∧
      (attempts settings source mappings r).readings.Echoes source last state state'
        (attempts settings source mappings r').readings ∧
      (r'.world.cache.Keeps last →
        (attempts settings source mappings r').readings.world.cache = r'.world.cache) := by
  induction mappings generalizing r r' with
  | nil => exact ⟨rfl, rfl, h, fun _ => rfl⟩
  | cons mapping rest ih =>
    have hattempt := h.attempt alike settings mapping
    simp only [Extract.attempts] at hlast ⊢
    rcases ha : Extract.attempt settings source mapping r with ⟨result, next⟩
    rcases ha' : Extract.attempt settings source mapping r' with ⟨result', next'⟩
    rw [ha, ha'] at hattempt
    rw [ha] at hlast
    cases result with
    | error fault =>
      obtain ⟨rfl, hnext, hstays⟩ := hattempt hlast
      exact ⟨rfl, rfl, hnext, hstays⟩
    | ok put =>
      have hnow : last.Keeps next.world.cache :=
        hlast.trans (attempts_keeps settings source rest next)
      obtain ⟨rfl, hnext, hstays⟩ := hattempt hnow
      obtain ⟨hputs, hfault, hend, hstays'⟩ := ih hnext hlast
      refine ⟨congrArg (put.toList.map (mapping, ·) ++ ·) hputs, hfault, hend, ?_⟩
      intro hkeeps
      have hunchanged : next'.world.cache = r'.world.cache := hstays hkeeps
      exact (hstays' (hunchanged ▸ hkeeps)).trans hunchanged

end

-- ---------------------------------------------------------------------------
-- What an extraction performs
-- ---------------------------------------------------------------------------

structure Told where
  puts : List Put
  written : Except Field.Fault Nat

/-- A fault leaves the puts before it. -/
def Trace.told (settings : Settings) (trace : Trace σ) : Told :=
  match trace.fault with
  | none => ⟨trace.attributes settings, .ok (trace.attributes settings).length⟩
  | some fault => ⟨trace.puts.map (·.2), .error fault⟩

theorem Extractor.extract_told [Sink κ] (e : Extractor) (operation : Operation) (phase : Phase)
    (source : Source σ) (world : World σ) (sink : κ) (rankings : Rankings) :
    e.extract operation phase source world sink rankings =
      let trace := e.trace operation phase source world rankings
      { written := (trace.told e.settings).written
        sink := putAll sink (trace.told e.settings).puts
        world := trace.readings.world } := by
  simp only [Extractor.extract_eq, Trace.told]
  cases (e.trace operation phase source world rankings).fault <;> rfl

theorem Trace.told_eq {first : Trace σ} {second : Trace τ} (hputs : second.puts = first.puts)
    (hfault : second.fault = first.fault) (settings : Settings) :
    second.told settings = first.told settings := by
  simp only [Trace.told, Trace.attributes, Trace.fromPayload, hputs, hfault]

theorem Trace.told_of_none {trace : Trace σ} (h : trace.fault = none) (settings : Settings) :
    trace.told settings = ⟨trace.attributes settings, .ok (trace.attributes settings).length⟩ := by
  simp only [Trace.told, h]

structure Told.Relisted (told told' : Told) : Prop where
  puts : List.Forall₂ Extract.Relisted told.puts told'.puts
  written : told'.written = told.written

theorem Trace.Relisted.told {trace trace' : Trace σ} (h : trace.Relisted trace')
    (settings : Settings) : (trace.told settings).Relisted (trace'.told settings) := by
  unfold Trace.told
  rw [h.fault]
  cases trace.fault with
  | none =>
    have hputs := h.attributes settings
    exact ⟨hputs, by rw [hputs.length_eq]⟩
  | some fault => exact ⟨forall₂_puts h.puts, rfl⟩

theorem Extractor.trace_echoes (e : Extractor) (operation : Operation) (phase : Phase)
    {source : Source σ} {state state' : σ} (alike : source.Alike state state') (rankings : Rankings)
    {last cache cache' : Cache} (h : Cache.Echoes last cache cache')
    (hlast : last.Keeps
      (e.trace operation phase source ⟨cache, state⟩ rankings).readings.world.cache) :
    let first := e.trace operation phase source ⟨cache, state⟩ rankings
    let second := e.trace operation phase source ⟨cache', state'⟩ rankings
    second.puts = first.puts ∧ second.fault = first.fault ∧
      first.readings.Echoes source last state state' second.readings ∧
      (cache'.Keeps last → second.readings.world.cache = cache') := by
  have hstart : ({ world := ⟨cache, state⟩, rankings } : Readings σ).Echoes source last state state'
      { world := ⟨cache', state'⟩, rankings } :=
    ⟨⟨[], rfl, rfl, h⟩, rfl, rfl⟩
  exact hstart.attempts alike e.settings (e.plan operation phase) hlast

/-- Taken again, an extraction gives what it would have given the first time in this
order of members, and looks the same names up. -/
theorem Extractor.trace_again (e : Extractor) (operation : Operation) (phase : Phase)
    (source : Source σ) (world : World σ) (repeatable : source.Repeatable world.state)
    (rankings rankings' : Rankings) :
    let first := e.trace operation phase source world rankings
    let first' := e.trace operation phase source world rankings'
    let second := e.trace operation phase source first.readings.world rankings'
    second.puts = first'.puts ∧ second.fault = first'.fault ∧
      second.readings.world.cache = first.readings.world.cache ∧
      ∃ names, first.readings.world.state = source.after names world.state ∧
        second.readings.world.state = source.after names first.readings.world.state := by
  intro first first' second
  have hworld : first'.readings.world = first.readings.world :=
    (e.trace_relisted operation phase source world rankings rankings').readings.world
  have hkeeps : first'.readings.world.cache.Keeps world.cache :=
    attempts_keeps e.settings source _ _
  obtain ⟨before, hbefore⟩ := attempts_reached e.settings source (e.plan operation phase)
    { world, rankings := rankings' }
  have hreached : first'.readings.world.state = source.after before world.state := hbefore
  have halike : source.Alike world.state first'.readings.world.state := by
    rw [hreached]
    exact repeatable.alike before
  have hagain := e.trace_echoes operation phase halike rankings'
    ⟨hkeeps, (Field.Cache.keeps_self _).consistent⟩ (Field.Cache.keeps_self _)
  simp only [second, ← hworld]
  obtain ⟨hputs, hfault, ⟨⟨names, hend⟩, -, -⟩, hstays⟩ := hagain
  exact ⟨hputs, hfault, hstays (Field.Cache.keeps_self _), names, hend.reached, hend.reached'⟩

/-- Puts that another order of members changes in the texts of nodes at most. -/
def UpToListing (puts : Rankings → List Put) : Prop :=
  ∀ rankings rankings', List.Forall₂ Relisted (puts rankings) (puts rankings')

theorem Extractor.told_upToListing (e : Extractor) (operation : Operation) (phase : Phase)
    (source : Source σ) (world : World σ) :
    UpToListing fun rankings =>
      ((e.trace operation phase source world rankings).told e.settings).puts :=
  fun rankings rankings' =>
    ((e.trace_relisted operation phase source world rankings rankings').told e.settings).puts

/-- Over a source that repeats its answers and with any accessor cache, an
extraction that is taken again gives the same count and adds nothing to the cache.
It makes the puts that the first would have made, had its payloads listed their
members as they are listed now: the same puts and no other records if they did,
else the same but for the order of members. An object that is read through a
cache of its own leaves that cache too as it was after the first time. -/
theorem extract_again (e : Extractor) (operation : Operation) (phase : Phase)
    (source : Source σ) (world : World σ) (repeatable : source.Repeatable world.state) :
    (∃ puts : Rankings → List Put, UpToListing puts ∧
      (∀ (κ : Type) [Sink κ] (sink later : κ) (rankings rankings' : Rankings),
        let first := e.extract operation phase source world sink rankings
        let second := e.extract operation phase source first.world later rankings'
        first.sink = putAll sink (puts rankings) ∧ second.sink = putAll later (puts rankings') ∧
          second.written = first.written ∧ second.world.cache = first.world.cache ∧
          ((∀ fault, ¬ e.Exposes operation phase source world sink rankings fault) →
            first.written = .ok (puts rankings).length)) ∧
      ∀ (records : Records) (rankings rankings' : Rankings), records.Ordered →
        let first := e.extract operation phase source world records rankings
        let second := e.extract operation phase source first.world first.sink rankings'
        (rankings' = rankings → second.sink = first.sink) ∧
          List.Forall₂ Relisted first.sink.entries second.sink.entries) ∧
    ∀ (target : Object) (cache own : Cache) (κ : Type) [Sink κ] (sink later : κ)
      (rankings rankings' : Rankings),
      let first := e.extract operation phase (.ofObject target) ⟨cache, own⟩ sink rankings
      (e.extract operation phase (.ofObject target) first.world later rankings').world =
        first.world := by
  have again (rankings rankings' : Rankings) :=
    e.trace_again operation phase source world repeatable rankings rankings'
  have htold (rankings rankings' : Rankings) :
      (e.trace operation phase source (e.trace operation phase source world rankings).readings.world
          rankings').told e.settings =
        (e.trace operation phase source world rankings').told e.settings :=
    Trace.told_eq (again rankings rankings').1 (again rankings rankings').2.1 e.settings
  have hlisted (rankings rankings' : Rankings) :=
    (e.trace_relisted operation phase source world rankings rankings').told e.settings
  refine ⟨⟨_, e.told_upToListing operation phase source world, ?_, ?_⟩, ?_⟩
  · intro κ _ sink later rankings rankings'
    simp only [e.extract_told operation phase, htold]
    have hcache := (again rankings rankings').2.2.1
    refine ⟨trivial, trivial, (hlisted rankings rankings').written, hcache, ?_⟩
    intro quiet
    rw [Trace.told_of_none (e.fault_eq_none quiet)]
  · intro records rankings rankings' ordered
    simp only [e.extract_told operation phase, htold]
    refine ⟨?_, ?_⟩
    · rintro rfl
      exact Attribute.putAll_twice ordered _
    · -- The first puts once more change nothing, and the second ones stand beside them.
      generalize hfirst : (e.trace operation phase source world rankings).told e.settings = told
      have hkept := relisted_refl (putAll records told.puts).entries
      have hputs := (hlisted rankings rankings').puts
      rw [hfirst] at hputs
      have hsecond := Attribute.forall₂_putAll (fun _ _ hput => hput.key) hkept hputs
      rwa [Attribute.putAll_twice ordered] at hsecond
  · intro target cache own κ _ sink later rankings rankings'
    obtain ⟨-, -, hcache, names, hfirst, hsecond⟩ := e.trace_again operation phase
      (.ofObject target) ⟨cache, own⟩ (Source.ofObject_repeatable target own) rankings rankings'
    simp only [e.extract_told operation phase]
    rw [hfirst, Source.ofObject_twice target names own, ← hfirst] at hsecond
    exact congrArg₂ World.mk hcache hsecond

/-- Two objects of one type with their getters the other way round. -/
def readFirst : Object :=
  .mk 7 "Throughput" [.mk "read_capacity_units" (.value (.int 5)),
    .mk "write_capacity_units" (.value (.int 9))]

def writeFirst : Object :=
  .mk 7 "Throughput" [.mk "write_capacity_units" (.value (.int 9)),
    .mk "read_capacity_units" (.value (.int 5))]

def throughputRequest : Object :=
  .mk 3 "Request" [.mk "provisioned_throughput" (.value (.object writeFirst))]

/-- The slot that answers was found in the other object, and still answers the
second time. -/
theorem extract_again_stale_slot :
    let e : Extractor := { registry := .ofTable [Mapping.keyValueStore], settings := {} }
    let stale := (({} : Cache).resolve readFirst "ReadCapacityUnits").2
    let first := e.extract Mapping.createTable .request (.reflected throughputRequest)
      ⟨stale, ()⟩ ({} : KeyValues)
    let second := e.extract Mapping.createTable .request (.reflected throughputRequest)
      first.world ({} : KeyValues)
    first.sink = ⟨[(Attribute.Key.provisionedReadCapacity, .int 9),
        (Attribute.Key.provisionedWriteCapacity, .int 9)]⟩ ∧
      second.sink = first.sink := by
  intro e stale first second
  obtain ⟨⟨puts, -, hboth, -⟩, -⟩ := extract_again e Mapping.createTable .request
    (.reflected throughputRequest) ⟨stale, ()⟩ (Source.reflected_repeatable throughputRequest ())
  obtain ⟨hfirst, hsecond, -⟩ := hboth KeyValues {} {} .level .level
  exact ⟨rfl, hsecond.trans hfirst.symm⟩

theorem extract_again_relisted :
    let e : Extractor := { registry := .builtin, settings := {} }
    let first := e.extract Mapping.invokeModel .response reasonedAnswer.source { state := () }
      ({} : KeyValues)
    let second := e.extract Mapping.invokeModel .response reasonedAnswer.source first.world
      ({} : KeyValues) fun _ => Payload.aFirst
    first.sink.entries = reasonedPuts "[\x7b\"b\":1,\"a\":2\x7d]" ∧
      second.sink.entries = reasonedPuts "[\x7b\"a\":2,\"b\":1\x7d]" := by
  decide +kernel

end Telemetry.Extract
