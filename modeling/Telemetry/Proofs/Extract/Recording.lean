import Telemetry.Proofs.Extract.Replay
import Telemetry.Proofs.Extract.Validity

/-!
# A list of attributes and records of them

Calls are observed, each by an extractor over one of several accessor caches.
The same calls go once into a list of key-values and once into records, where
every source answers as it did. The list grows by what the mappings of each
call give: those of the operation, then those of the category, then the
system's name (`runAll_told`, `Call.told_parts`). The records keep of each
key what the list has last (`records_follow_list`). How the second run meets
its caches, as the first did or filled by it, makes no difference
(`tell_again`). The order in which it meets the members of a payload is its own,
and changes the text of a node at most.
-/

namespace Telemetry.Extract

open Attribute (KeyValues Records Sink)
open Telemetry.Field (Cache Fault Source World)
open Mapping (FieldMapping Operation Phase)

variable {σ κ : Type}

-- ---------------------------------------------------------------------------
-- Runs over several caches
-- ---------------------------------------------------------------------------

abbrev Caches := Nat → Cache

structure Observation : Type 1 where
  slot : Nat
  call : Call

def Call.count [Sink κ] (cache : Cache) (sink : κ) : Call → Except Fault Nat
  | .request e operation source state rankings =>
    (e.onRequest operation source ⟨cache, state⟩ sink rankings).written
  | .response e operation source state rankings =>
    (e.onResponse operation source ⟨cache, state⟩ sink rankings).written
  | .failure e operation errorType => .ok (e.onFailure operation errorType sink).1

structure Ran (κ : Type) where
  total : Except Fault Nat
  sink : κ
  caches : Caches

def runAll [Sink κ] : List Observation → Caches → κ → Ran κ
  | [], caches, sink => ⟨.ok 0, sink, caches⟩
  | observed :: rest, caches, sink =>
    let count := observed.call.count (caches observed.slot) sink
    let (cache, sink) := observed.call.run (caches observed.slot) sink
    let later := runAll rest (Function.update caches observed.slot cache) sink
    { later with total := do return (← count) + (← later.total) }

-- ---------------------------------------------------------------------------
-- What calls tell any sink
-- ---------------------------------------------------------------------------

def Extractor.told (e : Extractor) (operation : Operation) (phase : Phase) (source : Source σ)
    (world : World σ) (rankings : Rankings) : Told :=
  (e.trace operation phase source world rankings).told e.settings

def failurePuts (errorType : String) : List Put :=
  if errorType.isEmpty then [] else [(Attribute.Key.errorType, .text errorType)]

def Call.told (cache : Cache) : Call → Told
  | .request e operation source state rankings =>
    e.told operation .request source ⟨cache, state⟩ rankings
  | .response e operation source state rankings =>
    e.told operation .response source ⟨cache, state⟩ rankings
  | .failure _ _ errorType => ⟨failurePuts errorType, .ok (failurePuts errorType).length⟩

def Call.leave (call : Call) (cache : Cache) : Cache :=
  (call.emissions cache).2

def Observation.leave (caches : Caches) (observed : Observation) : Caches :=
  Function.update caches observed.slot (observed.call.leave (caches observed.slot))

def tell : List Observation → Caches → List Told
  | [], _ => []
  | observed :: rest, caches =>
    observed.call.told (caches observed.slot) :: tell rest (observed.leave caches)

def total : List Told → Except Fault Nat
  | [] => .ok 0
  | told :: rest => do return (← told.written) + (← total rest)

theorem Call.run_told [Sink κ] (call : Call) (cache : Cache) (sink : κ) :
    call.run cache sink = (call.leave cache, putAll sink (call.told cache).puts) ∧
      call.count cache sink = (call.told cache).written := by
  cases call with
  | request e operation source state rankings =>
    simp [Call.run, Call.count, Call.told, Call.leave, Call.emissions, Extractor.told,
      Extractor.onRequest, e.extract_told operation]
  | response e operation source state rankings =>
    simp [Call.run, Call.count, Call.told, Call.leave, Call.emissions, Extractor.told,
      Extractor.onResponse, e.extract_told operation]
  | failure e operation errorType =>
    simp only [Call.run, Call.count, Call.told, Call.leave, Call.emissions, Extractor.onFailure,
      failurePuts]
    cases errorType.isEmpty <;> exact ⟨rfl, rfl⟩

theorem runAll_told [Sink κ] (observed : List Observation) (caches : Caches) (sink : κ) :
    runAll observed caches sink =
      { total := total (tell observed caches)
        sink := putAll sink ((tell observed caches).flatMap (·.puts))
        caches := observed.foldl Observation.leave caches } := by
  induction observed generalizing caches sink with
  | nil => rfl
  | cons head rest ih =>
    obtain ⟨hrun, hcount⟩ := head.call.run_told (caches head.slot) sink
    simp only [runAll, hrun, hcount, ih, tell, total, List.flatMap_cons, putAll_append,
      List.foldl_cons]
    rfl

-- ---------------------------------------------------------------------------
-- What the mappings of a call give
-- ---------------------------------------------------------------------------

/-- The puts of a call by where they come from: the mappings of the operation,
those of its category, and what it ends with. -/
structure Parts where
  operation : List Put := []
  category : List Put := []
  closing : List Put

def Parts.all (parts : Parts) : List Put :=
  parts.operation ++ parts.category ++ parts.closing

def Extractor.parts (e : Extractor) (operation : Operation) (phase : Phase) (source : Source σ)
    (world : World σ) (rankings : Rankings) : Parts :=
  let first := operation.mappings phase
  let own := allGiven e.settings source world rankings [] first
  let category :=
    allGiven e.settings source world rankings first (e.registry.mappings operation.category phase)
  { operation := own.map (·.2)
    category := category.map (·.2)
    closing := systemPuts e.settings ((own ++ category).any (·.1.isPayload)) }

def Call.parts (cache : Cache) : Call → Parts
  | .request e operation source state rankings =>
    e.parts operation .request source ⟨cache, state⟩ rankings
  | .response e operation source state rankings =>
    e.parts operation .response source ⟨cache, state⟩ rankings
  | .failure _ _ errorType => { closing := failurePuts errorType }

def runParts : List Observation → Caches → List Parts
  | [], _ => []
  | observed :: rest, caches =>
    observed.call.parts (caches observed.slot) :: runParts rest (observed.leave caches)

def Call.Quiet (cache : Cache) : Call → Prop
  | .request e operation source state rankings => ∀ fault,
    ¬ e.Exposes operation .request source ⟨cache, state⟩ ({} : KeyValues) rankings fault
  | .response e operation source state rankings => ∀ fault,
    ¬ e.Exposes operation .response source ⟨cache, state⟩ ({} : KeyValues) rankings fault
  | .failure _ _ _ => True

def AllQuiet : List Observation → Caches → Prop
  | [], _ => True
  | observed :: rest, caches =>
    observed.call.Quiet (caches observed.slot) ∧ AllQuiet rest (observed.leave caches)

def Parts.told (parts : Parts) : Told :=
  ⟨parts.all, .ok parts.all.length⟩

theorem allGiven_append (settings : Settings) (source : Source σ) (world : World σ)
    (rankings : Rankings) (before first second : List FieldMapping) :
    allGiven settings source world rankings before (first ++ second) =
      allGiven settings source world rankings before first ++
        allGiven settings source world rankings (before ++ first) second := by
  induction first generalizing before with
  | nil => simp [allGiven]
  | cons mapping rest ih => simp [allGiven, ih]

theorem Extractor.told_parts {e : Extractor} {operation : Operation} {phase : Phase}
    {source : Source σ} {world : World σ} {rankings : Rankings}
    (hfault : (e.trace operation phase source world rankings).fault = none) :
    e.told operation phase source world rankings =
      (e.parts operation phase source world rankings).told := by
  have hstart : ({ world, rankings } : Readings σ).After e.settings source world rankings [] :=
    ⟨rfl, rfl, fun path => by simp [Entries.get?]⟩
  have hputs : (e.trace operation phase source world rankings).puts =
      allGiven e.settings source world rankings [] (operation.mappings phase) ++
        allGiven e.settings source world rankings (operation.mappings phase)
          (e.registry.mappings operation.category phase) :=
    (attempts_given hstart hfault).1.trans (allGiven_append ..)
  have hattributes : (e.trace operation phase source world rankings).attributes e.settings =
      (e.parts operation phase source world rankings).all := by
    simp only [Trace.attributes, Trace.fromPayload, hputs, Extractor.parts, Parts.all,
      List.map_append]
  rw [Extractor.told, Trace.told_of_none hfault, hattributes]
  rfl

theorem Call.told_parts {call : Call} {cache : Cache} (quiet : call.Quiet cache) :
    call.told cache = (call.parts cache).told := by
  cases call with
  | request e operation source state rankings => exact e.told_parts (e.fault_eq_none quiet)
  | response e operation source state rankings => exact e.told_parts (e.fault_eq_none quiet)
  | failure e operation errorType => rfl

theorem tell_parts {observed : List Observation} {caches : Caches}
    (quiet : AllQuiet observed caches) :
    tell observed caches = (runParts observed caches).map Parts.told := by
  induction observed generalizing caches with
  | nil => rfl
  | cons head rest ih =>
    obtain ⟨hhead, hrest⟩ := quiet
    simp only [tell, runParts, List.map_cons, Call.told_parts hhead, ih hrest]

theorem total_parts (parts : List Parts) :
    total (parts.map Parts.told) = .ok (parts.flatMap Parts.all).length := by
  induction parts with
  | nil => rfl
  | cons head rest ih =>
    simp only [List.map_cons, total, ih, List.flatMap_cons, List.length_append]
    rfl

-- ---------------------------------------------------------------------------
-- In another order of members
-- ---------------------------------------------------------------------------

structure Parts.Relisted (parts parts' : Parts) : Prop where
  operation : List.Forall₂ Extract.Relisted parts.operation parts'.operation
  category : List.Forall₂ Extract.Relisted parts.category parts'.category
  closing : List.Forall₂ Extract.Relisted parts.closing parts'.closing

theorem Parts.Relisted.refl (parts : Parts) : parts.Relisted parts :=
  ⟨relisted_refl _, relisted_refl _, relisted_refl _⟩

theorem Parts.Relisted.all {parts parts' : Parts} (h : parts.Relisted parts') :
    List.Forall₂ Extract.Relisted parts.all parts'.all :=
  List.rel_append (List.rel_append h.operation h.category) h.closing

theorem givenBy_relisted (settings : Settings) (source : Source σ) (world : World σ)
    (rankings rankings' : Rankings) (before : List FieldMapping) (mapping : FieldMapping) :
    Option.Rel Relisted (givenBy settings source world rankings before mapping)
      (givenBy settings source world rankings' before mapping) := by
  unfold givenBy
  cases mapping.decode with
  | text => exact relisted?_refl _
  | count => exact relisted?_refl _
  | body wanted =>
    dsimp only
    split
    · refine optionRel_map ((sameBody_loaded ..).resolve wanted) fun _ _ h => ⟨h.key, h.value⟩
    · exact .none

theorem allGiven_relisted (settings : Settings) (source : Source σ) (world : World σ)
    (rankings rankings' : Rankings) (before mappings : List FieldMapping) :
    List.Forall₂ RelistedBy (allGiven settings source world rankings before mappings)
      (allGiven settings source world rankings' before mappings) := by
  induction mappings generalizing before with
  | nil => exact .nil
  | cons mapping rest ih =>
    refine List.rel_append ?_ (ih _)
    have hput := givenBy_relisted settings source world rankings rankings' before mapping
    generalize givenBy settings source world rankings before mapping = put? at hput ⊢
    generalize givenBy settings source world rankings' before mapping = put?' at hput ⊢
    cases hput with
    | none => exact .nil
    | some hput => exact .cons ⟨rfl, hput⟩ .nil

theorem Extractor.parts_relisted (e : Extractor) (operation : Operation) (phase : Phase)
    (source : Source σ) (world : World σ) (rankings rankings' : Rankings) :
    (e.parts operation phase source world rankings).Relisted
      (e.parts operation phase source world rankings') := by
  have given (before mappings : List FieldMapping) :=
    allGiven_relisted e.settings source world rankings rankings' before mappings
  refine ⟨forall₂_puts (given ..), forall₂_puts (given ..), ?_⟩
  unfold Extractor.parts
  dsimp only
  rw [any_isPayload (List.rel_append (given ..) (given ..))]
  exact relisted_refl _

-- ---------------------------------------------------------------------------
-- The same calls again
-- ---------------------------------------------------------------------------

def Call.rankings : Call → Rankings
  | .request _ _ _ _ rankings => rankings
  | .response _ _ _ _ rankings => rankings
  | .failure _ _ _ => .level

/-- The same call in another run, where its source answers as it did. A source
that repeats its answers does so in every state that it comes to
(`Source.Repeatable.alike`). -/
inductive Call.Again : Call → Call → Prop where
  | request (e : Extractor) (operation : Operation) {σ : Type} {source : Source σ}
    {state state' : σ} (alike : source.Alike state state') (rankings rankings' : Rankings) :
    Again (.request e operation source state rankings)
      (.request e operation source state' rankings')
  | response (e : Extractor) (operation : Operation) {σ : Type} {source : Source σ}
    {state state' : σ} (alike : source.Alike state state') (rankings rankings' : Rankings) :
    Again (.response e operation source state rankings)
      (.response e operation source state' rankings')
  | failure (e : Extractor) (operation : Operation) (errorType : String) :
    Again (.failure e operation errorType) (.failure e operation errorType)

structure Observation.Again (observed other : Observation) : Prop where
  slot : other.slot = observed.slot
  call : observed.call.Again other.call

theorem Call.keeps_leave (call : Call) (cache : Cache) : (call.leave cache).Keeps cache := by
  cases call with
  | request e operation source state rankings =>
    exact attempts_keeps e.settings source _ { world := ⟨cache, state⟩, rankings }
  | response e operation source state rankings =>
    exact attempts_keeps e.settings source _ { world := ⟨cache, state⟩, rankings }
  | failure e operation errorType => exact cache.keeps_self

theorem Observation.keeps_leave (observed : Observation) (caches : Caches) (slot : Nat) :
    (observed.leave caches slot).Keeps (caches slot) := by
  simp only [Observation.leave, Function.update_apply]
  split
  · rename_i hslot
    exact hslot ▸ observed.call.keeps_leave (caches observed.slot)
  · exact (caches slot).keeps_self

theorem keeps_foldl_leave (observed : List Observation) (caches : Caches) (slot : Nat) :
    (observed.foldl Observation.leave caches slot).Keeps (caches slot) := by
  induction observed generalizing caches with
  | nil => exact (caches slot).keeps_self
  | cons head rest ih => exact (ih (head.leave caches)).trans (head.keeps_leave caches slot)

/-- What is told in another run is what would have been told in this one, in that
run's order of members. -/
theorem Extractor.told_again (e : Extractor) (operation : Operation) (phase : Phase)
    {source : Source σ} {state state' : σ} (alike : source.Alike state state')
    (rankings rankings' : Rankings) {last cache cache' : Cache} (h : Cache.Echoes last cache cache')
    (hlast : last.Keeps
      (e.trace operation phase source ⟨cache, state⟩ rankings).readings.world.cache)
    (hfault : (e.trace operation phase source ⟨cache, state⟩ rankings).fault = none) :
    e.told operation phase source ⟨cache', state'⟩ rankings' =
        (e.parts operation phase source ⟨cache, state⟩ rankings').told ∧
      Cache.Echoes last
        (e.trace operation phase source ⟨cache, state⟩ rankings).readings.world.cache
        (e.trace operation phase source ⟨cache', state'⟩ rankings').readings.world.cache := by
  have hrelisted := e.trace_relisted operation phase source ⟨cache, state⟩ rankings rankings'
  rw [← hrelisted.readings.world] at hlast ⊢
  obtain ⟨hputs, hsame, ⟨⟨_, hend⟩, -, -⟩, -⟩ :=
    e.trace_echoes operation phase alike rankings' h hlast
  refine ⟨(Trace.told_eq hputs hsame e.settings).trans ?_, hend.cache⟩
  exact e.told_parts (hrelisted.fault.trans hfault)

theorem Call.Again.told_parts {call other : Call} (again : call.Again other) {cache : Cache}
    (quiet : call.Quiet cache) {last cache' : Cache} (h : Cache.Echoes last cache cache')
    (hlast : last.Keeps (call.leave cache)) :
    ∃ met : Parts, (call.parts cache).Relisted met ∧
      (other.rankings = call.rankings → met = call.parts cache) ∧ other.told cache' = met.told ∧
      Cache.Echoes last (call.leave cache) (other.leave cache') := by
  cases again with
  | @request e operation _ source state _ alike rankings rankings' =>
    obtain ⟨htold, hnext⟩ := e.told_again operation .request alike rankings rankings' h hlast
      (e.fault_eq_none quiet)
    exact ⟨_, e.parts_relisted .., by rintro rfl; rfl, htold, hnext⟩
  | @response e operation _ source state _ alike rankings rankings' =>
    obtain ⟨htold, hnext⟩ := e.told_again operation .response alike rankings rankings' h hlast
      (e.fault_eq_none quiet)
    exact ⟨_, e.parts_relisted .., by rintro rfl; rfl, htold, hnext⟩
  | failure e operation errorType => exact ⟨_, .refl _, fun _ => rfl, rfl, h⟩

theorem tell_again {observed others : List Observation}
    (again : List.Forall₂ Observation.Again observed others) {last caches caches' : Caches}
    (quiet : AllQuiet observed caches)
    (h : ∀ slot, Cache.Echoes (last slot) (caches slot) (caches' slot))
    (hlast : ∀ slot, (last slot).Keeps (observed.foldl Observation.leave caches slot)) :
    ∃ met : List Parts, List.Forall₂ Parts.Relisted (runParts observed caches) met ∧
      (others.map (·.call.rankings) = observed.map (·.call.rankings) →
        met = runParts observed caches) ∧
      tell others caches' = met.map Parts.told := by
  induction again generalizing caches caches' with
  | nil => exact ⟨[], .nil, fun _ => rfl, rfl⟩
  | @cons head other rest others hhead _ ih =>
    obtain ⟨hquiet, quiet⟩ := quiet
    have hstep : (last head.slot).Keeps (head.call.leave (caches head.slot)) := by
      have hkeeps := (hlast head.slot).trans (keeps_foldl_leave rest (head.leave caches) head.slot)
      simpa [Observation.leave] using hkeeps
    obtain ⟨parts, hparts, hsame, htold, hnext⟩ :=
      hhead.call.told_parts hquiet (h head.slot) hstep
    have hleft (slot : Nat) : Cache.Echoes (last slot) (head.leave caches slot)
        (other.leave caches' slot) := by
      simp only [Observation.leave, Function.update_apply, hhead.slot]
      split
      · rename_i hslot
        exact hslot ▸ hnext
      · exact h slot
    obtain ⟨met, hmet, hall, htell⟩ := ih quiet hleft hlast
    refine ⟨parts :: met, .cons hparts hmet, ?_, ?_⟩
    · intro hrankings
      obtain ⟨hfirst, hrest⟩ := List.cons.inj hrankings
      rw [hsame hfirst, hall hrest]
      rfl
    · simp only [tell, hhead.slot, htold, htell, List.map_cons]

-- ---------------------------------------------------------------------------
-- Two runs
-- ---------------------------------------------------------------------------

theorem get?_relisted {puts puts' : List Put} (h : List.Forall₂ Relisted puts puts')
    (key : String) :
    Option.Rel Payload.Relisted (Entries.get? puts key) (Entries.get? puts' key) := by
  induction h with
  | nil => exact .none
  | @cons put put' _ _ hput _ ih =>
    obtain ⟨k, value⟩ := put
    obtain ⟨k', value'⟩ := put'
    obtain rfl : k' = k := hput.key
    simp only [Entries.get?]
    split
    · exact .some hput.value
    · exact ih

theorem last?_relisted {puts puts' : List Put} (h : List.Forall₂ Relisted puts puts')
    (key : String) (earlier : Option Attribute.Value) :
    Option.Rel Payload.Relisted ((Entries.last? puts key).or earlier)
      ((Entries.last? puts' key).or earlier) := by
  have hlast := get?_relisted (List.forall₂_reverse_iff.mpr h) key
  unfold Entries.last?
  generalize Entries.get? puts.reverse key = value? at hlast ⊢
  generalize Entries.get? puts'.reverse key = value?' at hlast ⊢
  cases hlast with
  | some hvalue => exact .some hvalue
  | none =>
    cases earlier with
    | none => exact .none
    | some value => exact .some (.same value)

/-- A cache as a run met it, or grown from what the run left of it, answers as it did. -/
theorem echoes_run [Sink κ] {observed : List Observation} {caches caches' : Caches} {sink : κ}
    {slot : Nat} (known : caches' slot = caches slot ∨
      (caches' slot).Keeps ((runAll observed caches sink).caches slot)) :
    Cache.Echoes (observed.foldl Observation.leave caches slot) (caches slot) (caches' slot) := by
  have hkeeps := keeps_foldl_leave observed caches slot
  rcases known with hsame | hgrown
  · rw [hsame]
    exact ⟨(caches slot).keeps_self, hkeeps.consistent⟩
  · rw [runAll_told] at hgrown
    exact ⟨hgrown.trans hkeeps, hgrown.consistent.symm⟩

/-- The calls of a run into a list are made again into records, by sources
that answer as they did and with each accessor cache as it was or grown from
what the first run left. The list has grown by the puts of the calls in
order, and both runs return their number in sum. The records have of each key
what the list has last, or else what they had; their keys ascend, and none is
gone. The texts of nodes apart, which may list members in another order, that is
the list's value. Of a call after which no call puts a key, what it ends with
goes before what a mapping of the category gives, and that before what one of the
operation gives, the last that gives anything. -/
theorem records_follow_list (observed others : List Observation)
    (again : List.Forall₂ Observation.Again observed others) (caches caches' : Caches)
    (list : KeyValues) (records : Records)
    (known : ∀ slot, caches' slot = caches slot ∨
      (caches' slot).Keeps ((runAll observed caches list).caches slot))
    (quiet : AllQuiet observed caches) (ordered : records.Ordered) :
    let listed := runAll observed caches list
    let recorded := runAll others caches' records
    let puts := (runParts observed caches).flatMap Parts.all
    listed.sink.entries = list.entries ++ puts ∧
      listed.total = .ok puts.length ∧ recorded.total = .ok puts.length ∧
      (∀ key, Option.Rel Payload.Relisted ((Entries.last? puts key).or (records.get? key))
        (recorded.sink.get? key)) ∧
      (∀ key, key ∈ recorded.sink.keys ↔ key ∈ puts.map (·.1) ∨ key ∈ records.keys) ∧
      recorded.sink.Ordered ∧
      ∃ met : List Parts, List.Forall₂ Parts.Relisted (runParts observed caches) met ∧
        (others.map (·.call.rankings) = observed.map (·.call.rankings) →
          met = runParts observed caches) ∧
        (∀ key, recorded.sink.get? key =
          (Entries.last? (met.flatMap Parts.all) key).or (records.get? key)) ∧
        ∀ earlier parts later key, met = earlier ++ parts :: later →
          key ∉ (later.flatMap Parts.all).map (·.1) →
          recorded.sink.get? key =
            (Entries.last? parts.closing key).or
              ((Entries.last? parts.category key).or
                ((Entries.last? parts.operation key).or
                  ((Entries.last? (earlier.flatMap Parts.all) key).or (records.get? key)))) := by
  obtain ⟨met, hmet, hsame, htell⟩ :=
    tell_again again quiet (fun slot => echoes_run (known slot)) fun _ => Field.Cache.keeps_self _
  have hputs (parts : List Parts) :
      (parts.map Parts.told).flatMap (·.puts) = parts.flatMap Parts.all := by
    rw [List.flatMap_map]
    rfl
  have hrelisted : List.Forall₂ Relisted ((runParts observed caches).flatMap Parts.all)
      (met.flatMap Parts.all) :=
    List.rel_flatMap hmet fun _ _ h => h.all
  intro listed recorded puts
  have hsink : recorded.sink = putAll records (met.flatMap Parts.all) := by
    simp only [recorded, runAll_told, htell, hputs]
  have hget (key : String) : recorded.sink.get? key =
      (Entries.last? (met.flatMap Parts.all) key).or (records.get? key) := by
    rw [hsink]
    exact Attribute.get?_putAll records _ key
  refine ⟨?_, ?_, ?_, ?_, ?_, ?_, met, hmet, hsame, hget, ?_⟩
  · simp only [listed, runAll_told, tell_parts quiet, hputs, Attribute.putAll_keyValues]
    rfl
  · simp only [listed, runAll_told, tell_parts quiet, total_parts]
    rfl
  · simp only [recorded, runAll_told, htell, total_parts, ← hrelisted.length_eq]
    rfl
  · intro key
    rw [hget]
    exact last?_relisted hrelisted key _
  · intro key
    rw [hsink, Attribute.mem_keys_putAll, keys_relisted hrelisted]
  · rw [hsink]
    exact Attribute.ordered_putAll ordered _
  · intro earlier parts later key hparts hlater
    rw [hget, hparts]
    simp only [List.flatMap_append, List.flatMap_cons, Parts.all, Entries.last?_append,
      Entries.last?_eq_none_iff.mpr hlater, Option.none_or, Option.or_assoc]

def namedTwice : Mapping.Category where
  name := "service"
  request := [.request "service.name" "first", .request "service.name" "second"]

theorem records_follow_list_same_key :
    let e : Extractor := { registry := .ofTable [namedTwice], settings := {} }
    let calls : List Observation :=
      [⟨0, .request e (.generic "service") (.ofFields fun name => .value (.text name)) () .level⟩,
        ⟨1, .failure e (.generic "service") "Throttled"⟩]
    let listed := runAll calls (fun _ => {}) ({} : KeyValues)
    let recorded := runAll calls listed.caches
      (⟨[("service.name", .text "old"), ("zone", .text "a")]⟩ : Records)
    recorded.total = .ok 3 ∧ recorded.sink.get? "service.name" = some (.text "second") ∧
      recorded.sink.get? "zone" = some (.text "a") := by
  intro e calls listed recorded
  have again : List.Forall₂ Observation.Again calls calls :=
    .cons ⟨rfl, .request e _ (Source.alike_self _ ()) .level .level⟩
      (.cons ⟨rfl, .failure e _ _⟩ .nil)
  have quiet : AllQuiet calls (fun _ => {}) := by
    refine ⟨?_, trivial, trivial⟩
    intro fault h
    rw [Extractor.exposes_iff] at h
    exact nomatch h
  have ordered : Sorted.Ascending
      [("service.name", Attribute.Value.text "old"), ("zone", .text "a")] := by
    simp only [Sorted.Ascending]
    decide
  obtain ⟨-, -, htotal, -, -, -, met, -, hmet, hget, -⟩ := records_follow_list calls calls again
    (fun _ => {}) listed.caches {} ⟨_⟩ (fun _ => .inr (Field.Cache.keeps_self _)) quiet ordered
  obtain rfl := hmet rfl
  exact ⟨htotal.trans rfl, (hget "service.name").trans rfl, (hget "zone").trans rfl⟩

theorem records_follow_list_relisted :
    let e : Extractor := { registry := .builtin, settings := {} }
    let calls (rankings : Rankings) : List Observation :=
      [⟨0, .response e Mapping.invokeModel reasonedAnswer.source () rankings⟩]
    (runAll (calls .level) (fun _ => {}) ({} : KeyValues)).sink.entries =
        reasonedPuts "[\x7b\"b\":1,\"a\":2\x7d]" ∧
      (runAll (calls fun _ => Payload.aFirst) (fun _ => {}) ({} : Records)).sink.get?
          Attribute.Key.finishReasons =
        some (.text "[\x7b\"a\":2,\"b\":1\x7d]") := by
  decide +kernel

end Telemetry.Extract
