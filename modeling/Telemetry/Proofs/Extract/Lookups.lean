import Mathlib
import Telemetry.Proofs.Extract.Containment
import Telemetry.Proofs.Entries

/-!
# What an extraction looks up

An extraction walks the path of every text and count, and a payload's path
only the first time that it is due; what the first walk led to, a tree or
nothing, is what every later attribute of that path is read from. `lookers`
lists the mappings that walk, and `allGiven` says what each mapping of the plan
gives, each walk starting from the world that the walks before it left. For
any source, one that changes its answers too, an extraction that no fault
ends is these walks and these puts (`extract_lookups`), and a source that
keeps a record of its lookups finds in it the first segments of the walked
paths, in order and nothing else.
-/

namespace Telemetry.Field

/-- The source's state keeps a record of the names that are looked up. -/
def Source.Notes (source : Source σ) (record : σ → List String) : Prop :=
  ∀ name w, record (source.lookup name w).2.state = record w.state ++ [name]

def Source.recorded (lookup : String → σ → Reading × σ) : Source (σ × List String) :=
  .provider fun name (state, names) =>
    ((lookup name state).1, (lookup name state).2, names ++ [name])

theorem Source.recorded_notes (lookup : String → σ → Reading × σ) :
    (Source.recorded lookup).Notes Prod.snd :=
  fun _ _ => rfl

theorem Source.traverse_state (source : Source σ) (first : String) (rest : List String)
    (w : World σ) :
    (source.traverse (first :: rest) w).2.state = (source.lookup first w).2.state := by
  simp only [Source.traverse]
  rcases source.lookup first w with ⟨reading, w'⟩
  cases reading <;> rfl

end Telemetry.Field

namespace Telemetry.Extract

open Attribute (Sink)
open Telemetry.Field (Source World)
open Mapping (FieldMapping FieldPath Operation Phase)
open Payload (Tree)

-- ---------------------------------------------------------------------------
-- The walks of a plan
-- ---------------------------------------------------------------------------

def readsPayload (path : FieldPath) (mapping : FieldMapping) : Bool :=
  mapping.isPayload && mapping.path = path

def looksUp (settings : Settings) (before : List FieldMapping) (mapping : FieldMapping) : Bool :=
  !mapping.isPayload || (settings.genAi && !before.any (readsPayload mapping.path))

/-- The mappings that walk their paths, after those before them. -/
def lookers (settings : Settings) : List FieldMapping → List FieldMapping → List FieldMapping
  | _, [] => []
  | before, mapping :: rest =>
    (if looksUp settings before mapping then [mapping] else []) ++
      lookers settings (before ++ [mapping]) rest

variable {σ κ : Type}

def passage (source : Source σ) (world : World σ) (mappings : List FieldMapping) : World σ :=
  mappings.foldl (fun w mapping => (source.traverse mapping.path.segments w).2) world

/-- The world in which a mapping is tried after those before it. -/
def worldAt (settings : Settings) (source : Source σ) (world : World σ)
    (before : List FieldMapping) : World σ :=
  passage source world (lookers settings [] before)

/-- The payload at a path, as the first of the mappings that reads it finds it. -/
def firstLoad (settings : Settings) (source : Source σ) (world : World σ) (rankings : Rankings)
    (before : List FieldMapping) (path : FieldPath) : Option Tree :=
  let w := worldAt settings source world (before.takeWhile (!readsPayload path ·))
  let ranking := rankings path.segments
  ((source.traverse path.segments w).1.bind (payloadTree settings.payloadLimit ranking)).toOption

/-- What a mapping gives after those before it. -/
def givenBy (settings : Settings) (source : Source σ) (world : World σ) (rankings : Rankings)
    (before : List FieldMapping) (mapping : FieldMapping) : Option Put :=
  match mapping.decode with
  | .body wanted =>
    if settings.genAi then
      let tree? := firstLoad settings source world rankings before mapping.path
      (tree?.bind wanted.resolve).map fun resolved => (resolved.key, resolved.value)
    else none
  | _ =>
    let w := worldAt settings source world before
    (source.traverse mapping.path.segments w).1.toOption.bind fun v =>
      (fieldPut mapping v).toOption.join

def allGiven (settings : Settings) (source : Source σ) (world : World σ) (rankings : Rankings) :
    List FieldMapping → List FieldMapping → List (FieldMapping × Put)
  | _, [] => []
  | before, mapping :: rest =>
    (givenBy settings source world rankings before mapping).toList.map (mapping, ·) ++
      allGiven settings source world rankings (before ++ [mapping]) rest

theorem lookers_append (settings : Settings) (before first second : List FieldMapping) :
    lookers settings before (first ++ second) =
      lookers settings before first ++ lookers settings (before ++ first) second := by
  induction first generalizing before with
  | nil => simp [lookers]
  | cons mapping rest ih => simp [lookers, ih]

theorem worldAt_concat (settings : Settings) (source : Source σ) (world : World σ)
    (before : List FieldMapping) (mapping : FieldMapping) :
    worldAt settings source world (before ++ [mapping]) =
      if looksUp settings before mapping then
        (source.traverse mapping.path.segments (worldAt settings source world before)).2
      else worldAt settings source world before := by
  simp only [worldAt, passage, lookers_append, lookers, List.nil_append, List.append_nil,
    List.foldl_append]
  split <;> rfl

theorem passage_record {source : Source σ} {record : σ → List String} (notes : source.Notes record)
    (world : World σ) (mappings : List FieldMapping) :
    record (passage source world mappings).state =
      record world.state ++ mappings.map (·.path.first) := by
  induction mappings generalizing world with
  | nil => simp [passage]
  | cons mapping rest ih =>
    have hstep : record (source.traverse mapping.path.segments world).2.state =
        record world.state ++ [mapping.path.first] := by
      rw [FieldPath.segments, source.traverse_state]
      exact notes mapping.path.first world
    have hrest := ih (source.traverse mapping.path.segments world).2
    simpa [passage, hstep] using hrest

theorem lookers_payloads (settings : Settings) (before mappings : List FieldMapping) :
    (((lookers settings before mappings).filter (·.isPayload)).map (·.path)).Nodup ∧
      ∀ mapping ∈ lookers settings before mappings, mapping.isPayload = true →
        before.any (readsPayload mapping.path) = false := by
  induction mappings generalizing before with
  | nil => simp [lookers]
  | cons mapping rest ih =>
    obtain ⟨hnodup, hfresh⟩ := ih (before ++ [mapping])
    have hlater (later : FieldMapping) (hm : later ∈ lookers settings (before ++ [mapping]) rest)
        (hp : later.isPayload = true) : before.any (readsPayload later.path) = false ∧
          readsPayload later.path mapping = false := by
      simpa using hfresh later hm hp
    simp only [lookers]
    by_cases hlook : looksUp settings before mapping = true
    · rw [if_pos hlook]
      refine ⟨?_, ?_⟩
      · by_cases hp : mapping.isPayload = true
        · simp only [List.cons_append, List.nil_append, List.filter_cons, hp, if_true,
            List.map_cons, List.nodup_cons]
          refine ⟨?_, hnodup⟩
          intro hmem
          obtain ⟨later, hm, hpath⟩ := List.mem_map.mp hmem
          obtain ⟨hm, hpl⟩ := List.mem_filter.mp hm
          have hnot := (hlater later hm hpl).2
          simp [readsPayload, hp, hpath] at hnot
        · simpa [List.filter_cons, hp] using hnodup
      · intro later hm hp
        rcases List.mem_cons.mp hm with rfl | hm
        · simp only [looksUp, hp, Bool.not_true, Bool.false_or, Bool.and_eq_true,
            Bool.not_eq_true'] at hlook
          exact hlook.2
        · exact (hlater later hm hp).1
    · rw [if_neg hlook]
      exact ⟨hnodup, fun later hm hp => (hlater later hm hp).1⟩

-- ---------------------------------------------------------------------------
-- Runs
-- ---------------------------------------------------------------------------

theorem segments_injective : Function.Injective FieldPath.segments := by
  rintro ⟨first, rest⟩ ⟨first', rest'⟩ h
  obtain ⟨rfl, rfl⟩ := List.cons.inj h
  rfl

/-- What a run knows when these mappings have been tried. -/
structure Readings.After (settings : Settings) (source : Source σ) (world : World σ)
    (rankings : Rankings) (before : List FieldMapping) (r : Readings σ) : Prop where
  ranked : r.rankings = rankings
  reached : r.world = worldAt settings source world before
  known : ∀ path : FieldPath, Entries.get? r.payloads path.segments =
    if settings.genAi && before.any (readsPayload path) then
      some (firstLoad settings source world rankings before path)
    else none

section
variable {settings : Settings} {source : Source σ} {world : World σ} {rankings : Rankings}
  {before : List FieldMapping} {mapping : FieldMapping} {r : Readings σ}

/-- From the first mapping on that reads the payload at a path, what the first
load gave stays what it was. -/
theorem firstLoad_concat {path : FieldPath}
    (h : (before ++ [mapping]).any (readsPayload path) = true) :
    firstLoad settings source world rankings (before ++ [mapping]) path =
      firstLoad settings source world rankings before path := by
  have htake : (before ++ [mapping]).takeWhile (!readsPayload path ·) =
      before.takeWhile (!readsPayload path ·) := by
    rw [List.takeWhile_append]
    split
    · rename_i hall
      have hself : before.takeWhile (!readsPayload path ·) = before :=
        (List.takeWhile_prefix _).eq_of_length hall
      have hnone : before.any (readsPayload path) = false := by
        simpa [List.takeWhile_eq_self_iff] using hself
      have hlast : readsPayload path mapping = true := by
        simpa [List.any_append, hnone] using h
      rw [hself, List.takeWhile_cons, hlast]
      simp
    · rfl
  unfold firstLoad
  rw [htake]

theorem firstLoad_due {path : FieldPath} (h : before.any (readsPayload path) = false) :
    firstLoad settings source world rankings before path =
      ((source.traverse path.segments (worldAt settings source world before)).1.bind
        (payloadTree settings.payloadLimit (rankings path.segments))).toOption := by
  have htake : before.takeWhile (!readsPayload path ·) = before := by
    simpa [List.takeWhile_eq_self_iff] using h
  unfold firstLoad
  rw [htake]

theorem Readings.After.known_concat (h : r.After settings source world rankings before)
    {path : FieldPath}
    (hother : before.any (readsPayload path) = true ∨ readsPayload path mapping = false) :
    Entries.get? r.payloads path.segments =
      if settings.genAi && (before ++ [mapping]).any (readsPayload path) then
        some (firstLoad settings source world rankings (before ++ [mapping]) path)
      else none := by
  have hany : (before ++ [mapping]).any (readsPayload path) = before.any (readsPayload path) := by
    rcases hother with hother | hother <;> simp [hother]
  rw [h.known path, hany]
  by_cases hbefore : before.any (readsPayload path) = true
  · rw [firstLoad_concat (hany.trans hbefore)]
  · simp [hbefore]

theorem Readings.After.field (h : r.After settings source world rankings before)
    (hp : mapping.isPayload = false) :
    ({ r with world := (source.traverse mapping.path.segments r.world).2 } : Readings σ).After
      settings source world rankings (before ++ [mapping]) := by
  refine ⟨h.ranked, ?_, fun path => h.known_concat (.inr (by simp [readsPayload, hp]))⟩
  rw [worldAt_concat, if_pos (by simp [looksUp, hp]), h.reached]

theorem Readings.After.fetch (h : r.After settings source world rankings before)
    (hp : mapping.isPayload = true) (hgen : settings.genAi = true) :
    (fetch settings.payloadLimit source mapping.path.segments r).1 =
        firstLoad settings source world rankings before mapping.path ∧
      (fetch settings.payloadLimit source mapping.path.segments r).2.After settings source world
        rankings (before ++ [mapping]) := by
  have hknown := h.known mapping.path
  have hreads (path : FieldPath) (hne : mapping.path ≠ path) :
      readsPayload path mapping = false := by
    simp [readsPayload, hne]
  unfold Extract.fetch
  by_cases hany : before.any (readsPayload mapping.path) = true
  · -- another attribute of the same payload came before
    rw [hgen, hany, Bool.and_self, if_pos rfl] at hknown
    rw [hknown]
    refine ⟨rfl, h.ranked, ?_, ?_⟩
    · rw [worldAt_concat, if_neg (by simp [looksUp, hp, hany])]
      exact h.reached
    · intro path
      refine h.known_concat ?_
      by_cases heq : mapping.path = path
      · exact .inl (heq ▸ hany)
      · exact .inr (hreads path heq)
  · have hany : before.any (readsPayload mapping.path) = false := by simpa using hany
    rw [hany, Bool.and_false, if_neg Bool.false_ne_true] at hknown
    simp only [hknown]
    have hload : firstLoad settings source world rankings before mapping.path =
        ((source.traverse mapping.path.segments r.world).1.bind
          (payloadTree settings.payloadLimit (r.rankings mapping.path.segments))).toOption := by
      rw [h.reached, h.ranked]
      exact firstLoad_due hany
    refine ⟨hload.symm, h.ranked, ?_, ?_⟩
    · rw [worldAt_concat, if_pos (by simp [looksUp, hgen, hany]), h.reached]
    · intro path
      simp only [Entries.get?_append, Entries.get?, segments_injective.eq_iff]
      by_cases heq : mapping.path = path
      · subst heq
        have hnow : (before ++ [mapping]).any (readsPayload mapping.path) = true := by
          simp [readsPayload, hp]
        rw [hknown, hgen, hnow, firstLoad_concat hnow, hload]
        simp
      · rw [if_neg heq, Option.or_none]
        exact h.known_concat (.inr (hreads path heq))

theorem Readings.After.attempt (h : r.After settings source world rankings before)
    {put : Option Put}
    (hput : (attempt settings source mapping r).1 = .ok put) :
    put = givenBy settings source world rankings before mapping ∧
      (attempt settings source mapping r).2.After settings source world rankings
        (before ++ [mapping]) := by
  rcases payload_or_field mapping with ⟨wanted, hd, hp⟩ | hp
  · by_cases hgen : settings.genAi = true
    · obtain ⟨hload, hafter⟩ := h.fetch hp hgen
      simp only [Extract.attempt, hd, hgen, if_true, hload] at hput ⊢
      refine ⟨?_, hafter⟩
      simp only [givenBy, hd, hgen, if_true]
      exact (Except.ok.inj hput).symm
    · simp only [Extract.attempt, hd, hgen, Bool.false_eq_true, if_false] at hput ⊢
      refine ⟨?_, h.ranked, ?_, ?_⟩
      · simp only [givenBy, hd, hgen, Bool.false_eq_true, if_false]
        exact (Except.ok.inj hput).symm
      · rw [worldAt_concat, if_neg (by simp [looksUp, hp, hgen])]
        exact h.reached
      · intro path
        rw [h.known path]
        simp [hgen]
  · rw [attempt_field hp] at hput ⊢
    refine ⟨?_, h.field hp⟩
    have hgiven : givenBy settings source world rankings before mapping =
        (source.traverse mapping.path.segments r.world).1.toOption.bind fun v =>
          (fieldPut mapping v).toOption.join := by
      unfold givenBy
      rw [h.reached]
      cases hd : mapping.decode with
      | body wanted => simp [FieldMapping.isPayload, hd] at hp
      | _ => rfl
    rw [hgiven]
    cases hv : (source.traverse mapping.path.segments r.world).1.toOption with
    | none =>
      rw [hv] at hput
      exact (Except.ok.inj hput).symm
    | some v =>
      rw [hv] at hput
      have hfield : fieldPut mapping v = .ok put := hput
      rw [Option.bind_some, hfield]
      cases put <;> rfl

theorem attempts_given {mappings : List FieldMapping}
    (h : r.After settings source world rankings before)
    (hfault : (attempts settings source mappings r).fault = none) :
    (attempts settings source mappings r).puts =
        allGiven settings source world rankings before mappings ∧
      (attempts settings source mappings r).readings.world =
        worldAt settings source world (before ++ mappings) := by
  induction mappings generalizing before r with
  | nil => exact ⟨rfl, by simpa [attempts] using h.reached⟩
  | cons mapping rest ih =>
    simp only [attempts] at hfault ⊢
    rcases ha : attempt settings source mapping r with ⟨fault | put, later⟩
    · simp [ha] at hfault
    · obtain ⟨hput, hafter⟩ := h.attempt (congrArg Prod.fst ha)
      rw [ha] at hafter
      simp only [ha] at hfault
      obtain ⟨hputs, hworld⟩ := ih hafter hfault
      refine ⟨?_, ?_⟩
      · simp only [allGiven, hputs, hput]
      · simpa using hworld

end

/-- An extraction that no rendering breaks off gives a count. The mappings
that walk are those of `lookers`, and its world is the one that their walks
leave; what it puts is what each mapping is given, then the system's name. A
record that the source keeps has grown by the first segment of each walked
path, in order, and no payload's path has been walked for it twice. -/
theorem extract_lookups [Sink κ] (e : Extractor) (operation : Operation) (phase : Phase)
    (source : Source σ) (world : World σ) (sink : κ) (rankings : Rankings)
    (quiet : ∀ fault, ¬ e.Exposes operation phase source world sink rankings fault) :
    let plan := operation.mappings phase ++ e.registry.mappings operation.category phase
    let walked := lookers e.settings [] plan
    let puts := allGiven e.settings source world rankings [] plan
    let attributes := puts.map (·.2) ++ systemPuts e.settings (puts.any (·.1.isPayload))
    e.extract operation phase source world sink rankings =
        ⟨.ok attributes.length, putAll sink attributes, passage source world walked⟩ ∧
      (∀ record, source.Notes record →
        record (passage source world walked).state =
          record world.state ++ walked.map (·.path.first)) ∧
      ((walked.filter (·.isPayload)).map (·.path)).Nodup := by
  intro plan walked puts attributes
  have hfault : (e.trace operation phase source world rankings).fault = none :=
    e.fault_eq_none quiet
  have hstart : ({ world, rankings } : Readings σ).After e.settings source world rankings [] :=
    ⟨rfl, rfl, fun path => by simp [Entries.get?]⟩
  obtain ⟨hputs, hworld⟩ := attempts_given hstart hfault
  refine ⟨?_, fun record notes => passage_record notes world walked,
    (lookers_payloads e.settings [] plan).1⟩
  have hattributes :
      (e.trace operation phase source world rankings).attributes e.settings = attributes := by
    unfold Trace.attributes Trace.fromPayload Extractor.trace
    rw [hputs]
    rfl
  have hleft : (e.trace operation phase source world rankings).readings.world =
      passage source world walked :=
    hworld
  simp only [Extractor.extract_eq, hfault, hattributes, hleft]

def twoOfOneBody : Mapping.Category where
  name := "service"
  response := [.response "service.reply" "body", .body Payload.inputTokens "body" .response,
    .body Payload.outputTokens "body" .response, .responseCount "service.limit" "limit"]

/-- Every other lookup faults. -/
def faltering : String → Nat → Field.Reading × Nat :=
  fun _ n => (if n % 2 = 0 then .value (.int 3) else .fault ⟨"busy"⟩, n + 1)

theorem extract_lookups_failed_load :
    let outcome := ({ registry := .ofTable [twoOfOneBody], settings := {} } : Extractor).extract
      (.generic "service") .response (.recorded faltering) { state := (0, []) }
      ({} : Attribute.KeyValues)
    outcome.world.state = (3, ["body", "body", "limit"]) ∧
      outcome.sink = ⟨[("service.reply", .text "3"), ("service.limit", .int 3)]⟩ := by
  have hquiet (fault : Field.Fault) :
      ¬ ({ registry := .ofTable [twoOfOneBody], settings := {} } : Extractor).Exposes
        (.generic "service") .response (.recorded faltering) { state := (0, []) }
        ({} : Attribute.KeyValues) .level fault := by
    rw [Extractor.exposes_iff]
    intro h
    exact nomatch h
  obtain ⟨houtcome, hrecord, -⟩ :=
    extract_lookups { registry := .ofTable [twoOfOneBody], settings := {} } (.generic "service")
      .response (.recorded faltering) { state := (0, []) } ({} : Attribute.KeyValues) .level hquiet
  have hnames := hrecord Prod.snd (Source.recorded_notes faltering)
  intro outcome
  refine ⟨?_, (congrArg (·.sink) houtcome).trans rfl⟩
  exact (congrArg (·.world.state) houtcome).trans (Prod.ext rfl hnames)

end Telemetry.Extract
