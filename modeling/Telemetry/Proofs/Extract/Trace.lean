import Telemetry.Extract.Session

/-!
# What an extraction puts, mapping by mapping

An extraction writes to a sink as it goes. Here the same run is told without
the sink: `attempt` says what one mapping gives and how it changes what
later mappings read, `attempts` says it for a list of them, each put
together with the mapping that made it. `Extractor.extract_eq` is the link:
for every sink, the extraction performs exactly the puts of its trace, in
order, with the system's name after them.
-/

namespace Telemetry.Extract

open Attribute (Sink)
open Telemetry.Field (Fault Source World)
open Mapping (FieldMapping Operation Phase)
open Payload (Ranking Tree)

abbrev Put := String × Attribute.Value

/-- What mappings read and change: the world, and the payloads loaded so far. How
payloads list their members does not change. -/
structure Readings (σ : Type) where
  world : World σ
  rankings : Rankings
  payloads : List (List String × Option Tree) := []

def fetch (limit : Nat) (source : Source σ) (path : List String) (r : Readings σ) :
    Option Tree × Readings σ :=
  match Entries.get? r.payloads path with
  | some loaded => (loaded, r)
  | none =>
    let result := (source.traverse path r.world).1
    let loaded := (result.bind (payloadTree limit (r.rankings path))).toOption
    (loaded, { r with
      world := (source.traverse path r.world).2
      payloads := r.payloads ++ [(path, loaded)] })

def fieldPut (mapping : FieldMapping) (v : Field.Value) : Except Fault (Option Put) :=
  v.render.map fun text => text.bind fun text =>
    (decodeText mapping.decode v text).toOption.map fun value => (mapping.key, value)

def attempt (settings : Settings) (source : Source σ) (mapping : FieldMapping)
    (r : Readings σ) : Except Fault (Option Put) × Readings σ :=
  match mapping.decode with
  | .body wanted =>
    if settings.genAi then
      let (tree, r) := fetch settings.payloadLimit source mapping.path.segments r
      (.ok ((tree.bind wanted.resolve).map fun resolved => (resolved.key, resolved.value)), r)
    else (.ok none, r)
  | _ =>
    let (result, world) := source.traverse mapping.path.segments r.world
    (match result.toOption with
      | some v => fieldPut mapping v
      | none => .ok none, { r with world })

/-- The puts of a run, each with its mapping, and the fault that ended it, if
one did. -/
structure Trace (σ : Type) where
  puts : List (FieldMapping × Put)
  fault : Option Fault
  readings : Readings σ

def attempts (settings : Settings) (source : Source σ) : List FieldMapping → Readings σ → Trace σ
  | [], r => ⟨[], none, r⟩
  | mapping :: rest, r =>
    match attempt settings source mapping r with
    | (.error fault, r) => ⟨[], some fault, r⟩
    | (.ok put, r) =>
      let later := attempts settings source rest r
      { later with puts := put.toList.map (mapping, ·) ++ later.puts }

def Trace.fromPayload (trace : Trace σ) : Bool :=
  trace.puts.any (·.1.isPayload)

def systemPuts (settings : Settings) (fromPayload : Bool) : List Put :=
  if fromPayload then
    settings.activeSystem.toList.map fun system => (Attribute.Key.system, .text system)
  else []

/-- The attributes of a run that no fault ended. -/
def Trace.attributes (settings : Settings) (trace : Trace σ) : List Put :=
  trace.puts.map (·.2) ++ systemPuts settings trace.fromPayload

def Extractor.trace (e : Extractor) (operation : Operation) (phase : Phase) (source : Source σ)
    (world : World σ) (rankings : Rankings) : Trace σ :=
  attempts e.settings source (e.plan operation phase) { world, rankings }

variable {σ κ : Type}

-- ---------------------------------------------------------------------------
-- Single actions
-- ---------------------------------------------------------------------------

theorem bind_run (x : Action σ κ α) (next : α → Action σ κ β) (s : Session σ κ) :
    (x >>= next) s = match x s with
      | .ok a s => next a s
      | .error fault s => .error fault s := by
  simp only [bind, EStateM.bind]
  cases x s <;> rfl

theorem pure_run (a : α) (s : Session σ κ) : (pure a : Action σ κ α) s = .ok a s := rfl

theorem get_run (s : Session σ κ) : (get : Action σ κ (Session σ κ)) s = .ok s s := rfl

theorem modify_run (f : Session σ κ → Session σ κ) (s : Session σ κ) :
    (modify f : Action σ κ Unit) s = .ok () (f s) := rfl

theorem parse_of_payloadTree {limit : Nat} {ranking : Ranking} {v : Field.Value} {tree : Tree}
    (h : payloadTree limit ranking v = .ok tree) :
    ∃ bytes, Payload.parse bytes ranking = .ok tree := by
  unfold payloadTree at h
  cases hb : payloadBytes v with
  | error failure =>
    rw [hb] at h
    cases h
  | ok bytes =>
    refine ⟨bytes, ?_⟩
    simp only [hb, bind, Except.bind] at h
    split at h
    · cases h
    · cases hp : Payload.parse bytes ranking with
      | error error =>
        rw [hp] at h
        cases h
      | ok t =>
        rw [hp] at h
        cases h
        rfl

def Session.readings (s : Session σ κ) : Readings σ := ⟨s.world, s.rankings, s.payloads⟩

def Session.leave (s : Session σ κ) (r : Readings σ) : Session σ κ :=
  { s with world := r.world, rankings := r.rankings, payloads := r.payloads }

theorem loadPayload_run (limit : Nat) (source : Source σ) (path : List String)
    (s : Session σ κ) :
    loadPayload limit source path s =
      .ok (fetch limit source path s.readings).1
        (s.leave (fetch limit source path s.readings).2) := by
  simp only [loadPayload, fetch, bind_run, get_run, Session.readings]
  cases Entries.get? s.payloads path with
  | some loaded => rfl
  | none => rfl

theorem readField_run (source : Source σ) (mapping : FieldMapping) (s : Session σ κ) :
    readField source mapping s =
      match source.traverse mapping.path.segments s.world with
      | (.error failure, world) => .ok (.error failure) { s with world }
      | (.ok v, world) =>
        match v.render with
        | .error fault => .error fault { s with world }
        | .ok none => .ok (.error (.pathMiss mapping.path.last "empty value")) { s with world }
        | .ok (some text) => .ok (decodeText mapping.decode v text) { s with world } := by
  simp only [readField, bind_run, traverse]
  rcases source.traverse mapping.path.segments s.world with ⟨failure | v, world⟩
  · rfl
  · simp only [renderValue]
    rcases v.render with fault | (_ | text) <;> rfl

theorem payload_or_field (mapping : FieldMapping) :
    (∃ wanted, mapping.decode = .body wanted ∧ mapping.isPayload = true) ∨
      mapping.isPayload = false := by
  unfold FieldMapping.isPayload
  cases mapping.decode with
  | body wanted => exact .inl ⟨wanted, rfl, rfl⟩
  | _ => exact .inr rfl

section
variable [Sink κ]

def Session.take (s : Session σ κ) (mapping : FieldMapping) : Option Put → Session σ κ
  | none => s
  | some put =>
    { s with
      sink := Attribute.put s.sink put.1 put.2
      written := s.written + 1
      fromPayload := s.fromPayload || mapping.isPayload }

theorem attempt_field {mapping : FieldMapping} (h : mapping.isPayload = false)
    (settings : Settings) (source : Source σ) (r : Readings σ) :
    attempt settings source mapping r =
      ((match (source.traverse mapping.path.segments r.world).1.toOption with
        | some v => fieldPut mapping v
        | none => .ok none),
        { r with world := (source.traverse mapping.path.segments r.world).2 }) := by
  unfold attempt
  cases hd : mapping.decode with
  | body wanted => simp [FieldMapping.isPayload, hd] at h
  | _ => rfl

theorem visit_field {mapping : FieldMapping} (h : mapping.isPayload = false)
    (settings : Settings) (source : Source σ) :
    (visit settings source mapping : Action σ κ Unit) =
      (do
        match ← readField source mapping with
        | .error _ => return
        | .ok value => emit mapping.key value) := by
  unfold visit
  cases hd : mapping.decode with
  | body wanted => simp [FieldMapping.isPayload, hd] at h
  | _ => rfl

theorem visit_field_run {mapping : FieldMapping} (h : mapping.isPayload = false)
    (settings : Settings) (source : Source σ) (s : Session σ κ) :
    visit settings source mapping s =
      match attempt settings source mapping s.readings with
      | (.ok put, r) => .ok () ((s.leave r).take mapping put)
      | (.error fault, r) => .error fault (s.leave r) := by
  simp only [visit_field h, attempt_field h, bind_run, readField_run, Session.readings]
  rcases source.traverse mapping.path.segments s.world with ⟨failure | v, world⟩
  · rfl
  · simp only [Except.toOption, fieldPut]
    rcases v.render with fault | (_ | text)
    · rfl
    · rfl
    · simp only [Except.map, Option.bind_some]
      cases decodeText mapping.decode v text with
      | error failure => rfl
      | ok value => simp [emit, modify_run, Session.take, Session.leave, h]

theorem visit_run (settings : Settings) (source : Source σ) (mapping : FieldMapping)
    (s : Session σ κ) :
    visit settings source mapping s =
      match attempt settings source mapping s.readings with
      | (.ok put, r) => .ok () ((s.leave r).take mapping put)
      | (.error fault, r) => .error fault (s.leave r) := by
  rcases payload_or_field mapping with ⟨wanted, hd, hp⟩ | hp
  · simp only [visit, attempt, hd]
    split
    · simp only [bind_run, loadPayload_run]
      rcases fetch settings.payloadLimit source mapping.path.segments s.readings with ⟨_ | tree, r⟩
      · rfl
      · simp only [Option.bind_some]
        cases wanted.resolve tree with
        | none => rfl
        | some resolved => simp [bind_run, emit, modify_run, Session.take, Session.leave, hp]
    · rfl
  · exact visit_field_run hp settings source s

-- ---------------------------------------------------------------------------
-- Runs
-- ---------------------------------------------------------------------------

def putAll (sink : κ) (puts : List Put) : κ :=
  puts.foldl (fun sink put => Attribute.put sink put.1 put.2) sink

theorem putAll_append (sink : κ) (first second : List Put) :
    putAll sink (first ++ second) = putAll (putAll sink first) second := by
  simp [putAll]

def Session.finish (s : Session σ κ) (trace : Trace σ) : Session σ κ where
  world := trace.readings.world
  rankings := trace.readings.rankings
  payloads := trace.readings.payloads
  sink := putAll s.sink (trace.puts.map (·.2))
  written := s.written + trace.puts.length
  fromPayload := s.fromPayload || trace.fromPayload

theorem visitAll_run (settings : Settings) (source : Source σ) (mappings : List FieldMapping)
    (s : Session σ κ) :
    visitAll settings source mappings s =
      match (attempts settings source mappings s.readings).fault with
      | none => .ok () (s.finish (attempts settings source mappings s.readings))
      | some fault => .error fault (s.finish (attempts settings source mappings s.readings)) := by
  induction mappings generalizing s with
  | nil =>
    simp [visitAll, attempts, pure_run, Session.finish, Session.readings, putAll, Trace.fromPayload]
  | cons mapping rest ih =>
    simp only [visitAll, bind_run, visit_run, attempts]
    rcases attempt settings source mapping s.readings with ⟨fault | put, r⟩
    · simp [Session.finish, Session.leave, putAll, Trace.fromPayload]
    · have hr : ((s.leave r).take mapping put).readings = r := by
        cases put <;> rfl
      have hf (later : Trace σ) : ((s.leave r).take mapping put).finish later =
          s.finish { later with puts := put.toList.map (mapping, ·) ++ later.puts } := by
        cases put with
        | none => rfl
        | some put =>
          simp [Session.finish, Session.take, Session.leave, putAll, Trace.fromPayload,
            Bool.or_assoc, Nat.add_comm, Nat.add_left_comm]
      simp only [ih, hr, hf]

theorem nameSystem_run (settings : Settings) (s : Session σ κ) :
    ∃ s', nameSystem settings s = .ok () s' ∧ s'.world = s.world ∧
      s'.sink = putAll s.sink (systemPuts settings s.fromPayload) ∧
      s'.written = s.written + (systemPuts settings s.fromPayload).length := by
  simp only [nameSystem, bind_run, get_run, systemPuts]
  cases s.fromPayload with
  | false => exact ⟨s, rfl, rfl, rfl, rfl⟩
  | true =>
    cases settings.activeSystem with
    | none => exact ⟨s, rfl, rfl, rfl, rfl⟩
    | some system => exact ⟨_, rfl, rfl, rfl, rfl⟩

/-- An extraction makes the puts of its trace and names the system after
them; a fault ends it after the puts before it. -/
theorem Extractor.extract_eq (e : Extractor) (operation : Operation) (phase : Phase)
    (source : Source σ) (world : World σ) (sink : κ) (rankings : Rankings) :
    e.extract operation phase source world sink rankings =
      let trace := e.trace operation phase source world rankings
      match trace.fault with
      | none =>
        { written := .ok (trace.attributes e.settings).length
          sink := putAll sink (trace.attributes e.settings)
          world := trace.readings.world }
      | some fault =>
        { written := .error fault
          sink := putAll sink (trace.puts.map (·.2))
          world := trace.readings.world } := by
  simp only [Extractor.extract, bind_run, visitAll_run, Extractor.trace, Session.readings]
  generalize attempts e.settings source (e.plan operation phase) { world, rankings } = trace
  cases trace.fault with
  | some fault => rfl
  | none =>
    obtain ⟨s, hs, hw, hk, hn⟩ :=
      nameSystem_run e.settings (({ world, sink, rankings } : Session σ κ).finish trace)
    simp only [hs, hw, hk, hn]
    simp [Session.finish, Trace.attributes, putAll_append]

theorem Extractor.extract_unbroken {e : Extractor} {operation : Operation} {phase : Phase}
    {source : Source σ} {world : World σ} {rankings : Rankings}
    (h : (e.trace operation phase source world rankings).fault = none) (sink : κ) :
    let trace := e.trace operation phase source world rankings
    e.extract operation phase source world sink rankings =
      ⟨.ok (trace.attributes e.settings).length, putAll sink (trace.attributes e.settings),
        trace.readings.world⟩ := by
  simp only [Extractor.extract_eq, h]

end

end Telemetry.Extract
