import Telemetry.Proofs.Extract.Containment
import Telemetry.Proofs.Extract.Relisting
import Telemetry.Proofs.Field.Conformity

/-!
# One name's failure stays its own

Two sources that answer alike, but for one top-level name, are read by the
same plan. Whatever the two say to that name, a lookup, a payload and a
cached accessor of it never reach a mapping whose path starts with another:
the puts of the other mappings are the same in both runs, in the same order
(`extract_isolates`). The invariant is `Alike`: both runs have looked up the
same names, know the payloads of the same paths, and agree on the payloads
of the other names. Those may list their members differently in the two runs, and
then so may the texts of their nodes (`extract_isolates_relisted`).
-/

namespace Telemetry.Field

/-- Whatever has been looked up before, the sources give the same answer to
every name but `f`. -/
def Source.AlikeBut (f : String) (source₁ : Source σ₁) (state₁ : σ₁) (source₂ : Source σ₂)
    (state₂ : σ₂) : Prop :=
  ∀ names name, name ≠ f →
    (source₁.answer name (source₁.after names state₁)).1 =
      (source₂.answer name (source₂.after names state₂)).1

end Telemetry.Field

namespace Telemetry.Extract

open Attribute (Sink)
open Telemetry.Field (Source TypeTable World)
open Mapping (FieldMapping FieldPath Operation Phase)

/-- Whatever has been looked up before, rendering the value of a text or a
count among these mappings meets no fault. -/
def Quiet (source : Source σ) (state : σ) (mappings : List FieldMapping) : Prop :=
  ∀ mapping ∈ mappings, mapping.isPayload = false → ∀ names v,
    source.value? (source.after names state) mapping.path.segments = some v → v.faults 0 = []

structure Alike (f : String) (table : TypeTable) (source₁ : Source σ₁) (state₁ : σ₁)
    (source₂ : Source σ₂) (state₂ : σ₂) (r₁ : Readings σ₁) (r₂ : Readings σ₂) : Prop where
  worlds : ∃ names, r₁.world.Follows table source₁ state₁ names ∧
    r₂.world.Follows table source₂ state₂ names
  loaded : ∀ path, Entries.get? r₁.payloads path = none ↔ Entries.get? r₂.payloads path = none
  rankings : ∀ first rest, first ≠ f → r₁.rankings (first :: rest) = r₂.rankings (first :: rest)
  payloads : ∀ first rest, first ≠ f →
    Entries.get? r₁.payloads (first :: rest) = Entries.get? r₂.payloads (first :: rest)

section
variable {f : String} {table : TypeTable} {source₁ : Source σ₁} {state₁ : σ₁}
  {source₂ : Source σ₂} {state₂ : σ₂} {r₁ : Readings σ₁} {r₂ : Readings σ₂}

-- ---------------------------------------------------------------------------
-- One mapping
-- ---------------------------------------------------------------------------

theorem Alike.traverse (h : Alike f table source₁ state₁ source₂ state₂ r₁ r₂)
    (alike : source₁.AlikeBut f state₁ source₂ state₂)
    (conforms₁ : source₁.Conforms table state₁) (conforms₂ : source₂.Conforms table state₂)
    (first : String) (rest : List String) :
    (first ≠ f → (source₁.traverse (first :: rest) r₁.world).1.toOption =
        (source₂.traverse (first :: rest) r₂.world).1.toOption) ∧
      Alike f table source₁ state₁ source₂ state₂
        { r₁ with world := (source₁.traverse (first :: rest) r₁.world).2 }
        { r₂ with world := (source₂.traverse (first :: rest) r₂.world).2 } := by
  obtain ⟨names, hw₁, hw₂⟩ := h.worlds
  obtain ⟨hv₁, hw₁'⟩ := hw₁.traverse conforms₁ first rest
  obtain ⟨hv₂, hw₂'⟩ := hw₂.traverse conforms₂ first rest
  refine ⟨?_, ⟨⟨names ++ [first], hw₁', hw₂'⟩, h.loaded, h.rankings, h.payloads⟩⟩
  intro hf
  rw [hv₁, hv₂]
  simp only [Source.value?, alike names first hf]

theorem Alike.fetch (h : Alike f table source₁ state₁ source₂ state₂ r₁ r₂)
    (alike : source₁.AlikeBut f state₁ source₂ state₂)
    (conforms₁ : source₁.Conforms table state₁) (conforms₂ : source₂.Conforms table state₂)
    (limit : Nat) (first : String) (rest : List String) :
    (first ≠ f → (fetch limit source₁ (first :: rest) r₁).1 =
        (fetch limit source₂ (first :: rest) r₂).1) ∧
      Alike f table source₁ state₁ source₂ state₂ (fetch limit source₁ (first :: rest) r₁).2
        (fetch limit source₂ (first :: rest) r₂).2 := by
  unfold Extract.fetch
  cases hp₁ : Entries.get? r₁.payloads (first :: rest) with
  | some loaded₁ =>
    cases hp₂ : Entries.get? r₂.payloads (first :: rest) with
    | none => simp [(h.loaded _).mpr hp₂] at hp₁
    | some loaded₂ =>
      refine ⟨?_, h⟩
      intro hf
      have heq := h.payloads first rest hf
      rw [hp₁, hp₂] at heq
      exact Option.some.inj heq
  | none =>
    simp only [(h.loaded _).mp hp₁]
    obtain ⟨hv, hw⟩ := h.traverse alike conforms₁ conforms₂ first rest
    have hloaded (hf : first ≠ f) :
        ((source₁.traverse (first :: rest) r₁.world).1.bind
            (payloadTree limit (r₁.rankings (first :: rest)))).toOption =
          ((source₂.traverse (first :: rest) r₂.world).1.bind
            (payloadTree limit (r₂.rankings (first :: rest)))).toOption := by
      rw [bind_toOption, bind_toOption, hv hf, h.rankings first rest hf]
    refine ⟨hloaded, ⟨hw.worlds, ?_, h.rankings, ?_⟩⟩
    · intro path
      simp only [Entries.get?_append, Option.or_eq_none_iff, h.loaded path]
      simp only [Entries.get?]
      split <;> simp
    · intro first' rest' hf
      simp only [Entries.get?_append, h.payloads first' rest' hf]
      simp only [Entries.get?]
      split
      · rename_i hpath
        cases hpath
        rw [hloaded hf]
      · rfl

theorem attempt_quiet {settings : Settings} {source : Source σ} {mapping : FieldMapping}
    {r : Readings σ} (quiet : mapping.isPayload = false → ∀ v,
      (source.traverse mapping.path.segments r.world).1.toOption = some v → v.faults 0 = []) :
    ∃ put, (attempt settings source mapping r).1 = .ok put := by
  cases ha : (attempt settings source mapping r).1 with
  | ok put => exact ⟨put, rfl⟩
  | error fault =>
    obtain ⟨hp, v, hv, hf⟩ := (attempt_error_iff settings source mapping r fault).mp ha
    rw [quiet hp v (by rw [hv]; rfl)] at hf
    cases hf

/-- A mapping that starts with another name than `f` gives the same in both
runs, and every mapping leaves them alike. -/
theorem Alike.attempt (h : Alike f table source₁ state₁ source₂ state₂ r₁ r₂)
    (alike : source₁.AlikeBut f state₁ source₂ state₂)
    (conforms₁ : source₁.Conforms table state₁) (conforms₂ : source₂.Conforms table state₂)
    (settings : Settings) (mapping : FieldMapping) :
    (mapping.path.first ≠ f → (attempt settings source₁ mapping r₁).1 =
        (attempt settings source₂ mapping r₂).1) ∧
      Alike f table source₁ state₁ source₂ state₂ (attempt settings source₁ mapping r₁).2
        (attempt settings source₂ mapping r₂).2 := by
  rcases payload_or_field mapping with ⟨wanted, hd, -⟩ | hp
  · simp only [Extract.attempt, hd]
    split
    · obtain ⟨hv, hr⟩ := h.fetch alike conforms₁ conforms₂ settings.payloadLimit
        mapping.path.first mapping.path.rest
      refine ⟨?_, hr⟩
      intro hf
      simp only [FieldPath.segments, hv hf]
    · exact ⟨fun _ => rfl, h⟩
  · obtain ⟨hv, hr⟩ := h.traverse alike conforms₁ conforms₂ mapping.path.first mapping.path.rest
    rw [attempt_field hp, attempt_field hp]
    refine ⟨?_, hr⟩
    intro hf
    simp only [FieldPath.segments, hv hf]

-- ---------------------------------------------------------------------------
-- A run
-- ---------------------------------------------------------------------------

def Trace.others (f : String) (trace : Trace σ) : List (FieldMapping × Put) :=
  trace.puts.filter (·.1.path.first != f)

theorem Quiet.attempt {source : Source σ} {state : σ} {mappings : List FieldMapping}
    (quiet : Quiet source state mappings) (settings : Settings)
    (conforms : source.Conforms table state) {names : List String} {r : Readings σ}
    (hw : r.world.Follows table source state names) {mapping : FieldMapping}
    (hm : mapping ∈ mappings) :
    ∃ put, (attempt settings source mapping r).1 = .ok put := by
  refine attempt_quiet ?_
  intro hp v hv
  obtain ⟨hwalk, -⟩ := hw.traverse conforms mapping.path.first mapping.path.rest
  exact quiet mapping hm hp names v (hwalk.symm.trans hv)

theorem attempts_alike (h : Alike f table source₁ state₁ source₂ state₂ r₁ r₂)
    (alike : source₁.AlikeBut f state₁ source₂ state₂)
    (conforms₁ : source₁.Conforms table state₁) (conforms₂ : source₂.Conforms table state₂)
    (settings : Settings) {mappings : List FieldMapping}
    (quiet₁ : Quiet source₁ state₁ mappings) (quiet₂ : Quiet source₂ state₂ mappings) :
    (attempts settings source₁ mappings r₁).fault = none ∧
      (attempts settings source₂ mappings r₂).fault = none ∧
      (attempts settings source₁ mappings r₁).others f =
        (attempts settings source₂ mappings r₂).others f := by
  induction mappings generalizing r₁ r₂ with
  | nil => exact ⟨rfl, rfl, rfl⟩
  | cons mapping rest ih =>
    obtain ⟨names, hw₁, hw₂⟩ := h.worlds
    obtain ⟨put₁, hput₁⟩ := quiet₁.attempt settings conforms₁ hw₁ (List.mem_cons_self ..)
    obtain ⟨put₂, hput₂⟩ := quiet₂.attempt settings conforms₂ hw₂ (List.mem_cons_self ..)
    obtain ⟨hsame, hr⟩ := h.attempt alike conforms₁ conforms₂ settings mapping
    obtain ⟨hf₁, hf₂, hothers⟩ := ih hr
      (fun later hm => quiet₁ later (List.mem_cons_of_mem _ hm))
      (fun later hm => quiet₂ later (List.mem_cons_of_mem _ hm))
    simp only [attempts]
    rcases ha₁ : attempt settings source₁ mapping r₁ with ⟨result₁, r₁'⟩
    rcases ha₂ : attempt settings source₂ mapping r₂ with ⟨result₂, r₂'⟩
    rw [ha₁] at hput₁ hsame hf₁ hothers
    rw [ha₂] at hput₂ hsame hf₂ hothers
    subst hput₁ hput₂
    refine ⟨hf₁, hf₂, ?_⟩
    simp only [Trace.others, List.filter_append] at hothers ⊢
    rw [hothers]
    by_cases hf : mapping.path.first = f
    · -- what either run puts for this mapping is left out
      cases put₁ <;> cases put₂ <;> simp [hf]
    · cases hsame hf
      rfl

end

theorem Trace.Relisted.others {trace trace' : Trace σ} (h : trace.Relisted trace') (f : String) :
    List.Forall₂ RelistedBy (trace.others f) (trace'.others f) :=
  List.rel_filter (fun _ _ hput => by simp only [hput.mapping]) h.puts

theorem fromPayload_of_others {trace : Trace σ} (h : ∃ put ∈ trace.others f, put.1.isPayload) :
    trace.fromPayload = true := by
  obtain ⟨put, hm, hp⟩ := h
  exact List.any_eq_true.mpr ⟨put, (List.mem_filter.mp hm).1, hp⟩

/-- Two extractions from sources that answer alike, but for `f`, put the same
for all mappings that start with other names, if they meet the members of their
payloads in the same order, and if not, the same but for this order. They name the
system alike too if one of those mappings reads a payload and puts something. -/
theorem extract_isolates [Sink κ] (e : Extractor) (operation : Operation) (phase : Phase)
    (f : String) (source₁ : Source σ₁) (source₂ : Source σ₂) (world₁ : World σ₁)
    (world₂ : World σ₂) (sink : κ) (rankings₁ rankings₂ : Rankings) (table : TypeTable)
    (alike : source₁.AlikeBut f world₁.state source₂ world₂.state)
    (conforms₁ : source₁.Conforms table world₁.state)
    (conforms₂ : source₂.Conforms table world₂.state)
    (agrees₁ : world₁.cache.Agrees table) (agrees₂ : world₂.cache.Agrees table)
    (quiet₁ : Quiet source₁ world₁.state (e.plan operation phase))
    (quiet₂ : Quiet source₂ world₂.state (e.plan operation phase)) :
    let trace₁ := e.trace operation phase source₁ world₁ rankings₁
    let trace₂ := e.trace operation phase source₂ world₂ rankings₂
    e.extract operation phase source₁ world₁ sink rankings₁ =
        ⟨.ok (trace₁.attributes e.settings).length, putAll sink (trace₁.attributes e.settings),
          trace₁.readings.world⟩ ∧
      e.extract operation phase source₂ world₂ sink rankings₂ =
        ⟨.ok (trace₂.attributes e.settings).length, putAll sink (trace₂.attributes e.settings),
          trace₂.readings.world⟩ ∧
      ((∀ first rest, first ≠ f → rankings₁ (first :: rest) = rankings₂ (first :: rest)) →
        trace₁.others f = trace₂.others f) ∧
      List.Forall₂ RelistedBy (trace₁.others f) (trace₂.others f) ∧
      ((∃ put ∈ trace₁.others f, put.1.isPayload) →
        systemPuts e.settings trace₁.fromPayload = systemPuts e.settings trace₂.fromPayload) := by
  intro trace₁ trace₂
  have hrun (rankings : Rankings)
      (same : ∀ first rest, first ≠ f → rankings₁ (first :: rest) = rankings (first :: rest)) :=
    have hstart : Alike f table source₁ world₁.state source₂ world₂.state
        { world := world₁, rankings := rankings₁ } { world := world₂, rankings } :=
      ⟨⟨[], World.follows_nil source₁ agrees₁, World.follows_nil source₂ agrees₂⟩,
        fun _ => Iff.rfl, same, fun _ _ _ => rfl⟩
    attempts_alike hstart alike conforms₁ conforms₂ e.settings quiet₁ quiet₂
  obtain ⟨hnone₁, hnone, hothers⟩ := hrun rankings₁ fun _ _ _ => rfl
  -- The second source under the first order stands between the two runs.
  have hrelisted := e.trace_relisted operation phase source₂ world₂ rankings₁ rankings₂
  have hnone₂ : trace₂.fault = none := hrelisted.fault.trans hnone
  have hlisted : List.Forall₂ RelistedBy (trace₁.others f) (trace₂.others f) := by
    have h := hrelisted.others f
    rwa [show trace₁.others f = _ from hothers]
  refine ⟨e.extract_unbroken hnone₁ sink, e.extract_unbroken hnone₂ sink,
    fun same => (hrun rankings₂ same).2.2, hlisted, ?_⟩
  intro hpayload
  have hfirst : trace₁.fromPayload = true := fromPayload_of_others hpayload
  rw [show trace₁.others f = _ from hothers] at hpayload
  have hsecond : trace₂.fromPayload = true :=
    hrelisted.fromPayload.trans (fromPayload_of_others hpayload)
  rw [hfirst, hsecond]

def itemRequest (consistent : Field.Reading) : Source Unit :=
  .ofFields fun name =>
    if name = "ConsistentRead" then consistent
    else if name = "TableName" then .value (.text "t")
    else .absent

theorem itemRequest_conforms {consistent : Field.Reading} (h : consistent.Conforms table) :
    (itemRequest consistent).Conforms table () := by
  refine Source.ofFields_conforms (fun name => ?_) ()
  split
  · exact h
  · split <;> trivial

theorem itemRequest_quiet {consistent : Field.Reading} {mappings : List FieldMapping}
    (h : ∀ mapping ∈ mappings,
      (((itemRequest consistent).value? () mapping.path.segments).map (·.faults 0)).getD [] = []) :
    Quiet (itemRequest consistent) () mappings := by
  intro mapping hm _ names v hv
  simpa [show (itemRequest consistent).value? () mapping.path.segments = some v from hv]
    using h mapping hm

theorem extract_isolates_lookup_fault :
    (({ registry := .ofTable [Mapping.keyValueStore], settings := {} } : Extractor).trace
      Mapping.getItem .request (itemRequest (.fault ⟨"boom"⟩)) { state := () } .level).others
        "ConsistentRead" =
      [(.request Attribute.Key.tableNames "TableName",
        (Attribute.Key.tableNames, .text "t"))] := by
  refine (extract_isolates _ _ _ "ConsistentRead" (itemRequest (.value (.bool true)))
    (itemRequest (.fault ⟨"boom"⟩)) { state := () } { state := () } ({} : Attribute.KeyValues)
    .level .level (fun _ => []) ?_ (itemRequest_conforms trivial) (itemRequest_conforms trivial)
    (Field.Cache.agrees_empty _) (Field.Cache.agrees_empty _) (itemRequest_quiet (by decide))
    (itemRequest_quiet (by decide))).2.2.1 (fun _ _ _ => rfl) |>.symm.trans rfl
  intro names name hf
  simp [itemRequest, Source.answer, Source.ofFields, hf]

theorem extract_isolates_relisted :
    let e : Extractor := { registry := .builtin, settings := {} }
    let others (call : ModelCall) (rankings : Rankings) :=
      ((e.trace Mapping.invokeModel .response call.source { state := () } rankings).others
        "modelId").map (·.2)
    others reasonedAnswer .level =
        [(Attribute.Key.finishReasons, .text "[\x7b\"b\":1,\"a\":2\x7d]")] ∧
      others { reasonedAnswer with modelId := some "m" } (fun _ => Payload.aFirst) =
        [(Attribute.Key.finishReasons, .text "[\x7b\"a\":2,\"b\":1\x7d]")] := by
  decide +kernel

end Telemetry.Extract
