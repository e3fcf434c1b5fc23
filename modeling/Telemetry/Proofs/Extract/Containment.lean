import Telemetry.Mapping.Builtin
import Telemetry.Proofs.Extract.Trace
import Telemetry.Proofs.Field.Faults

/-!
# Which faults end an extraction

A lookup that faults and a getter that faults on a path count as absent:
what they hide is not put, and everything else is. Rendering is the
exception, for it calls the getters of an object bare. An extraction ends
early exactly at the first text or count whose value holds a faulting getter
where its rendering calls it. Where there is none, the outcome is that of
the source with every fault masked (`extract_contains_faults`).
-/

namespace Telemetry.Extract

open Attribute (Sink)
open Telemetry.Field (Fault Source World fault?)
open Mapping (FieldMapping Operation Phase)

variable {σ κ : Type}

-- ---------------------------------------------------------------------------
-- One mapping
-- ---------------------------------------------------------------------------

theorem fault?_fieldPut (mapping : FieldMapping) (v : Field.Value) :
    fault? (fieldPut mapping v) = (v.faults 0).head? := by
  rw [← v.fault?_render, fieldPut]
  cases v.render <;> rfl

theorem fieldPut_mask {mapping : FieldMapping} {v : Field.Value} (h : v.faults 0 = []) :
    fieldPut mapping v.mask = fieldPut mapping v := by
  have hd (text : String) : (decodeText mapping.decode v.mask text).toOption =
      (decodeText mapping.decode v text).toOption := by
    simp only [decodeText, v.kind_mask]
  simp only [fieldPut, v.render_mask h, hd]

theorem payloadTree_mask (limit : Nat) (ranking : Payload.Ranking) (v : Field.Value) :
    payloadTree limit ranking v.mask = payloadTree limit ranking v := by
  cases v <;> rfl

theorem bind_toOption (x : Except Failure α) (next : α → Except Failure β) :
    (x.bind next).toOption = x.toOption.bind fun a => (next a).toOption := by
  cases x <;> rfl

theorem fetch_mask (limit : Nat) (source : Source σ) (path : List String) (r : Readings σ) :
    fetch limit source.mask path r = fetch limit source path r := by
  obtain ⟨hv, hw⟩ := source.traverse_mask path r.world
  have hload (ranking : Payload.Ranking) :
      ((source.mask.traverse path r.world).1.bind (payloadTree limit ranking)).toOption =
        ((source.traverse path r.world).1.bind (payloadTree limit ranking)).toOption := by
    rw [bind_toOption, bind_toOption, hv, Option.bind_map]
    simp only [Function.comp_def, payloadTree_mask]
  simp only [fetch, hload, hw]

/-- A mapping faults exactly if it reads no payload and its value holds a
faulting getter where a rendering calls it. -/
theorem attempt_error_iff (settings : Settings) (source : Source σ) (mapping : FieldMapping)
    (r : Readings σ) (fault : Fault) :
    (attempt settings source mapping r).1 = .error fault ↔
      mapping.isPayload = false ∧
        ∃ v, (source.traverse mapping.path.segments r.world).1 = .ok v ∧
          (v.faults 0).head? = some fault := by
  rcases payload_or_field mapping with ⟨wanted, hd, hp⟩ | hp
  · simp only [attempt, hd, hp]
    split <;> simp
  · rw [attempt_field hp, hp]
    cases (source.traverse mapping.path.segments r.world).1 with
    | error failure => simp [Except.toOption]
    | ok v =>
      simp only [Except.toOption, true_and, Except.ok.injEq, exists_eq_left',
        ← fault?_fieldPut mapping v]
      cases fieldPut mapping v <;> simp

theorem attempt_mask {settings : Settings} {source : Source σ} {mapping : FieldMapping}
    {r : Readings σ} {put : Option Put} (h : (attempt settings source mapping r).1 = .ok put) :
    attempt settings source.mask mapping r = attempt settings source mapping r := by
  rcases payload_or_field mapping with ⟨wanted, hd, -⟩ | hp
  · simp only [attempt, hd, fetch_mask]
  · obtain ⟨hv, hw⟩ := source.traverse_mask mapping.path.segments r.world
    rw [attempt_field hp] at h
    rw [attempt_field hp, attempt_field hp, hv, hw]
    cases hr : (source.traverse mapping.path.segments r.world).1 with
    | error failure => rfl
    | ok v =>
      simp only [hr, Except.toOption] at h
      have hf : v.faults 0 = [] := by
        rw [← List.head?_eq_none_iff, ← fault?_fieldPut mapping v, h]
        rfl
      simp only [Except.toOption, Option.map_some, fieldPut_mask hf]

theorem attempt_mask_ok (settings : Settings) (source : Source σ) (mapping : FieldMapping)
    (r : Readings σ) : ∃ put, (attempt settings source.mask mapping r).1 = .ok put := by
  cases ha : (attempt settings source.mask mapping r).1 with
  | ok put => exact ⟨put, rfl⟩
  | error fault =>
    obtain ⟨-, v, hv, hf⟩ := (attempt_error_iff settings source.mask mapping r fault).mp ha
    obtain ⟨hm, -⟩ := source.traverse_mask mapping.path.segments r.world
    rw [hv] at hm
    obtain ⟨w, -, rfl⟩ := Option.map_eq_some_iff.mp hm.symm
    simp [w.faults_mask 0] at hf

-- ---------------------------------------------------------------------------
-- A run
-- ---------------------------------------------------------------------------

theorem attempts_mask {settings : Settings} {source : Source σ} {mappings : List FieldMapping}
    {r : Readings σ} (h : (attempts settings source mappings r).fault = none) :
    attempts settings source.mask mappings r = attempts settings source mappings r := by
  induction mappings generalizing r with
  | nil => rfl
  | cons mapping rest ih =>
    simp only [attempts] at h ⊢
    rcases ha : attempt settings source mapping r with ⟨fault | put, r'⟩
    · simp [ha] at h
    · have hm := attempt_mask (h := congrArg Prod.fst ha)
      simp only [ha] at h hm
      simp only [hm, ih h]

theorem attempts_mask_fault (settings : Settings) (source : Source σ)
    (mappings : List FieldMapping) (r : Readings σ) :
    (attempts settings source.mask mappings r).fault = none := by
  induction mappings generalizing r with
  | nil => rfl
  | cons mapping rest ih =>
    obtain ⟨put, hp⟩ := attempt_mask_ok settings source mapping r
    rcases ha : attempt settings source.mask mapping r with ⟨result, r'⟩
    rw [ha] at hp
    subst hp
    simp only [attempts, ha, ih]

/-- A run ends early exactly at a mapping that faults after all before it
did not. -/
theorem attempts_fault_iff (settings : Settings) (source : Source σ)
    (mappings : List FieldMapping) (r : Readings σ) (fault : Fault) :
    (attempts settings source mappings r).fault = some fault ↔
      ∃ before mapping after, mappings = before ++ mapping :: after ∧
        (attempts settings source before r).fault = none ∧
        (attempt settings source mapping (attempts settings source before r).readings).1 =
          .error fault := by
  induction mappings generalizing r with
  | nil => simp [attempts]
  | cons mapping rest ih =>
    simp only [attempts]
    rcases ha : attempt settings source mapping r with ⟨other | put, r'⟩
    · constructor
      · intro h
        exact ⟨[], mapping, rest, rfl, rfl, by simpa [attempts, ha] using h⟩
      · rintro ⟨before, later, after, hs, hb, hl⟩
        cases before with
        | nil =>
          obtain ⟨rfl, rfl⟩ := List.cons.inj hs
          simpa [attempts, ha] using hl
        | cons head before =>
          obtain ⟨rfl, -⟩ := List.cons.inj hs
          simp [attempts, ha] at hb
    · simp only [ih r']
      constructor
      · rintro ⟨before, later, after, rfl, hb, hl⟩
        exact ⟨mapping :: before, later, after, rfl, by simpa [attempts, ha] using hb,
          by simpa [attempts, ha] using hl⟩
      · rintro ⟨before, later, after, hs, hb, hl⟩
        cases before with
        | nil =>
          obtain ⟨rfl, rfl⟩ := List.cons.inj hs
          simp [attempts, ha] at hl
        | cons head before =>
          obtain ⟨rfl, rfl⟩ := List.cons.inj hs
          exact ⟨before, later, after, rfl, by simpa [attempts, ha] using hb,
            by simpa [attempts, ha] using hl⟩

-- ---------------------------------------------------------------------------
-- An extraction
-- ---------------------------------------------------------------------------

section
variable [Sink κ]

/-- When the mappings before it are done, some text or count of the plan
leads to a value that holds a faulting getter where a rendering calls it;
`fault` is the first such fault in the value. -/
def Extractor.Exposes (e : Extractor) (operation : Operation) (phase : Phase)
    (source : Source σ) (world : World σ) (sink : κ) (rankings : Rankings) (fault : Fault) :
    Prop :=
  ∃ before mapping after s v,
    e.plan operation phase = before ++ mapping :: after ∧ mapping.isPayload = false ∧
      visitAll e.settings source before { world, sink, rankings } = .ok () s ∧
      (source.traverse mapping.path.segments s.world).1 = .ok v ∧
      (v.faults 0).head? = some fault

variable (e : Extractor) (operation : Operation) (phase : Phase) (source : Source σ)
  (world : World σ) (sink : κ) (rankings : Rankings)

theorem Extractor.exposes_iff (fault : Fault) :
    e.Exposes operation phase source world sink rankings fault ↔
      (e.trace operation phase source world rankings).fault = some fault := by
  simp only [Extractor.trace, attempts_fault_iff, attempt_error_iff]
  constructor
  · rintro ⟨before, mapping, after, s, v, hplan, hp, hrun, hv, hf⟩
    rw [visitAll_run] at hrun
    simp only [Session.readings] at hrun
    split at hrun
    · rename_i hnone
      cases hrun
      exact ⟨before, mapping, after, hplan, hnone, hp, v, hv, hf⟩
    · cases hrun
  · rintro ⟨before, mapping, after, hplan, hnone, hp, v, hv, hf⟩
    refine ⟨before, mapping, after, ({ world, sink, rankings } : Session σ κ).finish _, v, hplan,
      hp, ?_, hv, hf⟩
    rw [visitAll_run]
    simp only [Session.readings, hnone]

variable {e operation phase source world sink rankings} in
theorem Extractor.fault_eq_none
    (quiet : ∀ fault, ¬ e.Exposes operation phase source world sink rankings fault) :
    (e.trace operation phase source world rankings).fault = none := by
  refine Option.eq_none_iff_forall_not_mem.mpr ?_
  intro fault hf
  exact quiet fault ((e.exposes_iff operation phase source world sink rankings fault).mpr hf)

theorem Extractor.extract_error_iff (fault : Fault) :
    (e.extract operation phase source world sink rankings).written = .error fault ↔
      (e.trace operation phase source world rankings).fault = some fault := by
  cases hf : (e.trace operation phase source world rankings).fault <;>
    simp [Extractor.extract_eq, hf]

/-- Faults are contained but for those that a rendering meets: with masked
faults an extraction always gives a count, it ends with a fault exactly if a
rendering meets that one, and if none does, it leaves what it leaves with
all faults masked. -/
theorem extract_contains_faults :
    (∃ n, (e.extract operation phase source.mask world sink rankings).written = .ok n) ∧
      (∀ fault, (e.extract operation phase source world sink rankings).written = .error fault ↔
        e.Exposes operation phase source world sink rankings fault) ∧
      ((∀ fault, ¬ e.Exposes operation phase source world sink rankings fault) ↔
        e.extract operation phase source world sink rankings =
          e.extract operation phase source.mask world sink rankings) := by
  have hmask : (e.trace operation phase source.mask world rankings).fault = none :=
    attempts_mask_fault e.settings source _ _
  refine ⟨?_, ?_, ?_⟩
  · simp [Extractor.extract_eq, hmask]
  · intro fault
    rw [e.extract_error_iff, e.exposes_iff]
  · simp only [e.exposes_iff]
    constructor
    · intro h
      have hnone : (e.trace operation phase source world rankings).fault = none :=
        Option.eq_none_iff_forall_not_mem.mpr h
      have heq : e.trace operation phase source.mask world rankings =
          e.trace operation phase source world rankings :=
        attempts_mask hnone
      simp only [Extractor.extract_eq, heq]
    · intro h fault hf
      have herror := (e.extract_error_iff operation phase source world sink rankings fault).mpr hf
      rw [h, e.extract_error_iff, hmask] at herror
      cases herror

end

/-- A faulting getter in a rendered object leaves no count, and the table's
name, which comes after it, is not put. -/
theorem extract_broken_off_by_getter :
    ¬ ∃ n, (({ registry := .ofTable [Mapping.keyValueStore], settings := {} } : Extractor).extract
      Mapping.getItem .request
      (.ofFields fun name =>
        if name = "ConsistentRead" then
          .value (.object (.mk 0 "Obj" [.mk "bad" (.fault ⟨"boom"⟩)]))
        else if name = "TableName" then .value (.text "t")
        else .absent)
      { state := () } ({} : Attribute.KeyValues)).written = .ok n := by
  rintro ⟨n, h⟩
  exact nomatch h

end Telemetry.Extract
