import Telemetry.Extract.Adapter
import Telemetry.Mapping.Builtin
import Telemetry.Proofs.Extract.Plain

/-!
# Looser settings add attributes and change none

Settings are looser than others if they decode payloads where the others do,
let payloads of at least that length through, and name the same system where
the others name one. Over the same source a mapping gives under the stricter
settings nothing, or what it gives under the looser ones (`plainPut_loosens`).
So an extraction puts a subsequence of what it puts under looser settings,
the same for texts and counts; and it puts just the same if the settings
differ only in a limit that no payload goes beyond (`extract_loosens`). Two
extractions may meet the members of a payload in two orders. Then all this holds
up to the order in which the text of a node lists them.
-/

namespace Telemetry.Extract

open Attribute (Sink)
open Telemetry.Field (Cache Source TypeTable World)
open Mapping (FieldMapping Operation Phase Registry)
open Payload (Ranking)

/-- Whatever these settings let through, looser ones do. A blank name of the
system counts as none. -/
structure Settings.Within (strict loose : Settings) : Prop where
  genAi : strict.genAi = true → loose.genAi = true
  payloadLimit : strict.payloadLimit ≤ loose.payloadLimit
  system : ∀ system, strict.activeSystem = some system → loose.activeSystem = some system

def Trace.fields (trace : Trace σ) : List (FieldMapping × Put) :=
  trace.puts.filter fun put => !put.1.isPayload

/-- The payloads that these mappings lead to have this many bytes at most. -/
def PayloadsWithin (limit : Nat) (source : Source σ) (state : σ)
    (mappings : List FieldMapping) : Prop :=
  ∀ mapping ∈ mappings, mapping.isPayload = true → ∀ v,
    source.value? state mapping.path.segments = some v →
      ∀ bytes, payloadBytes v = .ok bytes → bytes.length ≤ limit

variable {σ κ : Type} {strict loose : Settings}

-- ---------------------------------------------------------------------------
-- One mapping
-- ---------------------------------------------------------------------------

theorem plainTree_eq (limit : Nat) (ranking : Ranking) (v : Field.Value) :
    plainTree limit ranking v = (payloadBytes v).toOption.bind fun bytes =>
      if bytes.length ≤ limit then (Payload.parse bytes ranking).toOption else none := by
  cases v <;> rfl

theorem plainTree_loosens {limit limit' : Nat} (h : limit ≤ limit') (ranking : Ranking)
    (v : Field.Value) :
    plainTree limit ranking v = none ∨ plainTree limit ranking v = plainTree limit' ranking v := by
  rw [plainTree_eq, plainTree_eq]
  cases (payloadBytes v).toOption with
  | none => exact .inl rfl
  | some bytes =>
    simp only [Option.bind_some]
    by_cases hb : bytes.length ≤ limit
    · exact .inr (by rw [if_pos hb, if_pos (hb.trans h)])
    · exact .inl (if_neg hb)

theorem plainTree_within {limit limit' : Nat} (h : limit ≤ limit') (ranking : Ranking)
    {v : Field.Value} (hv : ∀ bytes, payloadBytes v = .ok bytes → bytes.length ≤ limit) :
    plainTree limit ranking v = plainTree limit' ranking v := by
  rw [plainTree_eq, plainTree_eq]
  cases hb : payloadBytes v with
  | error failure => rfl
  | ok bytes =>
    have hbytes := hv bytes hb
    simp only [Except.toOption, Option.bind_some]
    rw [if_pos hbytes, if_pos (hbytes.trans h)]

/-- Neither the settings nor the order of members has a part in a text or a count. -/
theorem plainPut_field {mapping : FieldMapping} (h : mapping.isPayload = false)
    (source : Source σ) (state : σ) (rankings rankings' : Rankings) :
    plainPut strict source state rankings mapping =
      plainPut loose source state rankings' mapping := by
  unfold plainPut
  cases hd : mapping.decode with
  | body wanted => simp [FieldMapping.isPayload, hd] at h
  | _ => rfl

theorem plainPut_loosens (within : strict.Within loose) (source : Source σ) (state : σ)
    (rankings : Rankings) (mapping : FieldMapping) :
    plainPut strict source state rankings mapping = none ∨
      plainPut strict source state rankings mapping =
        plainPut loose source state rankings mapping := by
  rcases payload_or_field mapping with ⟨wanted, hd, -⟩ | hp
  · simp only [plainPut, hd]
    by_cases hgen : strict.genAi = true
    · simp only [hgen, within.genAi hgen, if_true]
      cases source.value? state mapping.path.segments with
      | none => exact .inl rfl
      | some v =>
        rcases plainTree_loosens within.payloadLimit (rankings mapping.path.segments) v with ht | ht
        · exact .inl (by simp [ht])
        · exact .inr (by simp [ht])
    · simp [hgen]
  · exact .inr (plainPut_field hp source state rankings rankings)

theorem plainPut_within (within : strict.Within loose) (hgen : strict.genAi = loose.genAi)
    {source : Source σ} {state : σ} (rankings : Rankings) {mapping : FieldMapping}
    (small : mapping.isPayload = true → ∀ v,
      source.value? state mapping.path.segments = some v →
        ∀ bytes, payloadBytes v = .ok bytes → bytes.length ≤ strict.payloadLimit) :
    plainPut strict source state rankings mapping =
      plainPut loose source state rankings mapping := by
  rcases payload_or_field mapping with ⟨wanted, hd, hp⟩ | hp
  · simp only [plainPut, hd, hgen]
    cases hv : source.value? state mapping.path.segments with
    | none => rfl
    | some v =>
      simp only [Option.bind_some, plainTree_within within.payloadLimit _ (small hp v hv)]
  · exact plainPut_field hp source state rankings rankings

-- ---------------------------------------------------------------------------
-- A run
-- ---------------------------------------------------------------------------

theorem filterMap_sublist {α β : Type} {f g : α → Option β} {l : List α}
    (h : ∀ a ∈ l, f a = none ∨ f a = g a) : (l.filterMap f).Sublist (l.filterMap g) := by
  induction l with
  | nil => exact .slnil
  | cons a rest ih =>
    have hrest := ih fun b hb => h b (List.mem_cons_of_mem _ hb)
    rcases h a List.mem_cons_self with ha | ha
    · rw [List.filterMap_cons_none ha]
      exact hrest.trans ((List.sublist_cons_self a rest).filterMap g)
    · rw [List.filterMap_cons, List.filterMap_cons, ha]
      cases g a with
      | none => exact hrest
      | some b => exact hrest.cons_cons b

theorem systemPuts_loosens (within : strict.Within loose) {fromPayload fromPayload' : Bool}
    (h : fromPayload = true → fromPayload' = true) :
    (systemPuts strict fromPayload).Sublist (systemPuts loose fromPayload') := by
  cases fromPayload with
  | false => exact List.nil_sublist _
  | true =>
    rw [h rfl]
    cases hs : strict.activeSystem with
    | none =>
      simp only [systemPuts, hs]
      exact List.nil_sublist _
    | some system =>
      simp only [systemPuts, hs, within.system system hs]
      exact List.Sublist.refl _

theorem Trace.fromPayload_loosens {first second : Trace σ} (h : first.puts.Sublist second.puts)
    (hfirst : first.fromPayload = true) : second.fromPayload = true := by
  obtain ⟨put, hput, hpayload⟩ := List.any_eq_true.mp hfirst
  exact List.any_eq_true.mpr ⟨put, h.subset hput, hpayload⟩

theorem filter_filterMap_tagged {put : FieldMapping → Option Put} {mappings : List FieldMapping} :
    (mappings.filterMap fun mapping => (put mapping).map (mapping, ·)).filter
        (fun put => !put.1.isPayload) =
      (mappings.filter fun mapping => !mapping.isPayload).filterMap fun mapping =>
        (put mapping).map (mapping, ·) := by
  induction mappings with
  | nil => rfl
  | cons mapping rest ih =>
    cases hput : put mapping <;> cases hp : mapping.isPayload <;> simp [hput, hp, ih]

/-- Over a source that repeats its answers, an extraction under stricter
settings makes a subsequence of the puts that it makes under looser ones, up to the
order of members if its payloads meet two, and those of texts and counts are the
same. All are the same where payloads are decoded or not under both settings, the
system has the same name, and no payload is longer than the smaller limit. -/
theorem extract_loosens [Sink κ] (registry : Registry) (strict loose : Settings)
    (within : strict.Within loose) (operation : Operation) (phase : Phase) (source : Source σ)
    (state : σ) (cache cache' : Cache) (sink : κ) (table : TypeTable)
    (repeatable : source.Repeatable state) (conforms : source.Conforms table state)
    (agrees : cache.Agrees table) (agrees' : cache'.Agrees table)
    (quiet : ∀ mapping ∈ operation.mappings phase ++ registry.mappings operation.category phase,
      mapping.isPayload = false →
        ∀ v, source.value? state mapping.path.segments = some v → v.faults 0 = []) :
    let e : Extractor := { registry, settings := strict }
    let e' : Extractor := { registry, settings := loose }
    let trace := e.trace operation phase source ⟨cache, state⟩
    let trace' := e'.trace operation phase source ⟨cache', state⟩
    let puts (rankings : Rankings) := (trace rankings).attributes strict
    let puts' (rankings : Rankings) := (trace' rankings).attributes loose
    ∀ rankings rankings' : Rankings,
      e.extract operation phase source ⟨cache, state⟩ sink rankings =
          ⟨.ok (puts rankings).length, putAll sink (puts rankings),
            (trace rankings).readings.world⟩ ∧
        e'.extract operation phase source ⟨cache', state⟩ sink rankings' =
          ⟨.ok (puts' rankings').length, putAll sink (puts' rankings'),
            (trace' rankings').readings.world⟩ ∧
        (puts rankings).Sublist (puts' rankings) ∧
        List.Forall₂ Relisted (puts' rankings) (puts' rankings') ∧
        (trace rankings).fields = (trace' rankings').fields ∧
        (strict.genAi = loose.genAi → strict.activeSystem = loose.activeSystem →
          PayloadsWithin strict.payloadLimit source state
            (operation.mappings phase ++ registry.mappings operation.category phase) →
          puts rankings = puts' rankings) := by
  intro e e' trace trace' puts puts' rankings rankings'
  have hplain (rankings : Rankings) : (trace rankings).fault = none ∧ (trace rankings).puts = _ :=
    e.trace_plain operation phase rankings repeatable conforms agrees quiet
  have hplain' (rankings : Rankings) :
      (trace' rankings).fault = none ∧ (trace' rankings).puts = _ :=
    e'.trace_plain operation phase rankings repeatable conforms agrees' quiet
  have hputs (rankings : Rankings) := (hplain rankings).2
  have hputs' (rankings : Rankings) := (hplain' rankings).2
  have hsub : (trace rankings).puts.Sublist (trace' rankings).puts := by
    rw [hputs, hputs']
    refine filterMap_sublist fun mapping _ => ?_
    rcases plainPut_loosens within source state rankings mapping with hput | hput
    · exact .inl (by rw [hput]; rfl)
    · exact .inr (by rw [hput])
  have hrelisted := e'.trace_relisted operation phase source ⟨cache', state⟩ rankings rankings'
  refine ⟨Extractor.extract_unbroken (hplain rankings).1 sink,
    Extractor.extract_unbroken (hplain' rankings').1 sink, ?_, hrelisted.attributes loose, ?_, ?_⟩
  · exact (hsub.map _).append (systemPuts_loosens within (Trace.fromPayload_loosens hsub))
  · simp only [Trace.fields, hputs, hputs', filter_filterMap_tagged]
    refine List.filterMap_congr fun mapping hm => ?_
    have hp : mapping.isPayload = false := by simpa using (List.mem_filter.mp hm).2
    rw [plainPut_field hp source state rankings rankings']
  · intro hgen hsystem small
    have hsame : (trace rankings).puts = (trace' rankings).puts := by
      rw [hputs, hputs']
      refine List.filterMap_congr fun mapping hm => ?_
      rw [plainPut_within within hgen rankings (small mapping hm)]
    have hname (fromPayload : Bool) :
        systemPuts strict fromPayload = systemPuts loose fromPayload := by
      simp only [systemPuts, hsystem]
    simp only [puts, puts', Trace.attributes, Trace.fromPayload, hsame, hname]

/-- A model that is asked for five tokens at most, in a body of sixteen bytes. -/
def askedModel : Source Unit :=
  ModelCall.source ⟨some "m", some ⟨Utf8.ofString "\x7b\"max_tokens\":5\x7d"⟩⟩

theorem extract_loosens_at_limit :
    let asked (settings : Settings) :=
      ({ registry := .ofTable [Mapping.modelInvocation], settings } : Extractor).extract
        Mapping.invokeModel .request askedModel { state := () } ({} : Attribute.KeyValues)
    (asked { payloadLimit := 16 }).sink = (asked {}).sink ∧
      (asked {}).sink = ⟨[(Attribute.Key.requestModel, .text "m"),
        (Attribute.Key.requestMaxTokens, .int 5), (Attribute.Key.system, .text "aws.bedrock")]⟩ := by
  intro asked
  have hplan : ∀ mapping ∈ Mapping.invokeModel.mappings .request ++
      (Mapping.Registry.ofTable [Mapping.modelInvocation]).mappings
        Mapping.invokeModel.category .request,
      ((askedModel.value? () mapping.path.segments).map (·.faults 0)).getD [] = [] ∧
        (((askedModel.value? () mapping.path.segments).bind fun v =>
          (payloadBytes v).toOption).map (·.length)).getD 0 ≤ 16 := by
    decide +kernel
  obtain ⟨hstrict, hloose, -, -, -, hsame⟩ := extract_loosens (.ofTable [Mapping.modelInvocation])
    { payloadLimit := 16 } {} ⟨id, by decide, fun _ h => h⟩ Mapping.invokeModel .request askedModel
    () {} {} ({} : Attribute.KeyValues) (fun _ => []) (fun _ _ => rfl)
    (Source.ofFields_conforms (fun name => by dsimp only; split <;> trivial) ())
    (Field.Cache.agrees_empty _) (Field.Cache.agrees_empty _) (by
      intro mapping hm _ v hv
      simpa [hv] using (hplan mapping hm).1) .level .level
  refine ⟨?_, by decide +kernel⟩
  have hputs := hsame rfl rfl (by
    intro mapping hm _ v hv bytes hb
    simpa [hv, hb, Except.toOption] using (hplan mapping hm).2)
  exact (congrArg Outcome.sink hstrict).trans
    ((congrArg (putAll _) hputs).trans (congrArg Outcome.sink hloose).symm)

theorem extract_loosens_relisted :
    let answered (settings : Settings) (rankings : Rankings) :=
      (({ registry := .builtin, settings } : Extractor).extract Mapping.invokeModel .response
        reasonedAnswer.source { state := () } ({} : Attribute.KeyValues) rankings).sink.entries
    answered { payloadLimit := 64 } .level = reasonedPuts "[\x7b\"b\":1,\"a\":2\x7d]" ∧
      answered {} (fun _ => Payload.aFirst) = reasonedPuts "[\x7b\"a\":2,\"b\":1\x7d]" := by
  decide +kernel

end Telemetry.Extract
