import Telemetry.Extract.Adapter
import Telemetry.Mapping.Builtin
import Telemetry.Proofs.Extract.Trace
import Telemetry.Proofs.Payload.Candidates
import Telemetry.Proofs.Payload.Denotation

/-!
# Extractions that meet another order of members

The order in which the payloads of an extraction list their members is nobody's
choice. Whatever it is, the same mappings put something, under the same keys and
after the same lookups (`Extractor.trace_relisted`). A value is the same too unless it
is the text of a node that has a map of several members.
-/

namespace Telemetry.Extract

open Telemetry.Field (Source World)
open Mapping (FieldMapping Operation Phase)
open Payload (BodyAttribute Ranking Tree)

/-- The same put, or one of a text that lists the same members in another order. -/
structure Relisted (put put' : Put) : Prop where
  key : put'.1 = put.1
  value : Payload.Relisted put.2 put'.2

theorem Relisted.refl (put : Put) : Relisted put put :=
  ⟨rfl, .same _⟩

structure RelistedBy (put put' : FieldMapping × Put) : Prop where
  mapping : put'.1 = put.1
  put : Relisted put.2 put'.2

/-- Both are what one body is loaded as, in two orders. -/
def SameBody (loaded loaded' : Option Tree) : Prop :=
  ∃ (body : Option Tree) (ranking ranking' : Ranking), (∀ tree ∈ body, tree.All Tree.KeysDiffer) ∧
    loaded = body.map (·.arrange ranking) ∧ loaded' = body.map (·.arrange ranking')

structure Readings.Relisted (r r' : Readings σ) : Prop where
  world : r'.world = r.world
  payloads : ∀ path,
    Option.Rel SameBody (Entries.get? r.payloads path) (Entries.get? r'.payloads path)

structure Trace.Relisted (trace trace' : Trace σ) : Prop where
  puts : List.Forall₂ RelistedBy trace.puts trace'.puts
  fault : trace'.fault = trace.fault
  readings : trace.readings.Relisted trace'.readings

-- ---------------------------------------------------------------------------
-- One mapping
-- ---------------------------------------------------------------------------

theorem optionRel_map {R : α → β → Prop} {S : γ → δ → Prop} {f : α → γ} {g : β → δ}
    {a? : Option α} {b? : Option β} (h : Option.Rel R a? b?)
    (step : ∀ a b, R a b → S (f a) (g b)) : Option.Rel S (a?.map f) (b?.map g) := by
  cases h with
  | none => exact .none
  | some h => exact .some (step _ _ h)

theorem relisted?_refl (put : Option Put) : Option.Rel Relisted put put := by
  cases put with
  | none => exact .none
  | some put => exact .some (.refl put)

theorem payloadTree_eq (limit : Nat) (ranking : Ranking) (v : Field.Value) :
    payloadTree limit ranking v = (payloadTree limit .level v).map (·.arrange ranking) := by
  unfold payloadTree
  cases payloadBytes v with
  | error failure => rfl
  | ok bytes =>
    simp only [bind, Except.bind]
    split
    · rfl
    · rw [Payload.parse_eq]
      cases Payload.parse bytes <;> rfl

theorem sameBody_loaded (limit : Nat) (result : Except Failure Field.Value)
    (ranking ranking' : Ranking) :
    SameBody (result.bind (payloadTree limit ranking)).toOption
      (result.bind (payloadTree limit ranking')).toOption := by
  cases result with
  | error failure => exact ⟨none, ranking, ranking', by simp, rfl, rfl⟩
  | ok v =>
    simp only [Except.bind, payloadTree_eq limit ranking v, payloadTree_eq limit ranking' v]
    cases hbody : payloadTree limit .level v with
    | error failure => exact ⟨none, ranking, ranking', by simp, rfl, rfl⟩
    | ok tree =>
      obtain ⟨bytes, hbytes⟩ := parse_of_payloadTree hbody
      refine ⟨some tree, ranking, ranking', ?_, rfl, rfl⟩
      simpa using Payload.parse_keysDiffer hbytes

theorem SameBody.resolve {loaded loaded' : Option Tree} (h : SameBody loaded loaded')
    (wanted : BodyAttribute) :
    Option.Rel Payload.Resolved.Relisted (loaded.bind wanted.resolve)
      (loaded'.bind wanted.resolve) := by
  obtain ⟨body, ranking, ranking', keys, rfl, rfl⟩ := h
  cases body with
  | none => exact .none
  | some tree => exact BodyAttribute.resolve_relisted (keys tree rfl) wanted ranking ranking'

section
variable {r r' : Readings σ}

theorem Readings.Relisted.fetch (h : r.Relisted r') (limit : Nat) (source : Source σ)
    (path : List String) :
    SameBody (fetch limit source path r).1 (fetch limit source path r').1 ∧
      (fetch limit source path r).2.Relisted (fetch limit source path r').2 := by
  have hpath := h.payloads path
  unfold Extract.fetch
  generalize hloaded : Entries.get? r.payloads path = loaded? at hpath ⊢
  generalize hloaded' : Entries.get? r'.payloads path = loaded?' at hpath ⊢
  cases hpath with
  | some hbody => exact ⟨hbody, h⟩
  | none =>
    rw [h.world]
    have hbody := sameBody_loaded limit (source.traverse path r.world).1 (r.rankings path)
      (r'.rankings path)
    refine ⟨hbody, rfl, fun other => ?_⟩
    simp only [Entries.get?_append, Entries.get?]
    have hother := h.payloads other
    generalize Entries.get? r.payloads other = known? at hother ⊢
    generalize Entries.get? r'.payloads other = known?' at hother ⊢
    cases hother with
    | some hknown => exact .some hknown
    | none =>
      rw [Option.none_or, Option.none_or]
      split
      · exact .some hbody
      · exact .none

/-- A mapping gives the same in both runs, up to the order of members. -/
theorem Readings.Relisted.attempt (h : r.Relisted r') (settings : Settings) (source : Source σ)
    (mapping : FieldMapping) :
    ((∃ fault, (attempt settings source mapping r).1 = .error fault ∧
        (attempt settings source mapping r').1 = .error fault) ∨
      ∃ put put', (attempt settings source mapping r).1 = .ok put ∧
        (attempt settings source mapping r').1 = .ok put' ∧
          Option.Rel Extract.Relisted put put') ∧
      (attempt settings source mapping r).2.Relisted (attempt settings source mapping r').2 := by
  rcases payload_or_field mapping with ⟨wanted, hd, -⟩ | hp
  · simp only [Extract.attempt, hd]
    split
    · obtain ⟨hbody, hnext⟩ := h.fetch settings.payloadLimit source mapping.path.segments
      refine ⟨.inr ⟨_, _, rfl, rfl, ?_⟩, hnext⟩
      exact optionRel_map (hbody.resolve wanted) fun _ _ h => ⟨h.key, h.value⟩
    · exact ⟨.inr ⟨none, none, rfl, rfl, .none⟩, h⟩
  · rw [attempt_field hp, attempt_field hp, h.world]
    refine ⟨?_, rfl, h.payloads⟩
    generalize (source.traverse mapping.path.segments r.world).1.toOption = v?
    cases v? with
    | none => exact .inr ⟨none, none, rfl, rfl, .none⟩
    | some v =>
      dsimp only
      cases fieldPut mapping v with
      | error fault => exact .inl ⟨fault, rfl, rfl⟩
      | ok put =>
        exact .inr ⟨put, put, rfl, rfl, relisted?_refl put⟩

-- ---------------------------------------------------------------------------
-- Runs
-- ---------------------------------------------------------------------------

theorem Readings.Relisted.attempts (h : r.Relisted r') (settings : Settings) (source : Source σ)
    (mappings : List FieldMapping) :
    (attempts settings source mappings r).Relisted (attempts settings source mappings r') := by
  induction mappings generalizing r r' with
  | nil => exact ⟨.nil, rfl, h⟩
  | cons mapping rest ih =>
    obtain ⟨hresult, hnext⟩ := h.attempt settings source mapping
    simp only [Extract.attempts]
    rcases ha : Extract.attempt settings source mapping r with ⟨result, next⟩
    rcases ha' : Extract.attempt settings source mapping r' with ⟨result', next'⟩
    rw [ha, ha'] at hresult hnext
    rcases hresult with ⟨fault, rfl, rfl⟩ | ⟨put, put', rfl, rfl, hput⟩
    · exact ⟨.nil, rfl, hnext⟩
    · obtain ⟨hputs, hfault, hend⟩ := ih hnext
      refine ⟨?_, hfault, hend⟩
      cases hput with
      | none => exact hputs
      | some hput => exact .cons ⟨rfl, hput⟩ hputs

end

/-- Two runs of one extraction under two rankings. -/
theorem Extractor.trace_relisted (e : Extractor) (operation : Operation) (phase : Phase)
    (source : Source σ) (world : World σ) (rankings rankings' : Rankings) :
    (e.trace operation phase source world rankings).Relisted
      (e.trace operation phase source world rankings') := by
  have hstart : Readings.Relisted { world, rankings } { world, rankings := rankings' } :=
    ⟨rfl, fun _ => .none⟩
  exact hstart.attempts e.settings source _

-- ---------------------------------------------------------------------------
-- Puts
-- ---------------------------------------------------------------------------

theorem relisted_refl (puts : List Put) : List.Forall₂ Relisted puts puts :=
  List.forall₂_same.mpr fun put _ => .refl put

section
variable {puts puts' : List (FieldMapping × Put)}

theorem any_isPayload (h : List.Forall₂ RelistedBy puts puts') :
    puts'.any (·.1.isPayload) = puts.any (·.1.isPayload) := by
  induction h with
  | nil => rfl
  | cons hput _ ih => rw [List.any_cons, List.any_cons, ih, hput.mapping]

theorem keys_relisted {puts puts' : List Put} (h : List.Forall₂ Relisted puts puts') :
    puts'.map (·.1) = puts.map (·.1) := by
  induction h with
  | nil => rfl
  | cons hput _ ih => rw [List.map_cons, List.map_cons, ih, hput.key]

theorem forall₂_puts (h : List.Forall₂ RelistedBy puts puts') :
    List.Forall₂ Relisted (puts.map (·.2)) (puts'.map (·.2)) := by
  rw [List.forall₂_map_left_iff, List.forall₂_map_right_iff]
  exact h.imp fun _ _ hput => hput.put

end

section
variable {trace trace' : Trace σ}

theorem Trace.Relisted.fromPayload (h : trace.Relisted trace') :
    trace'.fromPayload = trace.fromPayload :=
  any_isPayload h.puts

theorem Trace.Relisted.attributes (h : trace.Relisted trace') (settings : Settings) :
    List.Forall₂ Extract.Relisted (trace.attributes settings) (trace'.attributes settings) := by
  unfold Trace.attributes
  rw [h.fromPayload]
  exact List.rel_append (forall₂_puts h.puts) (relisted_refl _)

end

/-- A model's answer whose reasons to stop are an object of two members. -/
def reasonedAnswer : ModelCall :=
  ⟨none, some ⟨Utf8.ofString "\x7b\"stopReason\":\x7b\"b\":1,\"a\":2\x7d\x7d"⟩⟩

/-- What is put of this answer, with this text for the reasons. -/
def reasonedPuts (reasons : String) : List Put :=
  [(Attribute.Key.finishReasons, .text reasons), (Attribute.Key.system, .text "aws.bedrock")]

end Telemetry.Extract
