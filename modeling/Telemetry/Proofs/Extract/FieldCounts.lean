import Telemetry.Mapping.Builtin
import Telemetry.Proofs.Extract.Trace
import Telemetry.Proofs.Field.Faults
import Telemetry.Proofs.Payload.CountTexts

/-!
# Fields that are counts

A count that reads no payload is read from the text of a field, whatever kind
of value the field has. An integer is always the count that it is. A text, or
bytes that are one, is the count that it spells. The text of a boolean, a
sequence, a mapping or an object has a character in it that no integer is
spelled with, whatever else it holds (`extract_counts`).
-/

namespace Telemetry.Extract

open Attribute (Sink)
open Telemetry.Field (Source Value World bind_eq_ok_iff)
open Mapping (FieldMapping Operation Phase)
open Payload (SpellsInteger spellsPart)

variable {σ κ : Type}

-- ---------------------------------------------------------------------------
-- The count of a value
-- ---------------------------------------------------------------------------

def fieldCount? (v : Value) : Option Int64 :=
  match v.render with
  | .ok (some text) => Payload.count? text
  | _ => none

def Matches (count? : Option Int64) (text : String) : Prop :=
  ∀ i : Int, count?.map Int64.toInt = some i ↔ SpellsInteger text i ∧ -2 ^ 63 ≤ i ∧ i < 2 ^ 63

theorem fieldCount?_iff (v : Value) (i : Int) :
    (fieldCount? v).map Int64.toInt = some i ↔
      (∃ text, v.render = .ok (some text) ∧ SpellsInteger text i) ∧ -2 ^ 63 ≤ i ∧ i < 2 ^ 63 := by
  unfold fieldCount?
  split
  · rename_i text hrender
    simp only [Payload.count?_iff, hrender, Except.ok.injEq, Option.some.injEq, exists_eq_left']
  · rename_i hnone
    refine ⟨nofun, ?_⟩
    rintro ⟨⟨text, hrender, -⟩, -⟩
    exact absurd hrender (hnone text)

theorem fieldCount?_int (n : Int64) : fieldCount? (.int n) = some n := by
  simp only [fieldCount?, Value.render, Payload.count?_ofInt64]

theorem fieldCount?_text (text : String) : Matches (fieldCount? (.text text)) text := by
  have hcount : fieldCount? (.text text) = Payload.count? text := by
    simp only [fieldCount?, Value.render, Field.unlessEmpty]
    by_cases hempty : text.isEmpty = true
    · obtain rfl : text = "" := String.isEmpty_iff.mp hempty
      decide
    · rw [if_neg hempty]
  intro i
  rw [hcount, Payload.count?_iff]

theorem fieldCount?_bytes {bs : List UInt8} {text : String} (h : Utf8.toString? bs = some text) :
    Matches (fieldCount? (.bytes bs)) text := by
  have hcount : fieldCount? (.bytes bs) = fieldCount? (.text text) := by
    simp only [fieldCount?, Value.render, h, Option.bind_some]
  rw [hcount]
  exact fieldCount?_text text

def Unspelled (text : String) : Prop :=
  ∃ c ∈ text.toList, Text.isBlank c = false ∧ spellsPart c = false

theorem fieldCount?_unspelled {v : Value}
    (h : ∀ text, v.render = .ok (some text) → Unspelled text) : fieldCount? v = none := by
  unfold fieldCount?
  split
  · rename_i text hrender
    obtain ⟨c, hc, solid, other⟩ := h text hrender
    exact Payload.count?_eq_none hc solid other
  · rfl

theorem unspelled_bracketed {items : List String} {text : String}
    (h : Field.bracketed items = some text) : Unspelled text := by
  cases items with
  | nil => cases h
  | cons item items =>
    obtain rfl := Option.some.inj h
    exact ⟨'[', by simp, by decide, by decide⟩

theorem unspelled_object (members : List (String × Json.Value)) :
    Unspelled (Json.Value.object members).write := by
  refine ⟨'\x7b', ?_, by decide, by decide⟩
  rw [Json.Value.write, String.toList_ofList, Json.Value.chars]
  exact List.mem_cons_self

theorem fieldCount?_bool (b : Bool) : fieldCount? (.bool b) = none := by
  cases b <;> decide

theorem fieldCount?_list (items : List Value) : fieldCount? (.list items) = none := by
  refine fieldCount?_unspelled fun text h => ?_
  rw [Value.render] at h
  obtain ⟨texts, -, htext⟩ := bind_eq_ok_iff.mp h
  exact unspelled_bracketed (Except.ok.inj htext)

theorem fieldCount?_keys (names : List String) : fieldCount? (.keys names) = none := by
  refine fieldCount?_unspelled fun text h => ?_
  rw [Value.render] at h
  exact unspelled_bracketed (Except.ok.inj h)

theorem fieldCount?_object (target : Field.Object) : fieldCount? (.object target) = none := by
  refine fieldCount?_unspelled fun text h => ?_
  rw [Value.render] at h
  obtain ⟨members, -, rfl⟩ := Field.Object.render_eq_some h
  exact unspelled_object members

-- ---------------------------------------------------------------------------
-- The count in an extraction
-- ---------------------------------------------------------------------------

theorem fieldPut_count {mapping : FieldMapping} {v : Value} (count : mapping.decode = .count)
    (quiet : v.faults 0 = []) :
    fieldPut mapping v = .ok ((fieldCount? v).map fun n => (mapping.key, .int n)) := by
  obtain ⟨text?, hrender⟩ := Value.render_eq_ok quiet
  rw [fieldPut, fieldCount?, hrender]
  cases text? with
  | none => rfl
  | some text =>
    simp only [Except.map, Option.bind_some, decodeText, count]
    cases Payload.count? text <;> rfl

section
variable [Sink κ]

/-- An extraction of which these mappings are still to be tried. -/
def Extractor.resume (e : Extractor) (source : Source σ) (mappings : List FieldMapping)
    (s : Session σ κ) : Outcome σ κ :=
  let action : Action σ κ Unit := do
    visitAll e.settings source mappings
    nameSystem e.settings
  match action s with
  | .ok _ s => ⟨.ok s.written, s.sink, s.world⟩
  | .error fault s => ⟨.error fault, s.sink, s.world⟩

theorem visitAll_append (settings : Settings) (source : Source σ)
    (first second : List FieldMapping) :
    (visitAll settings source (first ++ second) : Action σ κ Unit) =
      (do visitAll settings source first; visitAll settings source second) := by
  induction first with
  | nil => rw [List.nil_append, visitAll, pure_bind]
  | cons mapping rest ih => rw [List.cons_append, visitAll, visitAll, ih, bind_assoc]

theorem Extractor.resume_append (e : Extractor) {source : Source σ} {first : List FieldMapping}
    (second : List FieldMapping) {s s' : Session σ κ}
    (h : visitAll e.settings source first s = .ok () s') :
    e.resume source (first ++ second) s = e.resume source second s' := by
  simp only [resume, visitAll_append, bind_assoc]
  rw [bind_run, h]

theorem visit_count {settings : Settings} {source : Source σ} {mapping : FieldMapping}
    {s : Session σ κ} {v : Value} (count : mapping.decode = .count)
    (leads : (source.traverse mapping.path.segments s.world).1 = .ok v) (quiet : v.faults 0 = []) :
    visitAll settings source [mapping] s =
      .ok () (({ s with world := (source.traverse mapping.path.segments s.world).2 }).take mapping
        ((fieldCount? v).map fun n => (mapping.key, .int n))) := by
  have hplain : mapping.isPayload = false := by rw [FieldMapping.isPayload, count]
  simp only [visitAll, bind_run, visit_run, attempt_field hplain, Session.readings, leads,
    Except.toOption, fieldPut_count count quiet]
  rfl

/-- A count that a field gives is put exactly if the field's text is an integer
that 64 bits hold. An integer is that count itself, a text, or bytes that are
one, the count that it spells, and a boolean, a sequence, a mapping or an object
never any. -/
theorem extract_counts {e : Extractor} {operation : Operation} {phase : Phase} {source : Source σ}
    {world : World σ} {sink : κ} {rankings : Rankings} {before after : List FieldMapping}
    {mapping : FieldMapping}
    {s : Session σ κ} {v : Value} (plan : e.plan operation phase = before ++ mapping :: after)
    (count : mapping.decode = .count)
    (reached : visitAll e.settings source before { world, sink, rankings } = .ok () s)
    (leads : (source.traverse mapping.path.segments s.world).1 = .ok v) (quiet : v.faults 0 = []) :
    ∃ count? : Option Int64,
      e.extract operation phase source world sink rankings =
        e.resume source after
          (({ s with world := (source.traverse mapping.path.segments s.world).2 }).take mapping
            (count?.map fun n => (mapping.key, .int n))) ∧
      (∀ i : Int, count?.map Int64.toInt = some i ↔
        (∃ text, v.render = .ok (some text) ∧ SpellsInteger text i) ∧ -2 ^ 63 ≤ i ∧ i < 2 ^ 63) ∧
      match v with
      | .int n => count? = some n
      | .text text => Matches count? text
      | .bytes bs => ∀ text, Utf8.toString? bs = some text → Matches count? text
      | .bool _ | .list _ | .keys _ | .object _ => count? = none
      | .float _ => True := by
  refine ⟨fieldCount? v, ?_, fieldCount?_iff v, ?_⟩
  · have hstart : e.extract operation phase source world sink rankings =
        e.resume source (before ++ ([mapping] ++ after)) { world, sink, rankings } := by
      rw [Extractor.extract, plan]
      rfl
    rw [hstart, e.resume_append _ reached, e.resume_append _ (visit_count count leads quiet)]
  · cases v with
    | int n => exact fieldCount?_int n
    | text text => exact fieldCount?_text text
    | bytes bs => exact fun text h => fieldCount?_bytes h
    | bool b => exact fieldCount?_bool b
    | list items => exact fieldCount?_list items
    | keys names => exact fieldCount?_keys names
    | object target => exact fieldCount?_object target
    | float x => trivial

def pageRequest : Source Unit :=
  .ofFields fun name =>
    if name = "ExclusiveStartTableName" then .value (.text "t")
    else if name = "Limit" then .value (.text "\t+07 ")
    else .absent

theorem extract_counts_page :
    (({ registry := .ofTable [Mapping.keyValueStore], settings := {} } : Extractor).extract
      Mapping.listTables .request pageRequest { state := () } ({} : Attribute.KeyValues)).sink =
        ⟨[(Attribute.Key.exclusiveStartTable, .text "t"), (Attribute.Key.limit, .int 7)]⟩ := by
  have hplan : Extractor.plan ⟨.ofTable [Mapping.keyValueStore], {}⟩ Mapping.listTables .request =
      [.request Attribute.Key.exclusiveStartTable "ExclusiveStartTableName"] ++
        Mapping.limit :: Mapping.keyValueStore.request := rfl
  have hreached : (visitAll {} pageRequest
      [.request Attribute.Key.exclusiveStartTable "ExclusiveStartTableName"] :
        Action Unit Attribute.KeyValues Unit) ⟨{ state := () }, {}, .level, [], 0, false⟩ =
      .ok () ⟨{ state := () }, ⟨[(Attribute.Key.exclusiveStartTable, .text "t")]⟩, .level, [], 1,
        false⟩ :=
    rfl
  have hleads : (pageRequest.traverse Mapping.limit.path.segments { state := () }).1 =
      .ok (.text "\t+07 ") := rfl
  obtain ⟨count?, hextract, -, hcount⟩ := extract_counts hplan rfl hreached hleads rfl
  have hspells : SpellsInteger "\t+07 " 7 := by
    refine ⟨['\t'], ['+', '0', '7'], [' '], rfl, ?_, ?_, .plus (List.cons_ne_nil 0 [7])⟩
    · exact List.forall_mem_singleton.mpr rfl
    · exact List.forall_mem_singleton.mpr rfl
  have hseven : count?.map Int64.toInt = some 7 := (hcount 7).mpr ⟨hspells, by decide⟩
  obtain ⟨n, rfl, hn⟩ := Option.map_eq_some_iff.mp hseven
  obtain rfl : n = 7 := Int64.toInt_inj.mp hn
  rw [hextract]
  rfl

end

end Telemetry.Extract
