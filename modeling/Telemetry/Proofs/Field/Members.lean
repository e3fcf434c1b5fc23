import Telemetry.Proofs.Field.Discovery
import Telemetry.Proofs.Field.Faults
import Telemetry.Proofs.Field.Traversal

/-!
# Members of a rendered object are its fields

A rendering goes through the getters of an object slot by slot, and a read goes
from a name to a slot. Where the names of the getters are all different, and
none is empty, discovery goes back from every name to its own slot
(`Object.discover_name`), whatever other spellings of it there are. So the
members of the JSON object are the fields that a read by name finds and that
have a JSON form (`Object.toJson_reads`).
-/

namespace Telemetry.Field

/-- What the cache remembers of the type of the object is what discovery finds
among the object's getters. -/
def Cache.AgreesOn (cache : Cache) (target : Object) : Prop :=
  ∀ field found, cache.find? target.type field = some found → found = discover target.names field

variable {target : Object} {cache : Cache} {depth : Nat}

-- ---------------------------------------------------------------------------
-- Reading
-- ---------------------------------------------------------------------------

theorem Cache.AgreesOn.resolve (agrees : cache.AgreesOn target) (field : String) :
    (cache.resolve target field).1 = discover target.names field := by
  cases hfound : cache.find? target.type field with
  | some known =>
    rw [resolve_known hfound]
    exact agrees field known hfound
  | none => rw [resolve_unknown hfound]

/-- Discovery finds a getter of its own name before it tries another spelling. -/
theorem Object.discover_name (distinct : target.names.Nodup) {name : String} (named : name ≠ "")
    {reading : Reading} (h : .mk name reading ∈ target.getters) :
    ∃ accessor, discover target.names name = some accessor ∧
      target.call accessor.slot = reading := by
  obtain ⟨slot, hslot⟩ := List.mem_iff_getElem?.mp h
  have hname : target.names[slot]? = some name := by
    simp [names, hslot, Getter.name]
  refine ⟨⟨slot, name⟩, ?_, ?_⟩
  · exact (discover_eq_iff named).mpr (.own (isFirstSlot_of_nodup distinct hname))
  · simp [call, hslot, Getter.reading]

-- ---------------------------------------------------------------------------
-- Rendering
-- ---------------------------------------------------------------------------

theorem Reading.jsonAt_eq_some_iff {reading : Reading} {json : Json.Value} :
    reading.jsonAt depth = .ok (some json) ↔
      ∃ v, reading = .value v ∧ v.jsonAt depth = .ok (some json) := by
  cases reading with
  | value v => simp [Reading.jsonAt]
  | absent => simp [Reading.jsonAt]
  | fault f => simp [Reading.jsonAt]

/-- The members come from the getters whose readings have a JSON form, in their
order. -/
theorem jsonMembers_ok {getters : List Getter} {members : List (String × Json.Value)}
    (h : jsonMembers depth getters = .ok members) :
    (members.map (·.1)).Sublist (getters.map Getter.name) ∧
      ∀ name json, (name, json) ∈ members ↔
        ∃ reading, .mk name reading ∈ getters ∧ reading.jsonAt depth = .ok (some json) := by
  induction getters generalizing members with
  | nil =>
    cases h
    exact ⟨.slnil, by simp⟩
  | cons getter rest ih =>
    cases getter with
    | mk head first =>
      rw [jsonMembers] at h
      obtain ⟨form?, hfirst, h⟩ := bind_eq_ok_iff.mp h
      cases form? with
      | none =>
        obtain ⟨hsub, hmem⟩ := ih h
        refine ⟨hsub.cons _, fun name json => ?_⟩
        simp only [hmem, List.mem_cons, or_and_right, exists_or, Getter.mk.injEq]
        constructor
        · exact .inr
        · rintro (⟨reading, ⟨rfl, rfl⟩, hform⟩ | hlater)
          · simp [hfirst] at hform
          · exact hlater
      | some form =>
        obtain ⟨later, hrest, hmembers⟩ := bind_eq_ok_iff.mp h
        cases hmembers
        obtain ⟨hsub, hmem⟩ := ih hrest
        refine ⟨hsub.cons_cons _, fun name json => ?_⟩
        simp only [List.mem_cons, Prod.mk.injEq, hmem, or_and_right, exists_or, Getter.mk.injEq]
        refine or_congr_left ?_
        constructor
        · rintro ⟨rfl, rfl⟩
          exact ⟨first, ⟨rfl, rfl⟩, hfirst⟩
        · rintro ⟨reading, ⟨rfl, rfl⟩, hform⟩
          rw [hfirst] at hform
          cases hform
          exact ⟨rfl, rfl⟩

theorem Object.membersAt_ok (target : Object) (room : depth < maxRenderDepth)
    (quiet : target.faults depth = []) :
    ∃ members, jsonMembers (depth + 1) target.getters = .ok members ∧
      target.membersAt depth = .ok (some (Entries.ofList members)) := by
  cases target with
  | mk type typeName getters =>
    have hroom : ¬ maxRenderDepth ≤ depth := Nat.not_le.mpr room
    simp only [faults, if_neg hroom] at quiet
    obtain ⟨members, hmembers⟩ : ∃ members, jsonMembers (depth + 1) getters = .ok members := by
      apply fault?_eq_none_iff.mp
      rw [fault?_jsonMembers, quiet]
      rfl
    refine ⟨members, hmembers, ?_⟩
    rw [membersAt, if_neg hroom, hmembers]
    rfl

theorem Object.membersAt_reads (room : depth < maxRenderDepth) (named : "" ∉ target.names)
    (distinct : target.names.Nodup) (quiet : target.faults depth = [])
    (agrees : cache.AgreesOn target) :
    ∃ members, target.membersAt depth = .ok (some members) ∧
      (members.map (·.1)).Sublist target.names ∧
      ∀ name json, (name, json) ∈ members ↔ name ∈ target.names ∧
        ∃ accessor v, (cache.resolve target name).1 = some accessor ∧
          accessor.invoke target = some v ∧ v.jsonAt (depth + 1) = .ok (some json) := by
  have hread {name : String} {reading : Reading} (h : .mk name reading ∈ target.getters) :
      ∃ accessor, (cache.resolve target name).1 = some accessor ∧
        accessor.invoke target = reading.toOption := by
    have hname : name ∈ target.names := List.mem_map_of_mem h
    obtain ⟨accessor, hfound, hcall⟩ :=
      discover_name distinct (fun hempty => named (hempty ▸ hname)) h
    exact ⟨accessor, (agrees.resolve name).trans hfound, congrArg Reading.toOption hcall⟩
  obtain ⟨members, hmembers, hrendered⟩ := target.membersAt_ok room quiet
  obtain ⟨hsub, hmem⟩ := jsonMembers_ok hmembers
  have hkept : Entries.ofList members = members := Entries.ofList_nodup (hsub.nodup distinct)
  refine ⟨members, hkept ▸ hrendered, hsub, fun name json => ?_⟩
  rw [hmem]
  constructor
  · rintro ⟨reading, hgetter, hform⟩
    obtain ⟨v, rfl, hv⟩ := Reading.jsonAt_eq_some_iff.mp hform
    obtain ⟨accessor, hknown, hinvoke⟩ := hread hgetter
    exact ⟨List.mem_map_of_mem hgetter, accessor, v, hknown, hinvoke, hv⟩
  · rintro ⟨hname, accessor, v, hknown, hinvoke, hv⟩
    obtain ⟨getter, hgetter, rfl⟩ := List.mem_map.mp hname
    cases getter with
    | mk name reading =>
      obtain ⟨own, hown, hreading⟩ := hread hgetter
      cases hknown.symm.trans hown
      have hvalue := Reading.toOption_eq_some_iff.mp (hreading.symm.trans hinvoke)
      exact ⟨reading, hgetter, Reading.jsonAt_eq_some_iff.mpr ⟨v, hvalue, hv⟩⟩

/-- A JSON object has a member for each getter of the object, in slot order,
whose name leads a read to a value that has a JSON form one object deeper, and
the member is that form; and it has no others. -/
theorem Object.toJson_reads (named : "" ∉ target.names) (distinct : target.names.Nodup)
    (quiet : target.faults 0 = []) (agrees : cache.AgreesOn target) :
    ∃ members, (Value.object target).toJson = .ok (some (.object members)) ∧
      (members.map (·.1)).Sublist target.names ∧
      ∀ name json, (name, json) ∈ members ↔ name ∈ target.names ∧
        ∃ accessor v, (cache.resolve target name).1 = some accessor ∧
          accessor.invoke target = some v ∧ v.jsonAt 1 = .ok (some json) := by
  obtain ⟨members, hmembers, hsub, hmem⟩ :=
    membersAt_reads (by decide : 0 < maxRenderDepth) named distinct quiet agrees
  refine ⟨members, ?_, hsub, hmem⟩
  simp only [Value.toJson, Value.jsonAt, hmembers]
  rfl

/-- Three getters whose names are spellings of one, and one that gives nothing. -/
def letter : Object :=
  .mk 4 "Letter" [.mk "get_body" (.value (.int 1)), .mk "Body" (.value (.text "x")),
    .mk "body" (.value (.int 2)), .mk "get_date" .absent]

theorem toJson_reads_letter :
    ∃ members, (Value.object letter).toJson = .ok (some (.object members)) ∧
      ("body", .number (.ofInt64 2)) ∈ members ∧ ∀ json, ("get_date", json) ∉ members := by
  have agrees : Cache.AgreesOn ⟨[((4, "body"), some ⟨2, "body"⟩)]⟩ letter := by
    intro field found hfound
    simp only [Cache.find?, Entries.get?] at hfound
    split at hfound
    · rename_i hkey
      cases hkey
      cases hfound
      rfl
    · cases hfound
  obtain ⟨members, hjson, -, hmem⟩ := Object.toJson_reads (by decide) (by decide) rfl agrees
  refine ⟨members, hjson, (hmem "body" _).mpr ⟨by decide, ⟨2, "body"⟩, .int 2, rfl, rfl, rfl⟩, ?_⟩
  rintro json hdate
  obtain ⟨-, accessor, v, hknown, hinvoke, -⟩ := (hmem "get_date" json).mp hdate
  cases hknown
  cases hinvoke

end Telemetry.Field
