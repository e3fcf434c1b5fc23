import Mathlib.Data.List.Find
import Telemetry.Field.Accessor

/-!
# Which getter answers a field

Discovery takes the spellings of a field one after the other and goes through
the whole table for each. So a better spelling in a late slot comes before a
worse one in an early slot, and among the slots of one name the first counts
(`discover_eq_iff`). The name that answers depends on nothing but which of the
spellings are in the table (`discover_name_congr`): the order of the table and
the repetitions in it decide the slot, never the name.
-/

namespace Telemetry.Field

def IsFirstSlot (names : List String) (name : String) (slot : Nat) : Prop :=
  names[slot]? = some name ∧ ∀ earlier < slot, names[earlier]? ≠ some name

inductive Answers (names : List String) (field : String) : Option Accessor → Prop
  | own {slot : Nat} (first : IsFirstSlot names field slot) :
    Answers names field (some ⟨slot, field⟩)
  | snake {slot : Nat} (noOwn : field ∉ names)
    (first : IsFirstSlot names (Text.snakeCase field) slot) :
    Answers names field (some ⟨slot, Text.snakeCase field⟩)
  | getter {slot : Nat} (noOwn : field ∉ names) (noSnake : Text.snakeCase field ∉ names)
    (first : IsFirstSlot names ("get_" ++ Text.snakeCase field) slot) :
    Answers names field (some ⟨slot, "get_" ++ Text.snakeCase field⟩)
  | nothing (noOwn : field ∉ names) (noSnake : Text.snakeCase field ∉ names)
    (noGetter : "get_" ++ Text.snakeCase field ∉ names) : Answers names field none

variable {names other : List String} {name field : String} {accessor : Accessor}
  {found : Option Accessor}

-- ---------------------------------------------------------------------------
-- One spelling
-- ---------------------------------------------------------------------------

theorem isFirstSlot_iff {slot : Nat} :
    IsFirstSlot names name slot ↔ names.findIdx? (· == name) = some slot := by
  rw [List.findIdx?_eq_some_iff_getElem, IsFirstSlot, List.getElem?_eq_some_iff]
  constructor
  · rintro ⟨⟨hslot, hname⟩, hfirst⟩
    refine ⟨hslot, beq_iff_eq.mpr hname, fun earlier hlt hsame => hfirst earlier hlt ?_⟩
    exact List.getElem?_eq_some_iff.mpr ⟨hlt.trans hslot, beq_iff_eq.mp hsame⟩
  · rintro ⟨hslot, hname, hfirst⟩
    refine ⟨⟨hslot, beq_iff_eq.mp hname⟩, fun earlier hlt hsame => hfirst earlier hlt ?_⟩
    obtain ⟨_, heq⟩ := List.getElem?_eq_some_iff.mp hsame
    exact beq_iff_eq.mpr heq

theorem isFirstSlot_of_nodup (distinct : names.Nodup) {slot : Nat} (h : names[slot]? = some name) :
    IsFirstSlot names name slot := by
  refine ⟨h, fun earlier hlt hsame => ?_⟩
  obtain ⟨hslot, -⟩ := List.getElem?_eq_some_iff.mp h
  exact hlt.ne ((List.getElem?_inj (hlt.trans hslot) distinct).mp (hsame.trans h.symm))

theorem slotOf?_eq_some_iff :
    slotOf? names name = some accessor ↔
      accessor.name = name ∧ IsFirstSlot names name accessor.slot := by
  rw [slotOf?, Option.map_eq_some_iff, isFirstSlot_iff]
  constructor
  · rintro ⟨slot, hslot, rfl⟩
    exact ⟨rfl, hslot⟩
  · rintro ⟨rfl, hslot⟩
    exact ⟨accessor.slot, hslot, rfl⟩

theorem slotOf?_eq_none_iff : slotOf? names name = none ↔ name ∉ names := by
  rw [slotOf?, Option.map_eq_none_iff, List.findIdx?_eq_none_iff]
  simp only [beq_eq_false_iff_ne]
  exact List.forall_mem_ne'

-- ---------------------------------------------------------------------------
-- All spellings
-- ---------------------------------------------------------------------------

theorem discover_named (named : field ≠ "") (names : List String) :
    discover names field = (spellings field).findSome? (slotOf? names) := by
  have hnamed : field.isEmpty = false := by simpa using named
  rw [discover, hnamed]
  rfl

theorem answers_discover (named : field ≠ "") (names : List String) :
    Answers names field (discover names field) := by
  rw [discover_named named]
  simp only [spellings, List.findSome?_cons, List.findSome?_nil]
  cases hown : slotOf? names field with
  | some accessor =>
    obtain ⟨rfl, hfirst⟩ := slotOf?_eq_some_iff.mp hown
    exact .own hfirst
  | none =>
    have hnoOwn := slotOf?_eq_none_iff.mp hown
    cases hsnake : slotOf? names (Text.snakeCase field) with
    | some accessor =>
      obtain ⟨slot, name⟩ := accessor
      obtain ⟨rfl, hfirst⟩ := slotOf?_eq_some_iff.mp hsnake
      exact .snake hnoOwn hfirst
    | none =>
      have hnoSnake := slotOf?_eq_none_iff.mp hsnake
      cases hgetter : slotOf? names ("get_" ++ Text.snakeCase field) with
      | some accessor =>
        obtain ⟨slot, name⟩ := accessor
        obtain ⟨rfl, hfirst⟩ := slotOf?_eq_some_iff.mp hgetter
        exact .getter hnoOwn hnoSnake hfirst
      | none => exact .nothing hnoOwn hnoSnake (slotOf?_eq_none_iff.mp hgetter)

theorem discover_eq_iff (named : field ≠ "") :
    discover names field = found ↔ Answers names field found := by
  constructor
  · rintro rfl
    exact answers_discover named names
  · intro h
    have hsome {name : String} {slot : Nat} (hfirst : IsFirstSlot names name slot) :
        slotOf? names name = some ⟨slot, name⟩ :=
      slotOf?_eq_some_iff.mpr ⟨rfl, hfirst⟩
    rw [discover_named named]
    simp only [spellings, List.findSome?_cons, List.findSome?_nil]
    cases h with
    | own hfirst => rw [hsome hfirst]
    | snake hnoOwn hfirst => rw [slotOf?_eq_none_iff.mpr hnoOwn, hsome hfirst]
    | getter hnoOwn hnoSnake hfirst =>
      rw [slotOf?_eq_none_iff.mpr hnoOwn, slotOf?_eq_none_iff.mpr hnoSnake, hsome hfirst]
    | nothing hnoOwn hnoSnake hnoGetter =>
      rw [slotOf?_eq_none_iff.mpr hnoOwn, slotOf?_eq_none_iff.mpr hnoSnake,
        slotOf?_eq_none_iff.mpr hnoGetter]

theorem Answers.name_at (h : Answers names field (some accessor)) :
    names[accessor.slot]? = some accessor.name := by
  cases h with
  | own first => exact first.1
  | snake _ first => exact first.1
  | getter _ _ first => exact first.1

-- ---------------------------------------------------------------------------
-- The name that answers
-- ---------------------------------------------------------------------------

theorem name_findSome?_slotOf? (names spellings : List String) :
    (spellings.findSome? (slotOf? names)).map (·.name) = spellings.find? (names.contains ·) := by
  induction spellings with
  | nil => rfl
  | cons name rest ih =>
    cases hslot : slotOf? names name with
    | some accessor =>
      obtain ⟨rfl, hfirst⟩ := slotOf?_eq_some_iff.mp hslot
      have hmem := List.mem_of_getElem? hfirst.1
      rw [List.findSome?_cons, hslot, List.find?_cons_of_pos (List.contains_iff_mem.mpr hmem)]
      rfl
    | none =>
      have hmem := slotOf?_eq_none_iff.mp hslot
      rw [List.findSome?_cons, hslot, List.find?_cons_of_neg (by simpa using hmem)]
      exact ih

theorem discover_name_congr (h : ∀ name ∈ spellings field, name ∈ names ↔ name ∈ other) :
    (discover names field).map (·.name) = (discover other field).map (·.name) := by
  by_cases named : field = ""
  · subst named
    rfl
  · rw [discover_named named, discover_named named, name_findSome?_slotOf?, name_findSome?_slotOf?]
    refine List.find?_congr fun name hname => ?_
    simpa using h name hname

/-- The first slot with the field's own name answers, or else the first with its
snake case, or else the first with its snake case after `get_`. A table with the
same names, in whatever order and however often, is answered from under the same
name, and so is one that has more getters under other names. -/
theorem discover_first (named : field ≠ "") (names : List String) :
    (∀ found, discover names field = found ↔ Answers names field found) ∧
      (∀ accessor, discover names field = some accessor →
        names[accessor.slot]? = some accessor.name) ∧
      (∀ other : List String, (∀ name, name ∈ names ↔ name ∈ other) →
        (discover names field).map (·.name) = (discover other field).map (·.name)) ∧
      ∀ added other : List String, (∀ name ∈ added, name ∉ spellings field) →
        other.Perm (names ++ added) →
        (discover names field).map (·.name) = (discover other field).map (·.name) := by
  refine ⟨fun _ => discover_eq_iff named, ?_, ?_, ?_⟩
  · intro accessor h
    exact ((discover_eq_iff named).mp h).name_at
  · intro other h
    exact discover_name_congr fun name _ => h name
  · intro added other hadded hother
    refine discover_name_congr fun name hname => ?_
    rw [hother.mem_iff, List.mem_append]
    exact (or_iff_left fun h => hadded name h hname).symm

/-- The snake case answers from the last slot of one table and from the middle
of another. -/
theorem discover_first_body :
    "Body" ≠ "" ∧ discover ["get_body", "flaky", "body"] "Body" = some ⟨2, "body"⟩ ∧
      (discover ["tags", "body", "flaky", "get_body"] "Body").map (·.name) = some "body" := by
  have hnamed : "Body" ≠ "" := by decide
  have hfound : discover ["get_body", "flaky", "body"] "Body" = some ⟨2, "body"⟩ := by decide
  obtain ⟨-, -, -, hadded⟩ := discover_first hnamed ["get_body", "flaky", "body"]
  refine ⟨hnamed, hfound, ?_⟩
  rw [← hadded ["tags"] ["tags", "body", "flaky", "get_body"] (by decide) (by decide), hfound]
  rfl

end Telemetry.Field
