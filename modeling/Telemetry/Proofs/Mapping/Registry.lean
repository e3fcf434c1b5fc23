import Mathlib.Data.List.Find
import Mathlib.Data.List.Induction
import Mathlib.Data.List.Nodup
import Telemetry.Extract.Session

/-!
# The first entry of a name

The registry keeps, with its table, an index that leads from a name to a place.
While the index is built it leads from each name to the least place of the name
so far (`get?_index`). So what the registry finds is what a search through the
table from its start finds, and the categories that it lists are the entries
that no earlier entry shares its name with (`categories_ofTable`). The other
entries might as well not be in the table.
-/

namespace Telemetry.Mapping

open Attribute (Sink)
open Extract (Extractor Settings)
open Telemetry.Field (Source World)

def firsts : List Category → List Category
  | [] => []
  | category :: rest => category :: (firsts rest).filter (·.name != category.name)

variable {table : List Category} {category : Category}

-- ---------------------------------------------------------------------------
-- First entries
-- ---------------------------------------------------------------------------

theorem firsts_sublist (table : List Category) : (firsts table).Sublist table := by
  induction table with
  | nil => exact .slnil
  | cons category rest ih => exact (List.filter_sublist.trans ih).cons_cons category

theorem firsts_nodup (table : List Category) : ((firsts table).map (·.name)).Nodup := by
  induction table with
  | nil => exact List.nodup_nil
  | cons category rest ih =>
    refine List.nodup_cons.mpr ⟨?_, ih.sublist (List.filter_sublist.map _)⟩
    intro hname
    obtain ⟨other, hother, hsame⟩ := List.mem_map.mp hname
    exact bne_iff_ne.mp (List.mem_filter.mp hother).2 hsame

theorem find?_firsts (table : List Category) (name : String) :
    (firsts table).find? (·.name == name) = table.find? (·.name == name) := by
  induction table with
  | nil => rfl
  | cons category rest ih =>
    by_cases hname : category.name = name
    · rw [firsts, List.find?_cons_of_pos (by simpa using hname),
        List.find?_cons_of_pos (by simpa using hname)]
    · rw [firsts, List.find?_cons_of_neg (by simpa using hname),
        List.find?_cons_of_neg (by simpa using hname), List.find?_filter, ← ih]
      -- an entry of the searched name is none of those that the filter takes out
      refine List.find?_congr fun other _ => Bool.eq_iff_iff.mpr ?_
      rw [decide_eq_true_iff]
      refine and_iff_right_of_imp fun hother => bne_iff_ne.mpr ?_
      rw [beq_iff_eq.mp hother]
      exact Ne.symm hname

theorem mem_firsts_iff :
    category ∈ firsts table ↔ ∃ name, table.find? (·.name == name) = some category := by
  constructor
  · intro hmem
    obtain ⟨found, hfound⟩ : ∃ found, (firsts table).find? (·.name == category.name) = some found :=
      Option.isSome_iff_exists.mp (List.find?_isSome.mpr ⟨category, hmem, beq_self_eq_true _⟩)
    have hname : found.name = category.name := by simpa using List.find?_some hfound
    have hsame : found = category :=
      List.inj_on_of_nodup_map (firsts_nodup table) (List.mem_of_find?_eq_some hfound) hmem hname
    exact ⟨category.name, by rw [← find?_firsts, hfound, hsame]⟩
  · rintro ⟨name, hfind⟩
    rw [← find?_firsts] at hfind
    exact List.mem_of_find?_eq_some hfind

/-- The first entries are those that are found at their own place when their
name is searched for; the places are counted from `start` on. -/
theorem firsts_eq_found (table : List Category) (start : Nat) :
    firsts table = ((table.zipIdx start).filter fun entry =>
      (table.findIdx? (·.name == entry.1.name)).map (· + start) == some entry.2).map (·.1) := by
  induction table generalizing start with
  | nil => rfl
  | cons category rest ih =>
    have hlater : ∀ entry ∈ rest.zipIdx (start + 1),
        (((category :: rest).findIdx? (·.name == entry.1.name)).map (· + start) == some entry.2) =
          (((·.name != category.name) ∘ (·.1)) entry &&
            ((rest.findIdx? (·.name == entry.1.name)).map (· + (start + 1)) == some entry.2)) := by
      intro entry hentry
      have hplace := List.le_snd_of_mem_zipIdx hentry
      rw [List.findIdx?_cons]
      by_cases hname : category.name = entry.1.name
      · have hfirst : start ≠ entry.2 := by omega
        simp [hname, hfirst]
      · have hshift : (fun place => place + 1 + start) = fun place => place + (start + 1) := by
          funext place
          omega
        simp [hname, Ne.symm hname, Function.comp_def, hshift]
    have hhead : (category :: rest).findIdx? (·.name == category.name) = some 0 := by
      simp [List.findIdx?_cons]
    rw [List.zipIdx_cons, List.filter_cons_of_pos (by simp [hhead]), List.map_cons, firsts,
      List.filter_congr hlater, ← List.filter_filter, ← List.filter_map, ← ih]

namespace Registry

-- ---------------------------------------------------------------------------
-- The index
-- ---------------------------------------------------------------------------

theorem get?_note (index : List (String × Nat)) (name : String) (place : Nat) (other : String) :
    Entries.get? (note index name place) other =
      (Entries.get? index other).or (if name = other then some place else none) := by
  unfold note
  cases h : Entries.get? index name with
  | some known =>
    by_cases hsame : name = other
    · simp [← hsame, h]
    · simp [hsame]
  | none =>
    by_cases hsame : name = other
    · simp [← hsame, h, Entries.get?_put]
    · simp [hsame, Entries.get?_put]

theorem get?_index (table : List Category) (name : String) :
    Entries.get? (ofTable table).index name = table.findIdx? (·.name == name) := by
  induction table using List.reverseRecOn with
  | nil => rfl
  | append_singleton table category ih =>
    simp only [ofTable] at ih ⊢
    rw [List.zipIdx_append, List.foldl_append, List.findIdx?_append, ← ih]
    simp [get?_note]

theorem category?_ofTable (table : List Category) (name : String) :
    (ofTable table).category? name = table.find? (·.name == name) := by
  rw [category?, get?_index, List.find?_eq_bind_findIdx?_getElem?]
  rfl

theorem mappings_ofTable (table : List Category) (name : String) (phase : Phase) :
    (ofTable table).mappings name phase =
      ((table.find? (·.name == name)).map (·.mappings phase)).getD [] := by
  rw [mappings, category?_ofTable]
  cases table.find? (·.name == name) <;> rfl

theorem categories_ofTable (table : List Category) : (ofTable table).categories = firsts table := by
  simp only [firsts_eq_found table 0, categories, get?_index, Nat.add_zero, Option.map_id']
  rfl

-- ---------------------------------------------------------------------------
-- The registry
-- ---------------------------------------------------------------------------

/-- The mappings of a call are those of the operation and then those of the
first entry that has the name of its category. -/
theorem plan_ofTable (table : List Category) (settings : Settings) (operation : Operation)
    (phase : Phase) :
    Extractor.plan ⟨ofTable table, settings⟩ operation phase = operation.mappings phase ++
      ((table.find? (·.name == operation.category)).map (·.mappings phase)).getD [] := by
  rw [Extractor.plan, mappings_ofTable]

/-- A registry of a table finds the first entry of a name and the mappings of
that entry. It lists the entries that can be found, each once and in the order
of the table. The other entries have no part in an extraction: their mappings
are not in its plan, and without them it puts the same attributes, leaves the
same cache and reads the same fields of its source. -/
theorem ofTable_keeps_first {σ κ : Type} [Sink κ] (table : List Category) :
    (∀ name, (ofTable table).category? name = table.find? (·.name == name)) ∧
      (∀ name phase, (ofTable table).mappings name phase =
        ((table.find? (·.name == name)).map (·.mappings phase)).getD []) ∧
      (ofTable table).categories = firsts table ∧
      (firsts table).Sublist table ∧
      ((firsts table).map (·.name)).Nodup ∧
      (∀ category, category ∈ firsts table ↔
        ∃ name, (ofTable table).category? name = some category) ∧
      (∀ settings operation phase,
        Extractor.plan ⟨ofTable table, settings⟩ operation phase = operation.mappings phase ++
          ((table.find? (·.name == operation.category)).map (·.mappings phase)).getD []) ∧
      ∀ settings operation phase (source : Source σ) (world : World σ) (sink : κ),
        Extractor.extract ⟨ofTable table, settings⟩ operation phase source world sink =
          Extractor.extract ⟨ofTable (firsts table), settings⟩ operation phase source world
            sink := by
  refine ⟨category?_ofTable table, mappings_ofTable table, categories_ofTable table,
    firsts_sublist table, firsts_nodup table, ?_, plan_ofTable table, ?_⟩
  · intro category
    simp only [category?_ofTable]
    exact mem_firsts_iff
  · intro settings operation phase source world sink
    have hplan : Extractor.plan ⟨ofTable table, settings⟩ operation phase =
        Extractor.plan ⟨ofTable (firsts table), settings⟩ operation phase := by
      rw [plan_ofTable, plan_ofTable, find?_firsts]
    simp only [Extractor.extract, hplan]

end Registry

end Telemetry.Mapping
