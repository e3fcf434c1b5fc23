import Mathlib
import Telemetry.Proofs.Entries
import Telemetry.Proofs.Extract.Trace
import Telemetry.Proofs.Text.Utf8

/-!
# What records keep

Records are entries in ascending byte order of their keys, each key once; a
value that is put takes the place of the one before it, and no key goes away.
After any puts each key has the value that was put under it last, or its
earlier one (`get?_putAll`), and the same puts once more change nothing
(`putAll_twice`). A list of key-values grows by the puts as they come.
-/

namespace Telemetry.Text

-- ---------------------------------------------------------------------------
-- Byte order
-- ---------------------------------------------------------------------------

variable {a b c : String}

theorem ofString_injective : Function.Injective Utf8.ofString := by
  intro a b h
  rw [Utf8.ofString_eq_encode, Utf8.ofString_eq_encode] at h
  have hread := congrArg Utf8.toString? h
  simpa [Utf8.toString?_encode] using hread

theorem before_iff : before a b = true ↔ Utf8.ofString a < Utf8.ofString b := by
  simp [before]

theorem not_before_self (a : String) : ¬ before a a = true := by
  simp [before_iff]

theorem before_trans (h : before a b = true) (h' : before b c = true) : before a c = true := by
  rw [before_iff] at *
  exact List.lt_trans h h'

theorem before_of_not (hne : a ≠ b) (h : ¬ before a b = true) : before b a = true := by
  by_contra h'
  rw [before_iff, List.not_lt] at h h'
  exact hne (ofString_injective (List.le_antisymm h' h))

end Telemetry.Text

namespace Telemetry.Sorted

open Text (before)

-- ---------------------------------------------------------------------------
-- Sorted entries
-- ---------------------------------------------------------------------------

variable {α : Type} {entries : List (String × α)}

def Ascending (entries : List (String × α)) : Prop :=
  entries.Pairwise fun first second => before first.1 second.1 = true

theorem get?_put (entries : List (String × α)) (key : String) (value : α) (other : String) :
    Entries.get? (put entries key value) other =
      if key = other then some value else Entries.get? entries other := by
  induction entries with
  | nil => rfl
  | cons head rest ih =>
    obtain ⟨k, a⟩ := head
    simp only [put]
    split
    · rename_i hk
      subst hk
      simp only [Entries.get?]
      split <;> rfl
    · rename_i hk
      split
      · rfl
      · simp only [Entries.get?, ih]
        by_cases hother : k = other
        · subst hother
          simp [Ne.symm hk]
        · simp [hother]

theorem mem_put {key : String} {value : α} {other : String × α}
    (h : other ∈ put entries key value) : other.1 = key ∨ other ∈ entries := by
  induction entries with
  | nil => exact .inl (congrArg Prod.fst (List.mem_singleton.mp h))
  | cons head rest ih =>
    obtain ⟨k, a⟩ := head
    simp only [put] at h
    split at h
    · rcases List.mem_cons.mp h with rfl | h
      · exact .inl rfl
      · exact .inr (List.mem_cons_of_mem _ h)
    · split at h
      · rcases List.mem_cons.mp h with rfl | h
        · exact .inl rfl
        · exact .inr h
      · rcases List.mem_cons.mp h with rfl | h
        · exact .inr (List.mem_cons_self ..)
        · exact (ih h).imp_right (List.mem_cons_of_mem _)

theorem Ascending.put (h : Ascending entries) (key : String) (value : α) :
    Ascending (put entries key value) := by
  induction entries with
  | nil => simp [Ascending, Sorted.put]
  | cons head rest ih =>
    obtain ⟨k, a⟩ := head
    obtain ⟨hhead, hrest⟩ := List.pairwise_cons.mp h
    simp only [Sorted.put]
    split
    · rename_i hk
      subst hk
      exact List.pairwise_cons.mpr ⟨hhead, hrest⟩
    · rename_i hne
      split
      · rename_i hbefore
        refine List.pairwise_cons.mpr ⟨?_, h⟩
        intro other hm
        rcases List.mem_cons.mp hm with rfl | hm
        · exact hbefore
        · exact Text.before_trans hbefore (hhead other hm)
      · rename_i hafter
        refine List.pairwise_cons.mpr ⟨?_, ih hrest⟩
        intro other hm
        rcases mem_put hm with hkey | hm
        · rw [hkey]
          exact Text.before_of_not (Ne.symm hne) hafter
        · exact hhead other hm

theorem forall₂_put {R : String × α → String × α → Prop}
    (keys : ∀ entry entry', R entry entry' → entry'.1 = entry.1) {entries' : List (String × α)}
    (h : List.Forall₂ R entries entries') {key : String} {value value' : α}
    (hput : R (key, value) (key, value')) :
    List.Forall₂ R (put entries key value) (put entries' key value') := by
  induction h with
  | nil => exact .cons hput .nil
  | @cons head head' rest rest' hhead hrest ih =>
    obtain ⟨k, a⟩ := head
    obtain ⟨k', a'⟩ := head'
    obtain rfl : k' = k := keys _ _ hhead
    simp only [put]
    split
    · rename_i hk
      subst hk
      exact .cons hput hrest
    · split
      · exact .cons hput (.cons hhead hrest)
      · exact .cons hhead ih

theorem Ascending.nodup (h : Ascending entries) : (entries.map (·.1)).Nodup := by
  refine List.pairwise_map.mpr (h.imp ?_)
  intro first second hbefore heq
  rw [heq] at hbefore
  exact Text.not_before_self _ hbefore

theorem Ascending.ext {others : List (String × α)} (h : Ascending entries) (h' : Ascending others)
    (hsame : ∀ key, Entries.get? entries key = Entries.get? others key) : entries = others := by
  have hirrefl : Std.Irrefl fun first second : String × α => before first.1 second.1 = true :=
    ⟨fun entry => Text.not_before_self entry.1⟩
  have hantisymm : Std.Antisymm fun first second : String × α => before first.1 second.1 = true :=
    ⟨fun _ _ h h' => absurd (Text.before_trans h h') (Text.not_before_self _)⟩
  refine List.Pairwise.eq_of_mem_iff h h' ?_
  rintro ⟨key, value⟩
  rw [Entries.mem_iff_get? h.nodup, Entries.mem_iff_get? h'.nodup, hsame]

end Telemetry.Sorted

namespace Telemetry.Attribute

open Extract (Put putAll)

variable {records : Records}

-- ---------------------------------------------------------------------------
-- Records
-- ---------------------------------------------------------------------------

def Records.Ordered (records : Records) : Prop :=
  Sorted.Ascending records.entries

def Records.keys (records : Records) : List String :=
  records.entries.map (·.1)

theorem Records.get?_eq (records : Records) (key : String) :
    records.get? key = Entries.get? records.entries key := by
  obtain ⟨entries⟩ := records
  simp only [Records.get?]
  induction entries with
  | nil => rfl
  | cons head rest ih =>
    obtain ⟨k, a⟩ := head
    simp only [List.find?_cons, Entries.get?]
    by_cases hk : k = key
    · simp [hk]
    · have hb : (k == key) = false := by simpa using hk
      simpa only [hb, if_neg hk] using ih

theorem Records.ext (h : records.Ordered) {others : Records} (h' : others.Ordered)
    (hsame : ∀ key, records.get? key = others.get? key) : records = others := by
  have hentries : records.entries = others.entries := by
    refine Sorted.Ascending.ext h h' ?_
    simpa only [Records.get?_eq] using hsame
  cases records
  cases others
  exact congrArg Records.mk hentries

theorem Records.ordered_insert (h : records.Ordered) (key : String) (value : Value) :
    (records.insert key value).Ordered :=
  Sorted.Ascending.put h key value

theorem Records.get?_insert (records : Records) (key : String) (value : Value) (other : String) :
    (records.insert key value).get? other =
      if key = other then some value else records.get? other := by
  rw [Records.get?_eq, Records.get?_eq]
  exact Sorted.get?_put records.entries key value other

theorem Records.mem_keys (records : Records) (key : String) :
    key ∈ records.keys ↔ records.get? key ≠ none := by
  rw [Records.get?_eq, ne_eq, Entries.get?_eq_none_iff, not_not]
  rfl

theorem put_records (records : Records) (key : String) (value : Value) :
    put records key value = records.insert key value := by
  cases value <;> rfl

theorem put_keyValues (list : KeyValues) (key : String) (value : Value) :
    put list key value = list.push key value := by
  cases value <;> rfl

-- ---------------------------------------------------------------------------
-- Many puts
-- ---------------------------------------------------------------------------

theorem putAll_insert (records : Records) (put : Put) (rest : List Put) :
    putAll records (put :: rest) = putAll (records.insert put.1 put.2) rest :=
  congrArg (putAll · rest) (put_records records put.1 put.2)

theorem putAll_push (list : KeyValues) (put : Put) (rest : List Put) :
    putAll list (put :: rest) = putAll (list.push put.1 put.2) rest :=
  congrArg (putAll · rest) (put_keyValues list put.1 put.2)

theorem ordered_putAll (h : records.Ordered) (puts : List Put) : (putAll records puts).Ordered := by
  induction puts generalizing records with
  | nil => exact h
  | cons put rest ih =>
    rw [putAll_insert]
    exact ih (Records.ordered_insert h put.1 put.2)

theorem get?_putAll (records : Records) (puts : List Put) (key : String) :
    (putAll records puts).get? key = (Entries.last? puts key).or (records.get? key) := by
  induction puts generalizing records with
  | nil => rfl
  | cons put rest ih =>
    have hlast : Entries.last? (put :: rest) key =
        (Entries.last? rest key).or (if put.1 = key then some put.2 else none) :=
      Entries.last?_append [put] rest key
    rw [putAll_insert, ih, Records.get?_insert, hlast, Option.or_assoc]
    split <;> rfl

theorem mem_keys_putAll (records : Records) (puts : List Put) (key : String) :
    key ∈ (putAll records puts).keys ↔ key ∈ puts.map (·.1) ∨ key ∈ records.keys := by
  rw [Records.mem_keys, get?_putAll, ne_eq, Option.or_eq_none_iff, not_and_or,
    Entries.last?_eq_none_iff, not_not, Records.mem_keys]

theorem forall₂_putAll {R : Put → Put → Prop} (keys : ∀ put put', R put put' → put'.1 = put.1)
    {records records' : Records} (h : List.Forall₂ R records.entries records'.entries)
    {puts puts' : List Put} (hputs : List.Forall₂ R puts puts') :
    List.Forall₂ R (putAll records puts).entries (putAll records' puts').entries := by
  induction hputs generalizing records records' with
  | nil => exact h
  | @cons put put' _ _ hput _ ih =>
    rw [putAll_insert, putAll_insert]
    obtain ⟨key, value⟩ := put
    obtain ⟨key', value'⟩ := put'
    obtain rfl : key' = key := keys _ _ hput
    exact ih (Sorted.forall₂_put keys h hput)

theorem putAll_twice (h : records.Ordered) (puts : List Put) :
    putAll (putAll records puts) puts = putAll records puts := by
  refine Records.ext (ordered_putAll (ordered_putAll h puts) puts) (ordered_putAll h puts) ?_
  intro key
  rw [get?_putAll, get?_putAll]
  cases Entries.last? puts key <;> rfl

theorem putAll_keyValues (list : KeyValues) (puts : List Put) :
    putAll list puts = ⟨list.entries ++ puts⟩ := by
  induction puts generalizing list with
  | nil => simp [putAll]
  | cons put rest ih =>
    rw [putAll_push, ih]
    simp [KeyValues.push]

end Telemetry.Attribute
