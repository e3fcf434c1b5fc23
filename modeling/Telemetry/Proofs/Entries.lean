import Mathlib.Data.List.Basic
import Mathlib.Data.List.Induction
import Mathlib.Data.List.Nodup
import Telemetry.Entries

/-!
# Entries of a list of pairs

What comes of a list of pairs that are put: each key once, at its first place,
with its last value (`ofList_eq_lastValues`). So the value of one pair is either
lost or the one under its key (`ofList_again`, `ofList_last`). To list the entries
by the ranks of their keys changes their order and nothing else (`byRank_perm`), and
every order comes of some ranks (`exists_byRank`).
-/

namespace Telemetry.Entries

variable {κ α : Type} [DecidableEq κ]

theorem get?_append (entries others : List (κ × α)) (key : κ) :
    get? (entries ++ others) key = (get? entries key).or (get? others key) := by
  induction entries with
  | nil => rfl
  | cons head rest ih =>
    obtain ⟨k, a⟩ := head
    simp only [List.cons_append, get?]
    split
    · rfl
    · exact ih

theorem get?_eq_none_iff {entries : List (κ × α)} {key : κ} :
    get? entries key = none ↔ key ∉ entries.map (·.1) := by
  induction entries with
  | nil => simp [get?]
  | cons head rest ih =>
    obtain ⟨k, a⟩ := head
    simp only [get?, List.map_cons, List.mem_cons, not_or]
    split
    · rename_i hk
      simp [hk]
    · rename_i hk
      simp [ih, Ne.symm hk]

theorem mem_of_get? {entries : List (κ × α)} {key : κ} {value : α}
    (h : get? entries key = some value) : (key, value) ∈ entries := by
  induction entries with
  | nil => cases h
  | cons head rest ih =>
    obtain ⟨k, a⟩ := head
    simp only [get?] at h
    split at h
    · rename_i hk
      cases h
      exact hk ▸ List.mem_cons_self
    · exact List.mem_cons_of_mem _ (ih h)

-- ---------------------------------------------------------------------------
-- Keys that are all different
-- ---------------------------------------------------------------------------

theorem put_new {entries : List (κ × α)} {key : κ} (h : key ∉ entries.map (·.1)) (value : α) :
    put entries key value = entries ++ [(key, value)] := by
  induction entries with
  | nil => rfl
  | cons head rest ih =>
    obtain ⟨k, a⟩ := head
    simp only [List.map_cons, List.mem_cons, not_or] at h
    rw [put, if_neg (fun hk => h.1 hk.symm), ih h.2, List.cons_append]

theorem foldl_put_nodup (pairs entries : List (κ × α))
    (h : ((entries ++ pairs).map (·.1)).Nodup) :
    pairs.foldl (fun entries pair => put entries pair.1 pair.2) entries = entries ++ pairs := by
  induction pairs generalizing entries with
  | nil => simp
  | cons pair pairs ih =>
    obtain ⟨k, a⟩ := pair
    have hk : k ∉ entries.map (·.1) := by
      rw [List.map_append, List.nodup_append] at h
      exact fun hmem => h.2.2 k hmem k (by simp) rfl
    rw [List.foldl_cons, put_new hk, ih _ (by simpa using h)]
    simp

theorem mem_iff_get? {entries : List (κ × α)} (h : (entries.map (·.1)).Nodup) {key : κ}
    {value : α} : (key, value) ∈ entries ↔ get? entries key = some value := by
  induction entries with
  | nil => simp [get?]
  | cons head rest ih =>
    obtain ⟨k, a⟩ := head
    obtain ⟨hk, hrest⟩ := List.nodup_cons.mp h
    simp only [get?, List.mem_cons, Prod.mk.injEq]
    split
    · rename_i heq
      subst heq
      have hnot : (k, value) ∉ rest := fun hm => hk (List.mem_map.mpr ⟨_, hm, rfl⟩)
      simp [hnot, eq_comm]
    · rename_i hne
      simp [ih hrest, Ne.symm hne]

theorem ofList_nodup {pairs : List (κ × α)} (h : (pairs.map (·.1)).Nodup) :
    ofList pairs = pairs :=
  foldl_put_nodup pairs [] h

-- ---------------------------------------------------------------------------
-- Entries by rank
-- ---------------------------------------------------------------------------

omit [DecidableEq κ] in
theorem place_perm (rank : κ → Nat) (entry : κ × α) (entries : List (κ × α)) :
    (place rank entry entries).Perm (entry :: entries) := by
  induction entries with
  | nil => exact .refl _
  | cons other rest ih =>
    rw [place]
    split
    · exact .refl _
    · exact (ih.cons other).trans (.swap ..)

omit [DecidableEq κ] in
theorem byRank_perm (rank : κ → Nat) (entries : List (κ × α)) :
    (byRank rank entries).Perm entries := by
  induction entries with
  | nil => exact .refl _
  | cons entry rest ih => exact (place_perm rank entry _).trans (ih.cons entry)

omit [DecidableEq κ] in
theorem pairwise_place {rank : κ → Nat} {entries : List (κ × α)}
    (h : entries.Pairwise fun first second => rank first.1 ≤ rank second.1) (entry : κ × α) :
    (place rank entry entries).Pairwise fun first second => rank first.1 ≤ rank second.1 := by
  induction entries with
  | nil => exact List.pairwise_singleton ..
  | cons other rest ih =>
    obtain ⟨hother, hrest⟩ := List.pairwise_cons.mp h
    rw [place]
    split
    · rename_i hle
      refine List.pairwise_cons.mpr ⟨fun later hm => ?_, h⟩
      rcases List.mem_cons.mp hm with rfl | hm
      · exact hle
      · exact Nat.le_trans hle (hother later hm)
    · rename_i hlt
      refine List.pairwise_cons.mpr ⟨fun later hm => ?_, ih hrest⟩
      rcases List.mem_cons.mp ((place_perm rank entry rest).mem_iff.mp hm) with rfl | hm
      · exact Nat.le_of_not_le hlt
      · exact hother later hm

omit [DecidableEq κ] in
theorem pairwise_byRank (rank : κ → Nat) (entries : List (κ × α)) :
    (byRank rank entries).Pairwise fun first second => rank first.1 ≤ rank second.1 := by
  induction entries with
  | nil => exact .nil
  | cons entry rest ih => exact pairwise_place ih entry

/-- Every order of entries whose keys are all different is that of some ranks. -/
theorem exists_byRank {entries others : List (κ × α)} (h : others.Perm entries)
    (nodup : (others.map (·.1)).Nodup) : ∃ rank, byRank rank entries = others := by
  refine ⟨fun key => (others.map (·.1)).idxOf key, ?_⟩
  refine List.Perm.eq_of_pairwise ?_ (pairwise_byRank _ entries) ?_
    ((byRank_perm _ entries).trans h.symm)
  · intro first second hfirst hsecond hle hge
    have hfirst : first ∈ others := h.mem_iff.mpr ((byRank_perm _ entries).mem_iff.mp hfirst)
    have hkeys : first.1 = second.1 :=
      (List.idxOf_inj (List.mem_map_of_mem hfirst)).mp (Nat.le_antisymm hle hge)
    exact List.inj_on_of_nodup_map nodup hfirst hsecond hkeys
  · refine List.pairwise_iff_getElem.mpr fun i j hi hj hij => ?_
    have hplace (k : Nat) (hk : k < others.length) :
        (others.map (·.1)).idxOf others[k].1 = k := by
      have hk' : k < (others.map (·.1)).length := by rwa [List.length_map]
      have hidx := nodup.idxOf_getElem k hk'
      rwa [List.getElem_map] at hidx
    rw [hplace i hi, hplace j hj]
    exact Nat.le_of_lt hij

omit [DecidableEq κ] in
@[simp] theorem byRank_level (entries : List (κ × α)) : byRank (fun _ => 0) entries = entries := by
  induction entries with
  | nil => rfl
  | cons entry rest ih =>
    rw [byRank, ih]
    cases rest <;> rfl

omit [DecidableEq κ] in
theorem map_place {β : Type} (f : α → β) (rank : κ → Nat) (entry : κ × α)
    (entries : List (κ × α)) :
    (place rank entry entries).map (Prod.map id f) =
      place rank (Prod.map id f entry) (entries.map (Prod.map id f)) := by
  induction entries with
  | nil => rfl
  | cons other rest ih =>
    simp only [place, List.map_cons, Prod.map_fst, id_eq]
    split
    · rfl
    · rw [List.map_cons, ih]

omit [DecidableEq κ] in
theorem map_byRank {β : Type} (f : α → β) (rank : κ → Nat) (entries : List (κ × α)) :
    (byRank rank entries).map (Prod.map id f) = byRank rank (entries.map (Prod.map id f)) := by
  induction entries with
  | nil => rfl
  | cons entry rest ih => rw [byRank, map_place, ih, List.map_cons, byRank]

/-- Where the keys are all different, the order of the entries makes no
difference to what a key leads to. -/
theorem get?_perm {entries others : List (κ × α)} (h : entries.Perm others)
    (nodup : (entries.map (·.1)).Nodup) (key : κ) : get? entries key = get? others key := by
  ext value
  rw [← mem_iff_get? nodup, ← mem_iff_get? ((h.map _).nodup_iff.mp nodup), h.mem_iff]

-- ---------------------------------------------------------------------------
-- First places and last values
-- ---------------------------------------------------------------------------

/-- Each key where it comes first, with the value it comes with last. -/
def lastValues (pairs : List (κ × α)) : List (κ × α) :=
  (pairs.map (·.1)).eraseDups.filterMap fun key => (get? pairs.reverse key).map (key, ·)

def last? (pairs : List (κ × α)) (key : κ) : Option α :=
  get? pairs.reverse key

theorem last?_append (first second : List (κ × α)) (key : κ) :
    last? (first ++ second) key = (last? second key).or (last? first key) := by
  simp only [last?, List.reverse_append, get?_append]

theorem last?_eq_none_iff {pairs : List (κ × α)} {key : κ} :
    last? pairs key = none ↔ key ∉ pairs.map (·.1) := by
  simp [last?, get?_eq_none_iff]

theorem ofList_concat (pairs : List (κ × α)) (key : κ) (value : α) :
    ofList (pairs ++ [(key, value)]) = put (ofList pairs) key value := by
  simp [ofList]

theorem get?_ofList (pairs : List (κ × α)) (key : κ) :
    get? (ofList pairs) key = get? pairs.reverse key := by
  induction pairs using List.reverseRecOn with
  | nil => rfl
  | append_singleton pairs pair ih =>
    obtain ⟨k, a⟩ := pair
    rw [ofList_concat, get?_put, ih, List.reverse_append]
    rfl

theorem keys_ofList (pairs : List (κ × α)) :
    (ofList pairs).map (·.1) = (pairs.map (·.1)).eraseDups := by
  induction pairs using List.reverseRecOn with
  | nil => rfl
  | append_singleton pairs pair ih =>
    obtain ⟨k, a⟩ := pair
    rw [ofList_concat, keys_put, ih, List.map_append, List.eraseDups_append]
    by_cases hk : k ∈ pairs.map (·.1)
    · rw [if_pos (List.mem_eraseDups.mpr hk)]
      simp [List.removeAll, hk]
    · rw [if_neg (hk ∘ List.mem_eraseDups.mp)]
      simp [List.removeAll, List.eraseDups_cons, hk]

theorem keys_nodup_ofList (pairs : List (κ × α)) : ((ofList pairs).map (·.1)).Nodup := by
  induction pairs using List.reverseRecOn with
  | nil => exact List.nodup_nil
  | append_singleton pairs pair ih =>
    obtain ⟨k, a⟩ := pair
    rw [ofList_concat, keys_put]
    split
    · exact ih
    · rename_i hk
      rw [List.nodup_append]
      refine ⟨ih, by simp, ?_⟩
      rintro key hkey other hother rfl
      rw [List.mem_singleton.mp hother] at hkey
      exact hk hkey

theorem mem_of_mem_ofList {pairs : List (κ × α)} {pair : κ × α} (h : pair ∈ ofList pairs) :
    pair ∈ pairs := by
  have hget := (mem_iff_get? (keys_nodup_ofList pairs)).mp h
  rw [get?_ofList] at hget
  exact List.mem_reverse.mp (mem_of_get? hget)

theorem filterMap_get? {entries : List (κ × α)} (h : (entries.map (·.1)).Nodup) :
    (entries.map (·.1)).filterMap (fun key => (get? entries key).map (key, ·)) = entries := by
  induction entries with
  | nil => rfl
  | cons head rest ih =>
    obtain ⟨k, a⟩ := head
    obtain ⟨hk, hrest⟩ := List.nodup_cons.mp h
    have hothers : ∀ key ∈ rest.map (·.1),
        (get? ((k, a) :: rest) key).map (key, ·) = (get? rest key).map (key, ·) := by
      intro key hkey
      rw [get?, if_neg]
      rintro rfl
      exact hk hkey
    rw [List.map_cons, List.filterMap_cons_some (by simp [get?]; rfl),
      List.filterMap_congr hothers, ih hrest]

theorem ofList_eq_lastValues (pairs : List (κ × α)) : ofList pairs = lastValues pairs := by
  rw [← filterMap_get? (keys_nodup_ofList pairs), keys_ofList]
  simp only [get?_ofList]
  rfl

example : lastValues [("a", 1), ("b", 2), ("a", 3)] = [("a", 3), ("b", 2)] := by decide

theorem mem_keys_ofList {pairs : List (κ × α)} {key : κ} :
    key ∈ (ofList pairs).map (·.1) ↔ key ∈ pairs.map (·.1) := by
  rw [keys_ofList, List.mem_eraseDups]

-- ---------------------------------------------------------------------------
-- The value of one pair
-- ---------------------------------------------------------------------------

theorem put_put (entries : List (κ × α)) (key : κ) (first second : α) :
    put (put entries key first) key second = put entries key second := by
  induction entries with
  | nil => simp [put]
  | cons head rest ih =>
    obtain ⟨k, a⟩ := head
    by_cases hk : k = key
    · simp [put, hk]
    · simp [put, hk, ih]

theorem put_comm {entries : List (κ × α)} {key other : κ} (there : key ∈ entries.map (·.1))
    (hne : other ≠ key) (value otherValue : α) :
    put (put entries key value) other otherValue =
      put (put entries other otherValue) key value := by
  induction entries with
  | nil => cases there
  | cons head rest ih =>
    obtain ⟨k, a⟩ := head
    by_cases hk : k = key
    · subst hk
      simp [put, Ne.symm hne]
    · have hrest : key ∈ rest.map (·.1) := by
        simpa [Ne.symm hk] using there
      by_cases hother : k = other
      · simp [put, hother, hne]
      · simp [put, hk, hother, ih hrest]

/-- A pair whose key comes again leaves no value behind. -/
theorem ofList_again (first second : List (κ × α)) {key : κ} (again : key ∈ second.map (·.1))
    (value other : α) :
    ofList (first ++ (key, value) :: second) = ofList (first ++ (key, other) :: second) := by
  have hlast (k : κ) : get? (first ++ (key, value) :: second).reverse k =
      get? (first ++ (key, other) :: second).reverse k := by
    by_cases hk : key = k
    · subst hk
      obtain ⟨there, hthere⟩ : ∃ there, get? second.reverse key = some there :=
        Option.ne_none_iff_exists'.mp fun h => last?_eq_none_iff.mp h again
      simp [get?_append, hthere]
    · simp [get?_append, get?, hk]
  rw [ofList_eq_lastValues, ofList_eq_lastValues, lastValues, lastValues]
  simp only [hlast, List.map_append, List.map_cons]

theorem ofList_last (first second : List (κ × α)) {key : κ} (last : key ∉ second.map (·.1))
    (value other : α) :
    ofList (first ++ (key, value) :: second) =
      put (ofList (first ++ (key, other) :: second)) key value := by
  induction second using List.reverseRecOn with
  | nil => rw [ofList_concat, ofList_concat, put_put]
  | append_singleton second pair ih =>
    obtain ⟨k, a⟩ := pair
    rw [List.map_append, List.mem_append, not_or] at last
    have hne : k ≠ key := by simpa [eq_comm] using last.2
    have happend (v : α) : first ++ (key, v) :: (second ++ [(k, a)]) =
        (first ++ (key, v) :: second) ++ [(k, a)] := by simp
    have there : key ∈ (ofList (first ++ (key, other) :: second)).map (·.1) :=
      mem_keys_ofList.mpr (by simp)
    rw [happend, happend, ofList_concat, ofList_concat, ih last.1, put_comm there hne]

end Telemetry.Entries
