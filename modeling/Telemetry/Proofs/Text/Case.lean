import Mathlib.Data.List.Basic
import Telemetry.Text.Blank
import Telemetry.Text.Case

/-!
# Lower case forms

White space, plus signs and ASCII digits are what they are in lower case, and
no other character starts with one of them there (`lower_settled`). So where a
text in lower case starts with such characters, it starts with them anyway
(`flatMap_lower_eq_append`). The letters `k` and `m` come from their two cases,
and `k` comes from U+212A besides, the sign for kelvin.
-/

namespace Telemetry.Text

/-- Neither an ASCII character nor white space. -/
def Foreign (c : Char) : Prop :=
  0x80 ≤ c.toNat ∧ isBlank c = false

instance (c : Char) : Decidable (Foreign c) :=
  inferInstanceAs (Decidable (_ ∧ _))

def Settled (c : Char) : Prop :=
  isBlank c = true ∨ c = '+' ∨ c.isDigit = true

instance (c : Char) : Decidable (Settled c) :=
  inferInstanceAs (Decidable (_ ∨ _))

theorem not_settled_of_foreign {c : Char} (h : Foreign c) : ¬ Settled c := by
  obtain ⟨hhigh, hsolid⟩ := h
  rintro (hblank | rfl | hdigit)
  · exact Bool.false_ne_true (hsolid.symm.trans hblank)
  · exact absurd hhigh (by decide)
  · have hlow : c.toNat ≤ 57 := by
      simpa [UInt32.le_iff_toNat_le] using (Bool.and_eq_true_iff.mp hdigit).2
    omega

-- ---------------------------------------------------------------------------
-- One character
-- ---------------------------------------------------------------------------

/-- The shifts lead from foreign characters to foreign ones, but for one that
leads to `k`. -/
theorem lowerShifts_foreign : ∀ entry ∈ lowerShifts, ∀ k < entry.1.last + 1 - entry.1.first,
    (entry.1.first + k = 0x212a ∧ entry.2 = -8383) ∨
      (Foreign (Char.ofNat (entry.1.first + k)) ∧
        Foreign (Char.ofNat (((entry.1.first + k : Nat) : Int) + entry.2).toNat)) := by
  decide +kernel

theorem toLower_ascii {c : Char} (low : c.toNat < 0x80) :
    (c.toLower = c ∨ (¬ Settled c ∧ ¬ Settled c.toLower)) ∧
      (c.toLower = 'k' → c = 'k' ∨ c = 'K') ∧ (c.toLower = 'm' → c = 'm' ∨ c = 'M') := by
  obtain ⟨n, hn, rfl⟩ : ∃ n < 0x80, Char.ofNat n = c := ⟨c.toNat, low, c.ofNat_toNat⟩
  clear low
  revert n
  decide +kernel

inductive LowerForm : Char → List Char → Prop
  | ascii {c : Char} (low : c.toNat < 0x80) : LowerForm c [c.toLower]
  | same {c : Char} (high : 0x80 ≤ c.toNat) : LowerForm c [c]
  | foreign {c d : Char} (source : Foreign c) (form : Foreign d) : LowerForm c [d]
  | dotted : LowerForm '\u0130' ['i', '\u0307']
  | kelvin : LowerForm '\u212a' ['k']

theorem lowerForm (c : Char) : LowerForm c (lower c) := by
  unfold lower
  split
  · exact .ascii ‹_›
  · rename_i hhigh
    split
    · rename_i hdotted
      obtain rfl : c = '\u0130' := Char.toNat_inj.mp hdotted
      exact .dotted
    · unfold lowerShift
      split
      · rename_i span shift hfind
        obtain ⟨hfirst, hlast⟩ : span.first ≤ c.toNat ∧ c.toNat ≤ span.last := by
          have hcovers := List.find?_some hfind
          simp only [CodeSpan.covers, Bool.and_eq_true, decide_eq_true_eq] at hcovers
          exact hcovers.1
        have hfacts := lowerShifts_foreign _ (List.mem_of_find?_eq_some hfind)
          (c.toNat - span.first) (by dsimp only; omega)
        simp only [Nat.add_sub_cancel' hfirst, Char.ofNat_toNat] at hfacts
        rcases hfacts with ⟨hkelvin, rfl⟩ | ⟨hsource, hform⟩
        · obtain rfl : c = '\u212a' := Char.toNat_inj.mp hkelvin
          exact .kelvin
        · exact .foreign hsource hform
      · have hback : Char.ofNat ((c.toNat : Int) + 0).toNat = c := by simp
        rw [hback]
        exact .same (Nat.not_lt.mp hhigh)

theorem lower_ne_nil (c : Char) : lower c ≠ [] := by
  have hform := lowerForm c
  generalize lower c = form at hform
  cases hform <;> exact List.cons_ne_nil _ _

theorem lower_of_settled {c : Char} (h : Settled c) : lower c = [c] := by
  have hform := lowerForm c
  generalize lower c = form at hform
  cases hform with
  | ascii low => rw [(toLower_ascii low).1.resolve_right fun other => other.1 h]
  | same high => rfl
  | foreign source form => exact absurd h (not_settled_of_foreign source)
  | dotted => exact absurd h (by decide)
  | kelvin => exact absurd h (by decide)

theorem lower_settled {c d : Char} {rest : List Char} (h : lower d = c :: rest)
    (settled : Settled c) : d = c ∧ rest = [] := by
  have hform := lowerForm d
  rw [h] at hform
  cases hform with
  | ascii low => exact ⟨((toLower_ascii low).1.resolve_right fun other => other.2 settled).symm, rfl⟩
  | same high => exact ⟨rfl, rfl⟩
  | foreign source form => exact absurd settled (not_settled_of_foreign form)
  | dotted => exact absurd settled (by decide)
  | kelvin => exact absurd settled (by decide)

/-- Only one character that is not ASCII becomes a single one that is. -/
theorem of_lower_ascii {c d : Char} (h : lower c = [d]) (low : d.toNat < 0x80) :
    (c.toNat < 0x80 ∧ c.toLower = d) ∨ (c = '\u212a' ∧ d = 'k') := by
  have hform := lowerForm c
  rw [h] at hform
  cases hform with
  | ascii hc => exact .inl ⟨hc, rfl⟩
  | same high => omega
  | foreign source form => exact absurd form.1 (Nat.not_le.mpr low)
  | kelvin => exact .inr ⟨rfl, rfl⟩

theorem lower_eq_k {c : Char} : lower c = ['k'] ↔ c ∈ ['k', 'K', '\u212a'] := by
  simp only [List.mem_cons, List.not_mem_nil, or_false]
  constructor
  · intro h
    rcases of_lower_ascii h (by decide) with ⟨low, hk⟩ | ⟨hkelvin, -⟩
    · exact ((toLower_ascii low).2.1 hk).imp_right .inl
    · exact .inr (.inr hkelvin)
  · rintro (rfl | rfl | rfl) <;> decide

theorem lower_eq_m {c : Char} : lower c = ['m'] ↔ c ∈ ['m', 'M'] := by
  simp only [List.mem_cons, List.not_mem_nil, or_false]
  constructor
  · intro h
    rcases of_lower_ascii h (by decide) with ⟨low, hm⟩ | ⟨-, hk⟩
    · exact (toLower_ascii low).2.2 hm
    · cases hk
  · rintro (rfl | rfl) <;> decide

-- ---------------------------------------------------------------------------
-- Texts
-- ---------------------------------------------------------------------------

theorem flatMap_lower_settled {cs : List Char} (h : ∀ c ∈ cs, Settled c) :
    cs.flatMap lower = cs := by
  induction cs with
  | nil => rfl
  | cons c cs ih =>
    rw [List.flatMap_cons, lower_of_settled (h c List.mem_cons_self),
      ih fun d hd => h d (List.mem_cons_of_mem _ hd)]
    rfl

theorem flatMap_lower_eq_nil {cs : List Char} (h : cs.flatMap lower = []) : cs = [] := by
  rcases cs with _ | ⟨c, cs⟩
  · rfl
  · rw [List.flatMap_cons] at h
    exact absurd (List.append_eq_nil_iff.mp h).1 (lower_ne_nil c)

theorem flatMap_lower_eq_append {cs first rest : List Char} (settled : ∀ c ∈ first, Settled c)
    (h : cs.flatMap lower = first ++ rest) :
    ∃ later, cs = first ++ later ∧ later.flatMap lower = rest := by
  induction first generalizing cs with
  | nil => exact ⟨cs, rfl, h⟩
  | cons c first ih =>
    rcases cs with _ | ⟨d, cs⟩
    · cases h
    obtain ⟨e, form, hform⟩ := List.exists_cons_of_ne_nil (lower_ne_nil d)
    rw [List.flatMap_cons, hform, List.cons_append, List.cons_append] at h
    obtain ⟨rfl, htail⟩ := List.cons.inj h
    obtain ⟨rfl, rfl⟩ := lower_settled hform (settled e List.mem_cons_self)
    obtain ⟨later, rfl, hlater⟩ := ih (fun c hc => settled c (List.mem_cons_of_mem _ hc)) htail
    exact ⟨later, rfl, hlater⟩

theorem flatMap_lower_eq_singleton {cs : List Char} {d : Char} (h : cs.flatMap lower = [d]) :
    ∃ c, cs = [c] ∧ lower c = [d] := by
  rcases cs with _ | ⟨c, cs⟩
  · cases h
  obtain ⟨e, form, hform⟩ := List.exists_cons_of_ne_nil (lower_ne_nil c)
  rw [List.flatMap_cons, hform, List.cons_append] at h
  obtain ⟨rfl, htail⟩ := List.cons.inj h
  obtain ⟨rfl, hrest⟩ := List.append_eq_nil_iff.mp htail
  exact ⟨c, by rw [flatMap_lower_eq_nil hrest], hform⟩

end Telemetry.Text
