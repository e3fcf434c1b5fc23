import Mathlib.Data.List.DropRight
import Telemetry.Payload.Scalar
import Telemetry.Proofs.Json.Writing

/-!
# Which texts are counts

A text is a count exactly if it is an optional sign and ASCII digits between
white space, and the number that they spell fits into 64 bits (`count?_iff`).
The text that a number is written as is the count of that number, and a text
with a character of any other kind in it is none.
-/

namespace Telemetry.Payload

open Json (Digit digitValues spelled)
open Text (isBlank)

def digitChars (ds : List Digit) : List Char :=
  ds.map fun d => Nat.digitChar d.val

/-- An optional sign and one or more digits, with the integer that they spell. -/
inductive Spells : List Char → Int → Prop where
  | bare {ds : List Digit} : ds ≠ [] → Spells (digitChars ds) (spelled 0 (digitValues ds))
  | plus {ds : List Digit} : ds ≠ [] → Spells ('+' :: digitChars ds) (spelled 0 (digitValues ds))
  | minus {ds : List Digit} : ds ≠ [] →
    Spells ('-' :: digitChars ds) (-(spelled 0 (digitValues ds) : Int))

def SpellsInteger (text : String) (i : Int) : Prop :=
  ∃ left core right, text.toList = left ++ core ++ right ∧
    (∀ c ∈ left, isBlank c = true) ∧ (∀ c ∈ right, isBlank c = true) ∧ Spells core i

-- ---------------------------------------------------------------------------
-- Signs and digits
-- ---------------------------------------------------------------------------

theorem digitChar_facts : ∀ d : Digit, (Nat.digitChar d.val).isDigit = true ∧
    isBlank (Nat.digitChar d.val) = false ∧
    (Nat.digitChar d.val).toNat - '0'.toNat = d.val := by
  decide

theorem exists_digitChar {c : Char} (h : c.isDigit = true) :
    ∃ d : Digit, Nat.digitChar d.val = c := by
  have hbounds : 48 ≤ c.toNat ∧ c.toNat ≤ 57 := by
    simpa [Char.isDigit, UInt32.le_iff_toNat_le] using h
  refine ⟨⟨c.toNat - 48, by omega⟩, Char.toNat_inj.mp ?_⟩
  rw [Nat.toNat_digitChar_of_lt_ten (by dsimp only; omega)]
  dsimp only
  omega

theorem exists_digitChars {cs : List Char} (h : ∀ c ∈ cs, c.isDigit = true) :
    ∃ ds, digitChars ds = cs := by
  induction cs with
  | nil => exact ⟨[], rfl⟩
  | cons c cs ih =>
    obtain ⟨d, rfl⟩ := exists_digitChar (h c List.mem_cons_self)
    obtain ⟨ds, rfl⟩ := ih fun c hc => h c (List.mem_cons_of_mem _ hc)
    exact ⟨d :: ds, rfl⟩

theorem ofDigitChars_digitChars (ds : List Digit) (n : Nat) :
    Nat.ofDigitChars 10 (digitChars ds) n = spelled n (digitValues ds) := by
  induction ds generalizing n with
  | nil => rfl
  | cons d ds ih =>
    rw [digitChars, List.map_cons, Nat.ofDigitChars_cons, ← digitChars, ih, (digitChar_facts d).2.2,
      Nat.mul_comm]
    rfl

theorem natural?_digitChars {ds : List Digit} (h : ds ≠ []) :
    Text.natural? (digitChars ds) = some (spelled 0 (digitValues ds)) := by
  have hdigits : (digitChars ds).all Char.isDigit = true := by
    simp only [digitChars, List.all_map, List.all_eq_true, Function.comp_apply]
    exact fun d _ => (digitChar_facts d).1
  rw [Text.natural?, hdigits, ofDigitChars_digitChars, if_neg (by simpa [digitChars] using h)]

theorem natural?_eq_some_iff {cs : List Char} {n : Nat} :
    Text.natural? cs = some n ↔
      ∃ ds, ds ≠ [] ∧ digitChars ds = cs ∧ spelled 0 (digitValues ds) = n := by
  constructor
  · intro h
    have hdigits : ∀ c ∈ cs, c.isDigit = true := by
      intro c hc
      by_contra hother
      have hall : cs.all Char.isDigit = false := List.all_eq_false.mpr ⟨c, hc, hother⟩
      simp [Text.natural?, hall] at h
    obtain ⟨ds, rfl⟩ := exists_digitChars hdigits
    have hne : ds ≠ [] := by
      rintro rfl
      cases h
    exact ⟨ds, hne, rfl, Option.some.inj ((natural?_digitChars hne).symm.trans h)⟩
  · rintro ⟨ds, hne, rfl, rfl⟩
    exact natural?_digitChars hne

theorem digitChars_ne_cons {c : Char} (h : c.isDigit = false) (ds : List Digit) (cs : List Char) :
    digitChars ds ≠ c :: cs := by
  cases ds with
  | nil => exact nofun
  | cons d ds =>
    intro heq
    obtain ⟨rfl, -⟩ := List.cons.inj heq
    exact Bool.false_ne_true (h.symm.trans (digitChar_facts d).1)

theorem unsigned?_digitChars {ds : List Digit} (h : ds ≠ []) :
    Text.unsigned? (digitChars ds) = some (spelled 0 (digitValues ds)) := by
  rw [Text.unsigned?.eq_2 _ (digitChars_ne_cons rfl ds), natural?_digitChars h]

theorem signed?_minus (cs : List Char) :
    Text.signed? ('-' :: cs) = (Text.natural? cs).map fun n : Nat => -(n : Int) := by
  rw [Text.signed?]
  cases Text.natural? cs <;> rfl

theorem signed?_unsigned {cs : List Char} (h : ∀ ds, cs ≠ '-' :: ds) :
    Text.signed? cs = (Text.unsigned? cs).map fun n : Nat => (n : Int) := by
  rw [Text.signed?.eq_2 _ h]
  cases Text.unsigned? cs <;> rfl

theorem signed?_eq_some_iff {cs : List Char} {i : Int} :
    Text.signed? cs = some i ↔ Spells cs i := by
  constructor
  · intro h
    by_cases hminus : ∃ ds, cs = '-' :: ds
    · obtain ⟨cs, rfl⟩ := hminus
      rw [signed?_minus] at h
      obtain ⟨n, hn, rfl⟩ := Option.map_eq_some_iff.mp h
      obtain ⟨ds, hne, rfl, rfl⟩ := natural?_eq_some_iff.mp hn
      exact .minus hne
    · rw [signed?_unsigned fun ds heq => hminus ⟨ds, heq⟩] at h
      obtain ⟨n, hn, rfl⟩ := Option.map_eq_some_iff.mp h
      unfold Text.unsigned? at hn
      split at hn
      · obtain ⟨ds, hne, rfl, rfl⟩ := natural?_eq_some_iff.mp hn
        exact .plus hne
      · obtain ⟨ds, hne, rfl, rfl⟩ := natural?_eq_some_iff.mp hn
        exact .bare hne
  · intro h
    cases h with
    | @bare ds hne =>
      rw [signed?_unsigned (digitChars_ne_cons rfl ds), unsigned?_digitChars hne]
      rfl
    | plus hne =>
      rw [signed?_unsigned (by simp), Text.unsigned?, natural?_digitChars hne]
      rfl
    | minus hne =>
      rw [signed?_minus, natural?_digitChars hne]
      rfl

section
variable {cs core : List Char} {text : String} {i : Int}

theorem Spells.ne_nil (h : Spells core i) : core ≠ [] := by
  cases h with
  | bare hne => exact fun h => hne (List.map_eq_nil_iff.mp h)
  | _ => exact List.cons_ne_nil _ _

def spellsPart (c : Char) : Bool :=
  c == '+' || c == '-' || c.isDigit

theorem Spells.parts (h : Spells core i) : ∀ c ∈ core, spellsPart c = true := by
  have hdigits {ds : List Digit} : ∀ c ∈ digitChars ds, spellsPart c = true := by
    intro c hc
    obtain ⟨d, -, rfl⟩ := List.mem_map.mp hc
    exact Bool.or_eq_true_iff.mpr (.inr (digitChar_facts d).1)
  cases h with
  | bare => exact hdigits
  | plus => exact List.forall_mem_cons.mpr ⟨by decide, hdigits⟩
  | minus => exact List.forall_mem_cons.mpr ⟨by decide, hdigits⟩

theorem not_isBlank_of_spellsPart {c : Char} (h : spellsPart c = true) : isBlank c = false := by
  simp only [spellsPart, Bool.or_eq_true, beq_iff_eq] at h
  rcases h with (rfl | rfl) | h
  · decide
  · decide
  · obtain ⟨d, rfl⟩ := exists_digitChar h
    exact (digitChar_facts d).2.1

-- ---------------------------------------------------------------------------
-- White space
-- ---------------------------------------------------------------------------

theorem strip_surrounded {left right : List Char} (hleft : ∀ c ∈ left, isBlank c = true)
    (hright : ∀ c ∈ right, isBlank c = true) (hne : core ≠ [])
    (solid : ∀ c ∈ core, isBlank c = false) : Text.strip (left ++ core ++ right) = core := by
  have hkept (cs : List Char) (rest : List Char) (hne : cs ≠ [])
      (solid : ∀ c ∈ cs, isBlank c = false) : (cs ++ rest).dropWhile isBlank = cs ++ rest := by
    obtain ⟨c, cs, rfl⟩ := List.exists_cons_of_ne_nil hne
    exact List.dropWhile_cons_of_neg (by simp [solid c List.mem_cons_self])
  have hend : core.reverse.dropWhile isBlank = core.reverse := by
    have hreverse := hkept core.reverse [] (by simpa using hne) (by simpa using solid)
    rwa [List.append_nil] at hreverse
  rw [Text.strip, List.append_assoc, List.dropWhile_append_of_pos hleft,
    hkept core right hne solid, List.reverse_append,
    List.dropWhile_append_of_pos (by simpa using hright), hend, List.reverse_reverse]

theorem exists_surrounded (cs : List Char) :
    ∃ left right, cs = left ++ Text.strip cs ++ right ∧
      (∀ c ∈ left, isBlank c = true) ∧ ∀ c ∈ right, isBlank c = true := by
  refine ⟨cs.takeWhile isBlank, (cs.dropWhile isBlank).rtakeWhile isBlank, ?_,
    fun c => List.mem_takeWhile_imp, fun c => List.mem_rtakeWhile_imp⟩
  have hend : Text.strip cs ++ (cs.dropWhile isBlank).rtakeWhile isBlank = cs.dropWhile isBlank :=
    List.rdropWhile_append_rtakeWhile
  rw [List.append_assoc, hend, List.takeWhile_append_dropWhile]

theorem strip_first {c : Char} {rest : List Char} (h : Text.strip cs = c :: rest) :
    isBlank c = false := by
  have hprefix : Text.strip cs <+: cs.dropWhile isBlank := List.rdropWhile_prefix _ _
  obtain ⟨more, hmore⟩ := hprefix
  have hhead := List.head?_dropWhile_not isBlank cs
  rw [← hmore, h] at hhead
  exact hhead

theorem strip_last {c : Char} {rest : List Char} (h : Text.strip cs = rest ++ [c]) :
    isBlank c = false := by
  have hend : (cs.dropWhile isBlank).reverse.dropWhile isBlank = c :: rest.reverse := by
    rw [← List.reverse_inj, List.reverse_cons, List.reverse_reverse]
    exact h
  have hhead := List.head?_dropWhile_not isBlank (cs.dropWhile isBlank).reverse
  rw [hend] at hhead
  exact hhead

theorem spells_strip_iff : Spells (Text.strip text.toList) i ↔ SpellsInteger text i := by
  constructor
  · intro h
    obtain ⟨left, right, htext, hleft, hright⟩ := exists_surrounded text.toList
    exact ⟨left, _, right, htext, hleft, hright, h⟩
  · rintro ⟨left, core, right, htext, hleft, hright, h⟩
    rw [htext, strip_surrounded hleft hright h.ne_nil
      fun c hc => not_isBlank_of_spellsPart (h.parts c hc)]
    exact h

theorem SpellsInteger.of_spells (h : Spells text.toList i) : SpellsInteger text i :=
  ⟨[], _, [], (List.append_nil _).symm, nofun, nofun, h⟩

theorem SpellsInteger.unique {j : Int} (h : SpellsInteger text i) (h' : SpellsInteger text j) :
    i = j := by
  have hi := signed?_eq_some_iff.mpr (spells_strip_iff.mpr h)
  have hj := signed?_eq_some_iff.mpr (spells_strip_iff.mpr h')
  exact Option.some.inj (hi.symm.trans hj)

theorem SpellsInteger.parts (h : SpellsInteger text i) :
    ∀ c ∈ text.toList, isBlank c = true ∨ spellsPart c = true := by
  obtain ⟨left, core, right, htext, hleft, hright, h⟩ := h
  intro c hc
  rw [htext, List.mem_append, List.mem_append] at hc
  rcases hc with (hc | hc) | hc
  · exact .inl (hleft c hc)
  · exact .inr (h.parts c hc)
  · exact .inl (hright c hc)

-- ---------------------------------------------------------------------------
-- Counts
-- ---------------------------------------------------------------------------

theorem int64?_eq (text : String) :
    Text.int64? text = (Text.signed? text.toList).bind fun i =>
      if -2 ^ 63 ≤ i ∧ i < 2 ^ 63 then some (Int64.ofInt i) else none := by
  rw [Text.int64?]
  cases Text.signed? text.toList <;> rfl

theorem count?_iff :
    (count? text).map Int64.toInt = some i ↔ SpellsInteger text i ∧ -2 ^ 63 ≤ i ∧ i < 2 ^ 63 := by
  rw [← spells_strip_iff, ← signed?_eq_some_iff, count?, int64?_eq, Text.toList_trim]
  cases Text.signed? (Text.strip text.toList) with
  | none => simp
  | some read =>
    rw [Option.bind_some, Option.some.injEq]
    by_cases hfits : -2 ^ 63 ≤ read ∧ read < 2 ^ 63
    · rw [if_pos hfits, Option.map_some, Int64.toInt_ofInt_of_le hfits.1 hfits.2, Option.some.injEq]
      exact ⟨fun h => ⟨h, h ▸ hfits⟩, And.left⟩
    · rw [if_neg hfits, Option.map_none]
      constructor
      · exact nofun
      · rintro ⟨rfl, h⟩
        exact absurd h hfits

theorem count?_eq_some_iff {n : Int64} : count? text = some n ↔ SpellsInteger text n.toInt := by
  constructor
  · intro h
    exact (count?_iff.mp (congrArg _ h)).1
  · intro h
    obtain ⟨read, hread, heq⟩ := Option.map_eq_some_iff.mp <|
      count?_iff.mpr ⟨h, n.minValue_le_toInt, n.toInt_lt⟩
    rw [hread, Int64.toInt_inj.mp heq]

theorem count?_eq_none {c : Char} (hc : c ∈ text.toList) (solid : isBlank c = false)
    (other : spellsPart c = false) : count? text = none := by
  refine Option.eq_none_iff_forall_ne_some.mpr fun n hcount => ?_
  rcases (count?_eq_some_iff.mp hcount).parts c hc with h | h
  · exact Bool.false_ne_true (solid.symm.trans h)
  · exact Bool.false_ne_true (other.symm.trans h)

theorem spells_toString (i : Int) : Spells (toString i).toList i := by
  obtain ⟨ds, hne, hchars, hvalue⟩ := natural?_eq_some_iff.mp (Text.natural?_toDigits i.natAbs)
  rw [Json.toList_toString_int, ← hchars]
  split
  · have hi : i = -(spelled 0 (digitValues ds) : Int) := by omega
    rw [hi]
    exact .minus hne
  · have hi : i = (spelled 0 (digitValues ds) : Int) := by omega
    rw [hi]
    exact .bare hne

end

theorem count?_ofInt64 (n : Int64) : count? (Text.ofInt64 n) = some n :=
  count?_eq_some_iff.mpr (.of_spells (spells_toString n.toInt))

theorem uint64?_toString {i : Nat} (h : i < 2 ^ 64) :
    Text.uint64? (toString i) = some (UInt64.ofNat i) := by
  obtain ⟨ds, hne, hchars, hvalue⟩ := natural?_eq_some_iff.mp (Text.natural?_toDigits i)
  have hunsigned : Text.unsigned? (Nat.toDigits 10 i) = some i := by
    rw [← hchars, unsigned?_digitChars hne, hvalue]
  simp only [Text.uint64?, Json.toList_toString_nat, hunsigned]
  exact if_pos h

end Telemetry.Payload
