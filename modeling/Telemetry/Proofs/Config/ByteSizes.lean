import Telemetry.Config.ByteSize
import Telemetry.Proofs.Payload.CountTexts
import Telemetry.Proofs.Text.Case

/-!
# Which texts are byte sizes

A text is a size exactly if, without the white space at its ends, it is an
optional plus sign, ASCII digits and, after white space, one suffix letter at
most, and the number of bytes fits 64 bits (`byteSize?_iff`). The letters are
those that are a `k` or an `m` in lower case: the sign for kelvin, U+212A, is
one of them. Without it they are the two ASCII letters in both cases.
-/

namespace Telemetry.Config

open Json (Digit digitValues spelled)
open Payload (digitChars exists_surrounded strip_surrounded strip_first strip_last digitChar_facts
  natural?_eq_some_iff natural?_digitChars unsigned?_digitChars)
open Text (isBlank lower strip Settled)

/-- Digits after an optional plus sign, with the number that they denote. -/
inductive Natural : List Char → Nat → Prop
  | bare {ds : List Digit} (digits : ds ≠ []) :
    Natural (digitChars ds) (spelled 0 (digitValues ds))
  | plus {ds : List Digit} (digits : ds ≠ []) :
    Natural ('+' :: digitChars ds) (spelled 0 (digitValues ds))

inductive Suffix (kibi : List Char) : List Char → Nat → Prop
  | none : Suffix kibi [] 1
  | kibi {gap : List Char} {c : Char} (blank : ∀ b ∈ gap, isBlank b = true) (letter : c ∈ kibi) :
    Suffix kibi (gap ++ [c]) 1024
  | mebi {gap : List Char} {c : Char} (blank : ∀ b ∈ gap, isBlank b = true)
    (letter : c ∈ ['m', 'M']) : Suffix kibi (gap ++ [c]) 1048576

/-- A size of so many bytes, where the letters in `kibi` stand for 1024. -/
inductive Size (kibi : List Char) : List Char → Nat → Prop
  | mk {number suffix : List Char} {n factor : Nat} (digits : Natural number n)
    (letter : Suffix kibi suffix factor) : Size kibi (number ++ suffix) (n * factor)

variable {cs core number front : List Char} {n v : Nat} {s : String}

-- ---------------------------------------------------------------------------
-- Digits
-- ---------------------------------------------------------------------------

theorem unsigned?_eq_some_iff : Text.unsigned? cs = some n ↔ Natural cs n := by
  constructor
  · intro h
    unfold Text.unsigned? at h
    split at h
    · obtain ⟨ds, hne, rfl, rfl⟩ := natural?_eq_some_iff.mp h
      exact .plus hne
    · obtain ⟨ds, hne, rfl, rfl⟩ := natural?_eq_some_iff.mp h
      exact .bare hne
  · intro h
    cases h with
    | bare hne => exact unsigned?_digitChars hne
    | plus hne => exact natural?_digitChars hne

theorem Natural.ne_nil (h : Natural number n) : number ≠ [] := by
  cases h with
  | bare hne => exact fun hnil => hne (List.map_eq_nil_iff.mp hnil)
  | plus hne => exact List.cons_ne_nil _ _

theorem Natural.parts (h : Natural number n) : ∀ c ∈ number, c = '+' ∨ c.isDigit = true := by
  have hdigits {ds : List Digit} : ∀ c ∈ digitChars ds, c = '+' ∨ c.isDigit = true := by
    intro c hc
    obtain ⟨d, -, rfl⟩ := List.mem_map.mp hc
    exact .inr (digitChar_facts d).1
  cases h with
  | bare => exact hdigits
  | plus => exact List.forall_mem_cons.mpr ⟨.inl rfl, hdigits⟩

theorem Natural.settled (h : Natural number n) : ∀ c ∈ number, Settled c :=
  fun c hc => .inr (h.parts c hc)

theorem Natural.solid (h : Natural number n) : ∀ c ∈ number, isBlank c = false := by
  intro c hc
  refine Payload.not_isBlank_of_spellsPart ?_
  rcases h.parts c hc with rfl | hdigit
  · rfl
  · simp [Payload.spellsPart, hdigit]

theorem settled_of_blank {gap : List Char} (h : ∀ b ∈ gap, isBlank b = true) :
    ∀ b ∈ gap, Settled b :=
  fun b hb => .inl (h b hb)

-- ---------------------------------------------------------------------------
-- Suffixes
-- ---------------------------------------------------------------------------

theorem splitSuffix_k (front : List Char) : splitSuffix (front ++ ['k']) = (front, 1024) := by
  simp [splitSuffix]

theorem splitSuffix_m (front : List Char) : splitSuffix (front ++ ['m']) = (front, 1048576) := by
  simp [splitSuffix]

theorem splitSuffix_eq (cs : List Char) :
    (∃ front, cs = front ++ ['k'] ∧ splitSuffix cs = (front, 1024)) ∨
      (∃ front, cs = front ++ ['m'] ∧ splitSuffix cs = (front, 1048576)) ∨
      splitSuffix cs = (cs, 1) := by
  unfold splitSuffix
  split
  · rename_i hlast
    obtain ⟨front, rfl⟩ := List.getLast?_eq_some_iff.mp hlast
    exact .inl ⟨front, rfl, by simp⟩
  · rename_i hlast
    obtain ⟨front, rfl⟩ := List.getLast?_eq_some_iff.mp hlast
    exact .inr (.inl ⟨front, rfl, by simp⟩)
  · exact .inr (.inr rfl)

theorem splitSuffix_pos (cs : List Char) : 0 < (splitSuffix cs).2 := by
  rcases splitSuffix_eq cs with ⟨front, -, h⟩ | ⟨front, -, h⟩ | h <;> simp [h]

theorem splitSuffix_number (h : Natural number n) : splitSuffix number = (number, 1) := by
  rcases splitSuffix_eq number with ⟨front, rfl, -⟩ | ⟨front, rfl, -⟩ | hwhole
  · exact absurd (h.parts 'k' (by simp)) (by decide)
  · exact absurd (h.parts 'm' (by simp)) (by decide)
  · exact hwhole

-- ---------------------------------------------------------------------------
-- Sizes
-- ---------------------------------------------------------------------------

/-- The bytes are counted and fit 64 bits. -/
theorem byteSize?_eq_some_iff : byteSize? s = some v ↔
    (∃ n, Natural (strip (splitSuffix (normalized s)).1) n ∧
      n * (splitSuffix (normalized s)).2 = v) ∧ v < 2 ^ 64 := by
  have hpos := splitSuffix_pos (normalized s)
  unfold byteSize?
  generalize splitSuffix (normalized s) = parts at hpos ⊢
  obtain ⟨digits, unit⟩ := parts
  simp only [← unsigned?_eq_some_iff]
  cases Text.unsigned? (strip digits) with
  | none => simp
  | some n =>
    have hn : n ≤ n * unit := Nat.le_mul_of_pos_right n hpos
    simp only [Option.ite_none_right_eq_some, Option.some.injEq]
    constructor
    · rintro ⟨⟨-, hfits⟩, rfl⟩
      exact ⟨⟨n, rfl, rfl⟩, hfits⟩
    · rintro ⟨⟨m, rfl, rfl⟩, hfits⟩
      exact ⟨⟨Nat.lt_of_le_of_lt hn hfits, hfits⟩, rfl⟩

theorem strip_number (h : Natural number n) {gap : List Char}
    (blank : ∀ b ∈ gap, isBlank b = true) : strip (number ++ gap) = number := by
  have hnone : ∀ c ∈ ([] : List Char), isBlank c = true := nofun
  exact strip_surrounded hnone blank h.ne_nil h.solid

/-- A number that stands first in lower case stands first anyway, with white
space after it. -/
theorem exists_number {rest : List Char} (hnumber : Natural (strip front) n)
    (h : (strip cs).flatMap lower = front ++ rest) :
    ∃ gap later, strip cs = strip front ++ (gap ++ later) ∧ (∀ b ∈ gap, isBlank b = true) ∧
      later.flatMap lower = rest := by
  obtain ⟨left, gap, hfront, hleft, hgap⟩ := exists_surrounded front
  have hsettled : ∀ c ∈ front, Settled c := by
    rw [hfront]
    exact List.forall_mem_append.mpr ⟨List.forall_mem_append.mpr
      ⟨settled_of_blank hleft, hnumber.settled⟩, settled_of_blank hgap⟩
  obtain ⟨later, hlater, hrest⟩ := Text.flatMap_lower_eq_append hsettled h
  refine ⟨gap, later, ?_, hgap, hrest⟩
  cases left with
  | nil => rw [hlater, ← List.append_assoc, ← List.nil_append (strip front), ← hfront]
  | cons b left =>
    -- a text without white space at its ends starts with none
    rw [hfront] at hlater
    exact absurd (hleft b List.mem_cons_self) (by simp [strip_first hlater])

theorem size_of_number (hnumber : Natural (strip (splitSuffix ((strip cs).flatMap lower)).1) n) :
    Size ['k', 'K', '\u212a'] (strip cs)
      (n * (splitSuffix ((strip cs).flatMap lower)).2) := by
  rcases splitSuffix_eq ((strip cs).flatMap lower) with ⟨front, hlow, hsplit⟩ |
    ⟨front, hlow, hsplit⟩ | hsplit
  · rw [hsplit] at hnumber ⊢
    obtain ⟨gap, later, hcs, hgap, hlater⟩ := exists_number hnumber hlow
    obtain ⟨c, rfl, hc⟩ := Text.flatMap_lower_eq_singleton hlater
    rw [hcs]
    exact .mk hnumber (.kibi hgap (Text.lower_eq_k.mp hc))
  · rw [hsplit] at hnumber ⊢
    obtain ⟨gap, later, hcs, hgap, hlater⟩ := exists_number hnumber hlow
    obtain ⟨c, rfl, hc⟩ := Text.flatMap_lower_eq_singleton hlater
    rw [hcs]
    exact .mk hnumber (.mebi hgap (Text.lower_eq_m.mp hc))
  · rw [hsplit] at hnumber ⊢
    obtain ⟨gap, later, hcs, hgap, hlater⟩ := exists_number hnumber (List.append_nil _).symm
    obtain rfl := Text.flatMap_lower_eq_nil hlater
    have hnil : gap = [] := by
      refine (List.eq_nil_or_concat gap).resolve_right ?_
      rintro ⟨before, b, rfl⟩
      have hlast : strip cs = (strip ((strip cs).flatMap lower) ++ before) ++ [b] := by
        simpa using hcs
      exact absurd (hgap b (by simp)) (by simp [strip_last hlast])
    subst hnil
    rw [hcs]
    exact .mk hnumber .none

theorem number_of_size (h : Size ['k', 'K', '\u212a'] core v) :
    ∃ n, Natural (strip (splitSuffix (core.flatMap lower)).1) n ∧
      n * (splitSuffix (core.flatMap lower)).2 = v := by
  cases h with
  | @mk number suffix n factor hnumber hsuffix =>
    refine ⟨n, ?_⟩
    rw [List.flatMap_append, Text.flatMap_lower_settled hnumber.settled]
    cases hsuffix with
    | none =>
      rw [List.flatMap_nil, List.append_nil, splitSuffix_number hnumber]
      have hnone : ∀ b ∈ ([] : List Char), isBlank b = true := nofun
      have hstrip : strip number = number := by simpa using strip_number hnumber hnone
      exact ⟨hstrip.symm ▸ hnumber, rfl⟩
    | @kibi gap c blank letter =>
      have hlow : (gap ++ [c]).flatMap lower = gap ++ ['k'] := by
        simp [Text.flatMap_lower_settled (settled_of_blank blank), Text.lower_eq_k.mpr letter]
      rw [hlow, ← List.append_assoc, splitSuffix_k, strip_number hnumber blank]
      exact ⟨hnumber, rfl⟩
    | @mebi gap c blank letter =>
      have hlow : (gap ++ [c]).flatMap lower = gap ++ ['m'] := by
        simp [Text.flatMap_lower_settled (settled_of_blank blank), Text.lower_eq_m.mpr letter]
      rw [hlow, ← List.append_assoc, splitSuffix_m, strip_number hnumber blank]
      exact ⟨hnumber, rfl⟩

/-- Only the letters that occur matter. -/
theorem Size.restrict {kibi more : List Char} (h : Size more core v)
    (hletters : ∀ c ∈ more, c ∈ core → c ∈ kibi) : Size kibi core v := by
  cases h with
  | mk hnumber hsuffix =>
    refine .mk hnumber ?_
    cases hsuffix with
    | none => exact .none
    | kibi blank letter => exact .kibi blank (hletters _ letter (by simp))
    | mebi blank letter => exact .mebi blank letter

theorem Size.parts {kibi : List Char} (h : Size kibi core v) :
    ∀ c ∈ core, Settled c ∨ c ∈ kibi ∨ c ∈ ['m', 'M'] := by
  cases h with
  | mk hnumber hsuffix =>
    refine List.forall_mem_append.mpr ⟨fun c hc => .inl (hnumber.settled c hc), ?_⟩
    cases hsuffix with
    | none => exact nofun
    | kibi blank letter =>
      exact List.forall_mem_append.mpr ⟨fun c hc => .inl (settled_of_blank blank c hc),
        List.forall_mem_singleton.mpr (.inr (.inl letter))⟩
    | mebi blank letter =>
      exact List.forall_mem_append.mpr ⟨fun c hc => .inl (settled_of_blank blank c hc),
        List.forall_mem_singleton.mpr (.inr (.inr letter))⟩

theorem mem_of_mem_strip {c : Char} (h : c ∈ strip cs) : c ∈ cs := by
  obtain ⟨left, right, hcs, -, -⟩ := exists_surrounded cs
  rw [hcs]
  simp [h]

/-- The texts that are sizes, and the numbers of bytes that they are. -/
theorem byteSize?_iff (s : String) (v : Nat) :
    (byteSize? s = some v ↔ Size ['k', 'K', '\u212a'] (strip s.toList) v ∧ v < 2 ^ 64) ∧
      ('\u212a' ∉ s.toList →
        (byteSize? s = some v ↔ Size ['k', 'K'] (strip s.toList) v ∧ v < 2 ^ 64)) := by
  have hsize : byteSize? s = some v ↔
      Size ['k', 'K', '\u212a'] (strip s.toList) v ∧ v < 2 ^ 64 := by
    rw [byteSize?_eq_some_iff]
    refine and_congr_left fun _ => ?_
    constructor
    · rintro ⟨n, hnumber, rfl⟩
      exact size_of_number hnumber
    · exact number_of_size
  refine ⟨hsize, fun hkelvin => hsize.trans (and_congr_left fun _ => ?_)⟩
  constructor
  · intro h
    refine h.restrict fun c hc hcore => ?_
    have hne : c ≠ '\u212a' := by
      rintro rfl
      exact hkelvin (mem_of_mem_strip hcore)
    simpa [hne] using hc
  · intro h
    exact h.restrict fun c hc _ => List.mem_append_left ['\u212a'] hc

/-- White space at both ends and before the letter is no matter. -/
theorem byteSize?_iff_spaced :
    '\u212a' ∉ " +2 M\u00a0".toList ∧ Size ['k', 'K'] (strip " +2 M\u00a0".toList) 2097152 := by
  have hletters : '\u212a' ∉ " +2 M\u00a0".toList := by decide
  have hread : byteSize? " +2 M\u00a0" = some 2097152 := by decide
  exact ⟨hletters, (((byteSize?_iff _ _).2 hletters).mp hread).1⟩

/-- The sign for kelvin counts as a k. -/
theorem byteSize?_kelvin :
    byteSize? "5\u212a" = some 5120 ∧ ¬ ∃ v, Size ['k', 'K'] (strip "5\u212a".toList) v := by
  refine ⟨by decide, ?_⟩
  rintro ⟨v, h⟩
  have hparts := h.parts '\u212a' (by decide)
  exact absurd hparts (by decide)

end Telemetry.Config
