import Telemetry.Proofs.Decimal.Magnitude
import Telemetry.Proofs.Json.Spelling

/-!
# Integer literals

An integer that 64 bits can hold is read exactly. One that they cannot hold
is read as a double, which is far from the interval from zero to one, on
either side of it (`Literal.float?_outside`).
-/

namespace Telemetry.Json

open Float.Model (UnpackedFloat)
open Decimal (AtLeast)

-- ---------------------------------------------------------------------------
-- Digits
-- ---------------------------------------------------------------------------

def spelled (n : Nat) (ds : List Nat) : Nat :=
  ds.foldl (fun n d => n * 10 + d) n

theorem le_spelled (n : Nat) (ds : List Nat) : n ≤ spelled n ds := by
  induction ds generalizing n with
  | nil => exact Nat.le_refl n
  | cons d ds ih => exact Nat.le_trans (by omega) (ih (n * 10 + d))

theorem absorb_fits {n : Nat} {ds : List Nat} (h : spelled n ds < 2 ^ 64) :
    absorb n ds = (spelled n ds, 0) := by
  induction ds generalizing n with
  | nil => rfl
  | cons d ds ih =>
    have hstep : n * 10 + d < 2 ^ 64 := Nat.lt_of_le_of_lt (le_spelled _ ds) h
    rw [absorb, if_pos (by omega)]
    exact ih h

/-- Of digits that are too many, almost 64 bits are absorbed. -/
theorem absorb_overflows {n : Nat} {ds : List Nat} (hn : n < 2 ^ 64) (hds : ∀ d ∈ ds, d < 10)
    (h : 2 ^ 64 ≤ spelled n ds) :
    ∃ significand left, absorb n ds = (significand, left + 1) ∧ significand < 2 ^ 64 ∧
      2 ^ 60 ≤ significand := by
  induction ds generalizing n with
  | nil => exact absurd hn (Nat.not_lt.mpr h)
  | cons d ds ih =>
    by_cases hstep : n * 10 + d < 2 ^ 64
    · rw [absorb, if_pos (by omega)]
      exact ih hstep (fun d hd => hds d (List.mem_cons_of_mem _ hd)) h
    · have hd := hds d (List.mem_cons_self ..)
      rw [absorb, if_neg (by omega)]
      exact ⟨n, ds.length, rfl, hn, by omega⟩

/-- The integer that a literal spells. A fraction, an exponent and the minus
of a zero make it a double. -/
def Literal.spelledInt? (l : Literal) : Option Int :=
  match l.fraction, l.exponent with
  | none, none =>
    let size := spelled 0 l.whole.reverse
    if l.negative then if size = 0 then none else some (-(size : Int)) else some size
  | _, _ => none

theorem ofInt?_eq_none_iff (i : Int) :
    Number.ofInt? i = none ↔ i < -2 ^ 63 ∨ 2 ^ 64 ≤ i := by
  unfold Number.ofInt?
  constructor
  · intro h
    split at h
    · cases h
    · split at h
      · cases h
      · omega
  · intro h
    rw [dif_neg (by omega), if_neg (by omega)]

theorem Literal.number?_of_none {l : Literal} (h : l.integer? = none) :
    l.number? = l.float?.map .float := by
  unfold Literal.number?
  rw [h]

theorem Literal.number?_of_some {l : Literal} {i : Int} (h : l.integer? = some i)
    (hzero : ¬ (l.negative = true ∧ i = 0)) :
    l.number? = (Number.ofInt? i).or (l.float?.map .float) := by
  unfold Literal.number?
  rw [h]
  dsimp only
  rw [if_neg (by simpa using hzero)]
  cases Number.ofInt? i <;> rfl

theorem Literal.number?_of_zero {l : Literal} (h : l.integer? = some 0)
    (hn : l.negative = true) : l.number? = l.float?.map .float := by
  unfold Literal.number?
  rw [h]
  dsimp only
  rw [if_pos (by simp [hn])]

theorem Literal.integer?_fits {l : Literal} (hf : l.fraction = none) (he : l.exponent = none)
    (h : spelled 0 l.whole.reverse < 2 ^ 64) :
    l.integer? = some (if l.negative then -(spelled 0 l.whole.reverse : Int)
      else spelled 0 l.whole.reverse) := by
  unfold Literal.integer?
  rw [hf, he, absorb_fits h]
  rfl

theorem Literal.integer?_overflows {l : Literal} (hf : l.fraction = none) (he : l.exponent = none)
    (hdigits : ∀ d ∈ l.whole, d < 10) (h : 2 ^ 64 ≤ spelled 0 l.whole.reverse) :
    l.integer? = none := by
  obtain ⟨significand, left, hsplit, -, -⟩ := absorb_overflows (n := 0) (by decide)
    (fun d hd => hdigits d (List.mem_reverse.mp hd)) h
  unfold Literal.integer?
  rw [hf, he, hsplit]
  rfl

/-- A literal is read as its integer, if it has one and 64 bits hold it, and
as a double otherwise. -/
theorem Literal.number?_eq {l : Literal} (hdigits : ∀ d ∈ l.whole, d < 10) :
    l.number? = (l.spelledInt?.bind Number.ofInt?).or (l.float?.map .float) := by
  cases hf : l.fraction with
  | some ds =>
    rw [l.number?_of_none (by simp [Literal.integer?, hf])]
    simp [Literal.spelledInt?, hf]
  | none =>
    cases he : l.exponent with
    | some e =>
      rw [l.number?_of_none (by simp [Literal.integer?, hf, he])]
      simp [Literal.spelledInt?, hf, he]
    | none =>
      have hexact : l.spelledInt? = if l.negative then
          if spelled 0 l.whole.reverse = 0 then none
          else some (-(spelled 0 l.whole.reverse : Int))
          else some (spelled 0 l.whole.reverse : Int) := by
        unfold Literal.spelledInt?
        rw [hf, he]
      rw [hexact]
      by_cases hfits : spelled 0 l.whole.reverse < 2 ^ 64
      · have hinteger := Literal.integer?_fits hf he hfits
        generalize spelled 0 l.whole.reverse = size at hinteger ⊢
        by_cases hn : l.negative = true
        · rw [if_pos hn] at hinteger ⊢
          by_cases hzero : size = 0
          · rw [if_pos hzero, Literal.number?_of_zero (by simp [hinteger, hzero]) hn,
              Option.bind_none, Option.none_or]
          · rw [if_neg hzero, Literal.number?_of_some hinteger (by omega), Option.bind_some]
        · rw [if_neg hn] at hinteger ⊢
          rw [Literal.number?_of_some hinteger (fun h => hn h.1), Option.bind_some]
      · have hlarge := Nat.not_lt.mp hfits
        rw [Literal.number?_of_none (Literal.integer?_overflows hf he hdigits hlarge)]
        generalize spelled 0 l.whole.reverse = size at hlarge ⊢
        have hpositive : Number.ofInt? (size : Int) = none :=
          (ofInt?_eq_none_iff _).mpr (.inr (by omega))
        have hnegative : Number.ofInt? (-(size : Int)) = none :=
          (ofInt?_eq_none_iff _).mpr (.inl (by omega))
        by_cases hn : l.negative = true
        · have hzero : size ≠ 0 := by omega
          rw [if_pos hn, if_neg hzero, Option.bind_some, hnegative, Option.none_or]
        · rw [if_neg hn, Option.bind_some, hpositive, Option.none_or]

-- ---------------------------------------------------------------------------
-- Doubles of large integers
-- ---------------------------------------------------------------------------

theorem smallPower_atLeast :
    ∀ n : Nat, n < 23 → AtLeast .positive 1 (powerOfTen n).toModel.unpack
  | 0, _ | 1, _ | 2, _ | 3, _ | 4, _ | 5, _ | 6, _ | 7, _ | 8, _ | 9, _ | 10, _ | 11, _ | 12, _
  | 13, _ | 14, _ | 15, _ | 16, _ | 17, _ | 18, _ | 19, _ | 20, _ | 21, _ | 22, _ =>
    .finite rfl (by decide)
  | n + 23, h => absurd h (by omega)

theorem powerOfTen_atLeast {n : Nat} (h : n ≤ 308) :
    AtLeast .positive 1 (powerOfTen n).toModel.unpack := by
  by_cases hsmall : n < 23
  · exact smallPower_atLeast n hsmall
  · have hslow : powerOfTen n = .ofModel (.ofScientific 1 (n : Int)) := by
      unfold powerOfTen Float.ofScientific
      rw [dif_neg (by omega)]
      rfl
    have hscientific : UnpackedFloat.ofScientific .binary64 1 (n : Int) =
        UnpackedFloat.roundWithAccuracy .binary64 .positive ((1 <<< 53) * 10 ^ n) (-53) .exact := by
      unfold UnpackedFloat.ofScientific
      rw [dif_neg (by decide), if_neg (by simp; omega), if_neg (by simp; omega), if_pos (by omega)]
      rfl
    have hlog := Decimal.log2_mul_le (m := 1 <<< 53) (n := 10 ^ n) (by decide)
      (Nat.ne_of_gt (Nat.pow_pos (by decide)))
    have hbits : (1 <<< 53).log2 = 53 := by decide
    rw [hslow]
    refine AtLeast.unpack_pack ?_ (by decide)
    rw [hscientific]
    exact Decimal.roundWithAccuracy_atLeast .positive (by omega) (by omega) (by omega)

theorem scale_atLeast {x y : Float} {t : Int} (hx : AtLeast .positive t x.toModel.unpack)
    (ht : -1021 ≤ t) (power : Nat) (h : scale x power = some y) :
    AtLeast .positive t y.toModel.unpack := by
  have hsign : (0 : Int) ≤ power := Int.natCast_nonneg power
  unfold scale at h
  split at h
  · rename_i hnear
    have hpower : AtLeast .positive 1 (powerOfTen (power : Int).toNat).toModel.unpack :=
      powerOfTen_atLeast (by omega)
    have hproduct : AtLeast .positive t (x * powerOfTen (power : Int).toNat).toModel.unpack :=
      ((hx.mul hpower (by omega)).mono (by omega)).unpack_pack ht
    dsimp only at h
    split at h
    · cases h
    · cases h
      exact hproduct
  · split at h
    · cases h
      exact hx
    · cases h

theorem Literal.magnitude?_atLeast {l : Literal} (hf : l.fraction = none) (he : l.exponent = none)
    (hdigits : ∀ d ∈ l.whole, d < 10) (hlarge : 2 ≤ spelled 0 l.whole.reverse) {x : Float}
    (h : l.magnitude? = some x) : AtLeast .positive 2 x.toModel.unpack := by
  have habsorb : ∃ significand dropped : Nat, absorb 0 l.whole.reverse = (significand, dropped) ∧
      significand < 2 ^ 64 ∧ 2 ≤ significand := by
    by_cases hfits : spelled 0 l.whole.reverse < 2 ^ 64
    · exact ⟨_, 0, absorb_fits hfits, hfits, hlarge⟩
    · obtain ⟨significand, left, hsplit, hlt, hle⟩ := absorb_overflows (n := 0) (by decide)
        (fun d hd => hdigits d (List.mem_reverse.mp hd)) (Nat.not_lt.mp hfits)
      exact ⟨significand, left + 1, hsplit, hlt, by omega⟩
  obtain ⟨significand, dropped, hsplit, hlt, hle⟩ := habsorb
  have hparts : l.parts = (significand, (dropped : Int)) := by
    simp [Literal.parts, hsplit, hf, absorb]
  have hvalue : (UInt64.ofNat significand).toNat = significand := by
    simp only [UInt64.toNat_ofNat']
    omega
  have hfloat : AtLeast .positive 2 (UInt64.ofNat significand).toFloat.toModel.unpack := by
    refine (Decimal.toFloat_atLeast (by omega)).mono ?_
    have : 1 ≤ significand.log2 := (Nat.le_log2 (by omega)).mpr (by omega)
    rw [hvalue]
    omega
  rw [Literal.magnitude?, hparts, he] at h
  exact scale_atLeast hfloat (by decide) dropped h

theorem Literal.float?_outside {l : Literal} (hf : l.fraction = none) (he : l.exponent = none)
    (hdigits : ∀ d ∈ l.whole, d < 10) (hlarge : 2 ≤ spelled 0 l.whole.reverse) {x : Float}
    (h : l.float? = some x) : ¬ ((0.0 : Float) ≤ x ∧ x ≤ 1.0) := by
  obtain ⟨y, hy, hx⟩ := Option.map_eq_some_iff.mp h
  have hsize := Literal.magnitude?_atLeast hf he hdigits hlarge hy
  rintro ⟨hlow, hhigh⟩
  split at hx
  · subst hx
    exact hsize.not_zero_le_neg (by decide) hlow
  · subst hx
    exact hsize.not_le_one (by decide) hhigh

-- ---------------------------------------------------------------------------
-- Numerals
-- ---------------------------------------------------------------------------

def Numeral.integer? (n : Numeral) : Option Int :=
  n.literal.spelledInt?

def Numeral.double? (n : Numeral) : Option Float :=
  n.literal.float?

def Numeral.number? (n : Numeral) : Option Number :=
  n.literal.number?

/-- The double of the numeral would be infinite, and 64 bits cannot hold it as
an integer. -/
def Numeral.Overflows (n : Numeral) : Prop :=
  n.double? = none ∧ ∀ i, n.integer? = some i → i < -2 ^ 63 ∨ 2 ^ 64 ≤ i

theorem Numeral.digits_lt (n : Numeral) : ∀ d ∈ n.literal.whole, d < 10 := by
  intro d hd
  simp only [Numeral.literal, digitValues, List.mem_reverse, List.mem_map] at hd
  obtain ⟨digit, -, rfl⟩ := hd
  exact digit.isLt

theorem Numeral.number?_eq (n : Numeral) :
    n.number? = (n.integer?.bind Number.ofInt?).or (n.double?.map .float) :=
  Literal.number?_eq n.digits_lt

theorem Numeral.number?_eq_none_iff (n : Numeral) : n.number? = none ↔ n.Overflows := by
  rw [n.number?_eq, Option.or_eq_none_iff, Option.map_eq_none_iff, Option.bind_eq_none_iff,
    and_comm]
  simp only [ofInt?_eq_none_iff, Numeral.Overflows]

/-- Where a numeral spells an integer that is not zero or one, its double is
not from zero to one. -/
theorem Numeral.double?_outside {n : Numeral} {i : Int} (hi : n.integer? = some i)
    (hlarge : i < -1 ∨ 1 < i) {x : Float} (hx : n.double? = some x) :
    ¬ ((0.0 : Float) ≤ x ∧ x ≤ 1.0) := by
  unfold Numeral.integer? Literal.spelledInt? at hi
  split at hi
  · rename_i hf he
    refine Literal.float?_outside hf he n.digits_lt ?_ hx
    dsimp only at hi
    split at hi
    · split at hi
      · cases hi
      · cases hi
        omega
    · cases hi
      omega
  · cases hi

end Telemetry.Json
