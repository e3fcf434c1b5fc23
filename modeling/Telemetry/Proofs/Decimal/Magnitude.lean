import Mathlib

/-!
# How large a double is at least

`AtLeast t` bounds a double from below by a power of two. The bound passes
through rounding (`roundWithAccuracy_atLeast`), packing, products, and the
conversion of a whole number, so it can be carried along a computation whose
exact value nobody needs to know.
-/

namespace Telemetry.Decimal

open Float.Model Float.Model.UnpackedFloat

/-- The number has this sign, and its size is at least `2 ^ (t - 1)`: it is
infinite, or has a significand of 53 bits of which the first counts that much
or more. -/
inductive AtLeast (sign : Sign) (t : Int) : UnpackedFloat → Prop where
  | infinity : AtLeast sign t (.infinity sign)
  | finite {m : Nat} {e : Int} {h : 0 < m} (hm : m.log2 = 52) (he : t ≤ 53 + e) :
    AtLeast sign t (.finite sign m e h)

theorem AtLeast.mono {sign : Sign} {t u : Int} {x : UnpackedFloat} (h : AtLeast sign t x)
    (hu : u ≤ t) : AtLeast sign u x := by
  cases h with
  | infinity => exact .infinity
  | finite hm he => exact .finite hm (Int.le_trans hu he)

-- ---------------------------------------------------------------------------
-- Rounding
-- ---------------------------------------------------------------------------

theorem mantissa_shiftRight (em : ExtendedMantissa) (k : Nat) :
    (em >>> k).mantissa = em.mantissa / 2 ^ k := by
  induction k with
  | zero => exact (Nat.div_one _).symm
  | succ k ih =>
    have hstep : (em >>> (k + 1)).mantissa = (em >>> k).mantissa / 2 := rfl
    rw [hstep, ih, Nat.div_div_eq_div_mul, Nat.pow_succ]

theorem roundedMantissa_bounds (em : ExtendedMantissa) :
    em.mantissa ≤ em.roundedMantissa ∧ em.roundedMantissa ≤ em.mantissa + 1 := by
  obtain ⟨m, roundBit, stickyBit⟩ := em
  have heven : m ≤ m + m % 2 ∧ m + m % 2 ≤ m + 1 := by omega
  cases roundBit with
  | false => cases stickyBit <;> exact ⟨Nat.le_refl _, Nat.le_succ _⟩
  | true =>
    cases stickyBit with
    | false => exact heven
    | true => exact ⟨Nat.le_succ _, Nat.le_refl _⟩

/-- With 53 bits or more, and not too small, a significand is shifted to 53
bits. -/
theorem shiftToTargetExponent_eq {m : Nat} {e : Int} (hm : 52 ≤ m.log2)
    (he : -1021 ≤ m.log2 + 1 + e) :
    shiftToTargetExponent Format.binary64 m e .exact =
      ((⟨m, false, false⟩ : ExtendedMantissa) >>> (m.log2 - 52), e + (m.log2 - 52 : Nat)) := by
  have htarget : Format.binary64.targetExponent (totalExponent m e) = e + (m.log2 - 52 : Nat) := by
    simp only [Format.targetExponent, totalExponent, Format.mantissaBits, Format.minExponent]
    omega
  have hshift : (Format.binary64.targetExponent (totalExponent m e) - e).toNat = m.log2 - 52 := by
    omega
  simp only [shiftToTargetExponent, shiftToExponent, hshift]
  rfl

theorem shift_rounded {r : Nat} (hlow : 2 ^ 52 ≤ r) (hhigh : r ≤ 2 ^ 53) :
    52 ≤ r.log2 ∧ (r / 2 ^ (r.log2 - 52)).log2 = 52 := by
  rcases Nat.lt_or_eq_of_le hhigh with hlt | rfl
  · have hlog : r.log2 = 52 := (Nat.log2_eq_iff (by omega)).mpr ⟨hlow, hlt⟩
    refine ⟨Nat.le_of_eq hlog.symm, ?_⟩
    rw [hlog, Nat.sub_self, Nat.pow_zero, Nat.div_one, hlog]
  · decide

theorem roundWithAccuracy_atLeast (sign : Sign) {m : Nat} {e t : Int} (hm : 52 ≤ m.log2)
    (he : -1021 ≤ m.log2 + 1 + e) (ht : t ≤ m.log2 + 1 + e) :
    AtLeast sign t (roundWithAccuracy Format.binary64 sign m e .exact) := by
  have hzero : m ≠ 0 := by
    rintro rfl
    simp at hm
  have hfirst := shiftToTargetExponent_eq hm he
  generalize hk : m.log2 - 52 = k at *
  have hlog : m.log2 = 52 + k := by omega
  have hlow : 2 ^ 52 ≤ m / 2 ^ k := by
    rw [Nat.le_div_iff_mul_le (Nat.two_pow_pos k), ← Nat.pow_add, ← hlog]
    exact Nat.log2_self_le hzero
  have hhigh : m / 2 ^ k < 2 ^ 53 := by
    rw [Nat.div_lt_iff_lt_mul (Nat.two_pow_pos k), ← Nat.pow_add,
      show 53 + k = m.log2 + 1 by omega]
    exact Nat.lt_log2_self
  have hbounds : m / 2 ^ k ≤ ((⟨m, false, false⟩ : ExtendedMantissa) >>> k).roundedMantissa ∧
      ((⟨m, false, false⟩ : ExtendedMantissa) >>> k).roundedMantissa ≤ m / 2 ^ k + 1 := by
    rw [← mantissa_shiftRight ⟨m, false, false⟩ k]
    exact roundedMantissa_bounds _
  unfold roundWithAccuracy
  rw [hfirst]
  dsimp only
  generalize ((⟨m, false, false⟩ : ExtendedMantissa) >>> k).roundedMantissa = r at hbounds ⊢
  obtain ⟨hr, hfinal⟩ := shift_rounded (Nat.le_trans hlow hbounds.1)
    (Nat.le_trans hbounds.2 hhigh)
  rw [shiftToTargetExponent_eq hr (by omega), mantissa_shiftRight]
  dsimp only
  split
  · rename_i hnone
    simp [hnone] at hfinal
  · exact .finite hfinal (by omega)

theorem log2_mul_le {m n : Nat} (hm : m ≠ 0) (hn : n ≠ 0) : m.log2 + n.log2 ≤ (m * n).log2 := by
  rw [Nat.le_log2 (Nat.mul_ne_zero hm hn), Nat.pow_add]
  exact Nat.mul_le_mul (Nat.log2_self_le hm) (Nat.log2_self_le hn)

theorem round_atLeast (sign : Sign) {m : Nat} (hm : m ≠ 0) :
    AtLeast sign (m.log2 + 1) (UnpackedFloat.round Format.binary64 sign m 0) := by
  have htarget : Format.binary64.targetExponent (totalExponent m 0) = (m.log2 : Int) - 52 := by
    simp only [Format.targetExponent, totalExponent, Format.mantissaBits, Format.minExponent]
    omega
  have hshift : (0 - ((m.log2 : Int) - 52)).toNat = 52 - m.log2 := by omega
  have hlog : m.log2 + (52 - m.log2) ≤ (m <<< (52 - m.log2)).log2 := by
    have := log2_mul_le hm (Nat.ne_of_gt (Nat.two_pow_pos (52 - m.log2)))
    rwa [Nat.log2_two_pow, ← Nat.shiftLeft_eq] at this
  simp only [UnpackedFloat.round, decreaseExponent, htarget, hshift]
  exact roundWithAccuracy_atLeast sign (by omega) (by omega) (by omega)

-- ---------------------------------------------------------------------------
-- Operations
-- ---------------------------------------------------------------------------

theorem AtLeast.mul {r s : Sign} {t u : Int} {x y : UnpackedFloat} (hx : AtLeast r t x)
    (hy : AtLeast s u y) (h : -1020 ≤ t + u) :
    AtLeast (r * s) (t + u - 1) (mul Format.binary64 x y) := by
  cases hx with
  | infinity => cases hy <;> exact .infinity
  | @finite m e hm hmlog he =>
    cases hy with
    | infinity => exact .infinity
    | @finite n d hn hnlog hd =>
      have hlog := log2_mul_le (Nat.ne_of_gt hm) (Nat.ne_of_gt hn)
      exact roundWithAccuracy_atLeast (r * s) (by omega) (by omega) (by omega)

theorem AtLeast.neg {s : Sign} {t : Int} {x : UnpackedFloat} (h : AtLeast s t x) :
    AtLeast (-s) t x.neg := by
  cases h with
  | infinity => exact .infinity
  | finite hm he => exact .finite hm he

-- ---------------------------------------------------------------------------
-- Packing
-- ---------------------------------------------------------------------------

theorem unpackSign_packComponents {spec : Format} (sign : Sign)
    (exponent : BitVec spec.exponentBits) (mantissa : BitVec spec.mantissaBitsWithoutImplicit) :
    unpackSign (packComponents spec sign exponent mantissa) = sign.toBitVec := by
  ext i hi
  obtain rfl : i = 0 := by omega
  simp [unpackSign, packComponents, BitVec.getLsbD_append, BitVec.getElem_append]

theorem ofBitVec_toBitVec (sign : Sign) : Sign.ofBitVec sign.toBitVec = sign := by
  cases sign <;> rfl

theorem implicitBit {m : Nat} (hlog : m.log2 = 52) (hm : m ≠ 0) :
    (1#1 ++ BitVec.ofNat 52 m).toNat = m := by
  have hlow : 2 ^ 52 ≤ m := hlog ▸ Nat.log2_self_le hm
  have hhigh : m < 2 ^ 53 := by
    have := Nat.lt_log2_self (n := m)
    rwa [hlog] at this
  rw [BitVec.toNat_append, ← Nat.shiftLeft_add_eq_or_of_lt (BitVec.isLt _), BitVec.toNat_ofNat]
  simp only [BitVec.toNat_ofNat, Nat.shiftLeft_eq]
  omega

theorem unpack_packed (sign : Sign) {m : Nat} (biased : Nat) (hlog : m.log2 = 52) (hm : m ≠ 0)
    (hlow : biased ≠ 0) (hhigh : biased + 1 < 2 ^ 11) :
    AtLeast sign (biased - 1022) (UnpackedFloat.unpack Format.binary64
      (packComponents Format.binary64 sign (BitVec.ofNat 11 biased) (BitVec.ofNat 52 m))) := by
  have hvalue : (BitVec.ofNat 11 biased).toNat = biased := by
    rw [BitVec.toNat_ofNat, Nat.mod_eq_of_lt (by omega)]
  have hinfinite : BitVec.ofNat 11 biased ≠ -1#11 := by
    intro h
    have hones : (-1#11).toNat = 2047 := rfl
    rw [← h, hvalue] at hones
    omega
  have hsubnormal : BitVec.ofNat 11 biased ≠ 0#11 := by
    intro h
    have hzero : (0#11).toNat = 0 := rfl
    rw [← h, hvalue] at hzero
    exact hlow hzero
  unfold UnpackedFloat.unpack
  simp only [unpackMantissa_packComponents, unpackExponent_packComponents,
    unpackSign_packComponents, ofBitVec_toBitVec]
  rw [if_neg hinfinite, if_neg hsubnormal]
  refine .finite ?_ ?_
  · rw [implicitBit hlog hm, hlog]
  · have hbias : (Format.binary64.exponentBias : Int) = 1023 := rfl
    simp only [hvalue, hbias]
    omega

theorem AtLeast.unpack_pack {s : Sign} {t : Int} {x : UnpackedFloat} (h : AtLeast s t x)
    (ht : -1021 ≤ t) : AtLeast s t (Float.Model.pack x).unpack := by
  have hinfinity : AtLeast s t (UnpackedFloat.unpack Format.binary64
      (packedInfinity Format.binary64 s)) := by
    cases s <;> exact .infinity
  cases h with
  | infinity => exact hinfinity
  | @finite m e hm hlog he =>
    have hbias : (e + (Format.binary64.exponentBias : Int) +
        (Format.binary64.mantissaBitsWithoutImplicit : Int)).toNat = (e + 1075).toNat := by
      have : (Format.binary64.exponentBias : Int) = 1023 := rfl
      simp only [this]
      omega
    have hnormal : m.log2 + 1 = Format.binary64.mantissaBits := by
      rw [hlog]
      rfl
    simp only [Float.Model.pack, Float.Model.unpack, UnpackedFloat.pack, hbias]
    split
    · exact hinfinity
    · rename_i hfits
      exact (unpack_packed s (e + 1075).toNat hlog (Nat.ne_of_gt hm) (by omega)
        (Nat.lt_of_not_le hfits)).mono (by omega)

-- ---------------------------------------------------------------------------
-- Doubles
-- ---------------------------------------------------------------------------

theorem toFloat_atLeast {n : UInt64} (h : n.toNat ≠ 0) :
    AtLeast .positive (n.toNat.log2 + 1) n.toFloat.toModel.unpack := by
  have hround : UnpackedFloat.ofUInt64 Format.binary64 n =
      UnpackedFloat.round Format.binary64 .positive n.toNat 0 := by
    have hcompare : compare (n.toNat : Int) 0 = .gt := Int.compare_eq_gt.mpr (by omega)
    simp only [UnpackedFloat.ofUInt64, UnpackedFloat.ofNat, UnpackedFloat.ofInt,
      UnpackedFloat.normalize, hcompare, Int.toNat_natCast]
  have hpos := round_atLeast .positive h
  rw [← hround] at hpos
  exact hpos.unpack_pack (by omega)

theorem le_iff (x y : Float) : x ≤ y ↔ x.toModel.unpack.le y.toModel.unpack = true := by
  have hle : x ≤ y ↔ decide (x.toModel ≤ y.toModel) = true := Iff.rfl
  rw [hle, decide_eq_true_iff]
  exact Iff.rfl

theorem AtLeast.not_le_one {x : Float} {t : Int} (h : AtLeast .positive t x.toModel.unpack)
    (ht : 2 ≤ t) : ¬ x ≤ 1.0 := by
  have hone : (1.0 : Float).toModel.unpack = .finite .positive (2 ^ 52) (-52) (by decide) := rfl
  rw [le_iff, hone]
  generalize x.toModel.unpack = u at h
  cases h with
  | infinity => decide
  | @finite m e hm hlog he =>
    have hcompare : compare e (-52) = .gt := Int.compare_eq_gt.mpr (by omega)
    simp [UnpackedFloat.le, UnpackedFloat.compare, hcompare]

theorem AtLeast.not_zero_le_neg {x : Float} {t : Int} (h : AtLeast .positive t x.toModel.unpack)
    (ht : -1021 ≤ t) : ¬ (0.0 : Float) ≤ -x := by
  have hzero : (0.0 : Float).toModel.unpack = .zero .positive := rfl
  have hneg : AtLeast .negative t (-x).toModel.unpack := h.neg.unpack_pack ht
  rw [le_iff, hzero]
  generalize (-x).toModel.unpack = u at hneg
  cases hneg with
  | infinity => decide
  | finite hm he => simp [UnpackedFloat.le, UnpackedFloat.compare]

end Telemetry.Decimal
