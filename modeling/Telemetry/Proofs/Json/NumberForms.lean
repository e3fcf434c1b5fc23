import Telemetry.Json.Skim
import Telemetry.Proofs.Json.Documents

/-!
# Bytes that are read as a number

If the reader gets through a number and what follows it, the number is a
numeral and ends before a byte that may end one (`numeral_form`). The
invariant is `NumberPart.Goes`: how a numeral goes on after one of its parts.
-/

namespace Telemetry.Json

variable {origin : Origin} {stack : List Frame} {bytes : List UInt8} {v : Value} {b : UInt8}

-- ---------------------------------------------------------------------------
-- Parts of a numeral
-- ---------------------------------------------------------------------------

/-- These bytes complete a numeral of which this part came last. -/
def NumberPart.Goes (part : NumberPart) (bytes : List UInt8) : Prop :=
  match part with
  | .sign => ∃ (whole : Whole) (fraction : Option Digits) (exponent : Option Exponent),
    bytes = digitBytes whole.list ++ (fractionBytes fraction ++ exponentBytes exponent)
  | .zero => ∃ (fraction : Option Digits) (exponent : Option Exponent),
    bytes = fractionBytes fraction ++ exponentBytes exponent
  | .whole => ∃ (ds : List Digit) (fraction : Option Digits) (exponent : Option Exponent),
    bytes = digitBytes ds ++ (fractionBytes fraction ++ exponentBytes exponent)
  | .point => ∃ (ds : Digits) (exponent : Option Exponent),
    bytes = digitBytes ds.list ++ exponentBytes exponent
  | .fraction => ∃ (ds : List Digit) (exponent : Option Exponent),
    bytes = digitBytes ds ++ exponentBytes exponent
  | .mark => ∃ e : Exponent, bytes = e.bytes.tail
  | .markSign => ∃ ds : Digits, bytes = digitBytes ds.list
  | .exponent => ∃ ds : List Digit, bytes = digitBytes ds

theorem NumberPart.goes_nil {part : NumberPart} (h : part.final = true) : part.Goes [] := by
  cases part with
  | zero => exact ⟨none, none, rfl⟩
  | whole => exact ⟨[], none, none, rfl⟩
  | fraction => exact ⟨[], none, rfl⟩
  | exponent => exact ⟨[], rfl⟩
  | _ => cases h

theorem exists_digit (h : isDigit b = true) : ∃ d : Digit, b = d.byte := by
  simp only [isDigit, Bool.and_eq_true, decide_eq_true_eq, UInt8.le_iff_toNat_le] at h
  obtain ⟨hlow, hhigh⟩ : 0x30 ≤ b.toNat ∧ b.toNat ≤ 0x39 := h
  refine ⟨⟨b.toNat - 0x30, by omega⟩, UInt8.toNat_inj.mp ?_⟩
  rw [Digit.byte, UInt8.toNat_ofNat']
  dsimp only
  omega

theorem goes_digit {part : NumberPart} (hpart : part ≠ .zero) (d : Digit)
    (h : (part.afterDigit d.val).Goes bytes) : part.Goes (d.byte :: bytes) := by
  cases part with
  | sign =>
    by_cases hd : d = 0
    · subst hd
      obtain ⟨fraction, exponent, rfl⟩ := h
      exact ⟨.zero, fraction, exponent, rfl⟩
    · have hval : d.val ≠ 0 := fun hval => hd (Fin.ext hval)
      rw [NumberPart.afterDigit, if_neg hval] at h
      obtain ⟨ds, fraction, exponent, rfl⟩ := h
      exact ⟨.digits d hd ds, fraction, exponent, rfl⟩
  | zero => exact absurd rfl hpart
  | whole =>
    obtain ⟨ds, fraction, exponent, rfl⟩ := h
    exact ⟨d :: ds, fraction, exponent, rfl⟩
  | point =>
    obtain ⟨ds, exponent, rfl⟩ := h
    exact ⟨⟨d, ds⟩, exponent, rfl⟩
  | fraction =>
    obtain ⟨ds, exponent, rfl⟩ := h
    exact ⟨d :: ds, exponent, rfl⟩
  | mark =>
    obtain ⟨ds, rfl⟩ := h
    exact ⟨{ digits := ⟨d, ds⟩ }, rfl⟩
  | markSign =>
    obtain ⟨ds, rfl⟩ := h
    exact ⟨⟨d, ds⟩, rfl⟩
  | exponent =>
    obtain ⟨ds, rfl⟩ := h
    exact ⟨d :: ds, rfl⟩

theorem goes_point {part : NumberPart} (hpart : part = .zero ∨ part = .whole)
    (h : NumberPart.point.Goes bytes) : part.Goes (0x2e :: bytes) := by
  obtain ⟨ds, exponent, rfl⟩ := h
  rcases hpart with rfl | rfl
  · exact ⟨some ds, exponent, rfl⟩
  · exact ⟨[], some ds, exponent, rfl⟩

theorem goes_mark {part : NumberPart} (hpart : part = .zero ∨ part = .whole ∨ part = .fraction)
    (capital : Bool) (h : NumberPart.mark.Goes bytes) :
    part.Goes ((if capital then 0x45 else 0x65) :: bytes) := by
  obtain ⟨e, rfl⟩ := h
  have hbytes : (if capital then 0x45 else 0x65) :: e.bytes.tail =
      exponentBytes (some { e with capital }) := rfl
  rw [hbytes]
  rcases hpart with rfl | rfl | rfl
  · exact ⟨none, some { e with capital }, rfl⟩
  · exact ⟨[], none, some { e with capital }, rfl⟩
  · exact ⟨[], some { e with capital }, rfl⟩

theorem goes_sign (negative : Bool) (h : NumberPart.markSign.Goes bytes) :
    NumberPart.mark.Goes ((if negative then 0x2d else 0x2b) :: bytes) := by
  obtain ⟨ds, rfl⟩ := h
  exact ⟨{ sign := some negative, digits := ds }, rfl⟩

theorem goes_continued {part after : NumberPart} (h : Skim.continued? part b = some after)
    (hafter : after.Goes bytes) : part.Goes (b :: bytes) := by
  unfold Skim.continued? at h
  split at h
  · rename_i hdigit
    obtain ⟨d, rfl⟩ := exists_digit hdigit
    obtain ⟨hpart, h⟩ := Option.ite_none_left_eq_some.mp h
    cases h
    rw [digitValue_byte] at hafter
    exact goes_digit hpart d hafter
  · split at h
    · rename_i hpoint
      obtain ⟨rfl, hpart⟩ := by simpa using hpoint
      cases h
      exact goes_point hpart hafter
    · split at h
      · rename_i hmark
        obtain ⟨hb, hpart⟩ := by simpa using hmark
        cases h
        rcases hb with rfl | rfl
        · exact goes_mark (by tauto) false hafter
        · exact goes_mark (by tauto) true hafter
      · obtain ⟨hsign, h⟩ := Option.ite_none_right_eq_some.mp h
        obtain rfl := Option.some.inj h
        obtain ⟨hb, rfl⟩ := by simpa using hsign
        rcases hb with rfl | rfl
        · exact goes_sign false hafter
        · exact goes_sign true hafter

-- ---------------------------------------------------------------------------
-- Numerals
-- ---------------------------------------------------------------------------

theorem numberStep_ok {part : NumberPart} {l : Literal} {next : State}
    (h : numberStep stack part l b = some (.ok next)) :
    ∃ after grown, Skim.continued? part b = some after ∧ next = ⟨stack, .number after grown⟩ := by
  unfold numberStep at h
  unfold Skim.continued?
  dsimp only at h
  split at h
  · rename_i hdigit
    rw [if_pos hdigit]
    split at h
    · cases h
    · rename_i hpart
      rw [if_neg hpart]
      split at h
      · cases h
      · cases h
        exact ⟨_, _, rfl, rfl⟩
  · rename_i hdigit
    rw [if_neg hdigit]
    split at h
    · rename_i hpoint
      cases h
      exact ⟨_, _, if_pos hpoint, rfl⟩
    · rename_i hpoint
      rw [if_neg hpoint]
      split at h
      · rename_i hmark
        cases h
        exact ⟨_, _, if_pos hmark, rfl⟩
      · rename_i hmark
        rw [if_neg hmark]
        split at h
        · rename_i hsign
          cases h
          exact ⟨_, _, if_pos hsign, rfl⟩
        · split at h <;> cases h

theorem numberStep_none {part : NumberPart} {l : Literal} (h : numberStep stack part l b = none) :
    part.final = true := by
  unfold numberStep at h
  dsimp only at h
  split at h
  · split at h
    · cases h
    · split at h <;> cases h
  · split at h
    · cases h
    · split at h
      · cases h
      · split at h
        · cases h
        · split at h
          · assumption
          · cases h

theorem number_form {part : NumberPart} {l : Literal}
    (h : reads origin ⟨stack, .number part l⟩ bytes = some v) :
    ∃ spelled rest, bytes = spelled ++ rest ∧ part.Goes spelled ∧ Ends rest := by
  induction bytes generalizing part l with
  | nil =>
    refine ⟨[], [], rfl, NumberPart.goes_nil ?_, ends_nil⟩
    by_contra hpart
    simp [reads, finish, hpart, Except.toOption] at h
  | cons b bytes ih =>
    obtain ⟨next, hstep, hnext⟩ := reads_cons h
    simp only [step] at hstep
    cases hnumber : numberStep stack part l b with
    | some outcome =>
      simp only [hnumber] at hstep
      subst hstep
      obtain ⟨after, grown, hafter, rfl⟩ := numberStep_ok hnumber
      obtain ⟨spelled, rest, rfl, hgoes, hends⟩ := ih hnext
      exact ⟨b :: spelled, rest, rfl, goes_continued hafter hgoes, hends⟩
    | none =>
      simp only [hnumber] at hstep
      refine ⟨[], b :: bytes, rfl, NumberPart.goes_nil (numberStep_none hnumber), ?_⟩
      split at hstep
      · have hvalue : step origin (complete stack _) b = .ok next :=
          (afterValue_eq stack _ b).symm.trans hstep
        rintro b ⟨⟩
        exact ends_of_step hvalue
      · cases hstep

theorem numeral_form (hb : b = 0x2d ∨ isDigit b = true)
    (h : reads origin ⟨stack, .value⟩ (b :: bytes) = some v) :
    ∃ (n : Numeral) (rest : List UInt8), b :: bytes = n.bytes ++ rest ∧ Ends rest := by
  rcases hb with rfl | hdigit
  · have hstep : step origin ⟨stack, .value⟩ 0x2d =
        .ok ⟨stack, .number .sign { negative := true }⟩ := rfl
    obtain ⟨spelled, rest, rfl, ⟨whole, fraction, exponent, rfl⟩, hends⟩ :=
      number_form ((reads_step hstep).symm.trans h)
    exact ⟨⟨true, whole, fraction, exponent⟩, rest, by simp [Numeral.bytes], hends⟩
  · obtain ⟨d, rfl⟩ := exists_digit hdigit
    by_cases hd : d = 0
    · subst hd
      have hstep : step origin ⟨stack, .value⟩ (Digit.byte 0) =
          .ok ⟨stack, .number .zero { whole := [0] }⟩ := rfl
      obtain ⟨spelled, rest, rfl, ⟨fraction, exponent, rfl⟩, hends⟩ :=
        number_form ((reads_step hstep).symm.trans h)
      exact ⟨⟨false, .zero, fraction, exponent⟩, rest, by simp [Numeral.bytes, Whole.list, digitBytes],
        hends⟩
    · obtain ⟨spelled, rest, rfl, ⟨ds, fraction, exponent, rfl⟩, hends⟩ :=
        number_form ((reads_step (start_digit d hd)).symm.trans h)
      exact ⟨⟨false, .digits d hd ds, fraction, exponent⟩, rest,
        by simp [Numeral.bytes, Whole.list, digitBytes], hends⟩

end Telemetry.Json
