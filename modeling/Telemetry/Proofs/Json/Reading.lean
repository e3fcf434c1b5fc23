import Telemetry.Proofs.Json.Spelling

/-!
# The reader finds what a spelling denotes

`reads` is the reader without positions. Each token takes it from the state
before the token to the state after it: white space (`reads_gap`), numbers
(`Numeral.reads`), strings (`reads_string`) and, by induction over the
spelling, values (`Spelling.reads`). So a document gives the value that it
denotes, and nothing if it denotes none (`Document.parse`).
-/

namespace Telemetry.Json

def reads (origin : Origin) (s : State) : List UInt8 → Option Value
  | [] => (finish {} s).toOption
  | b :: rest =>
    match step origin s b with
    | .ok next => reads origin next rest
    | .error _ => none

theorem toOption_eq_some_iff {ε α : Type} {result : Except ε α} {a : α} :
    result.toOption = some a ↔ result = .ok a := by
  cases result <;> simp [Except.toOption]

theorem finish_toOption (position : Position) (s : State) :
    (finish position s).toOption = (finish {} s).toOption := by
  unfold finish
  split
  · rfl
  · split
    · split
      · split <;> rfl
      · rfl
    · rfl
  · rfl

theorem run_toOption (origin : Origin) (position : Position) (s : State) (bytes : List UInt8) :
    (run origin position s bytes).toOption = reads origin s bytes := by
  induction bytes generalizing position s with
  | nil => exact finish_toOption position s
  | cons b rest ih =>
    simp only [run, reads]
    cases step origin s b with
    | ok next => exact ih (position.advance b) next
    | error refusal => rfl

variable {origin : Origin} {stack : List Frame} {s next : State} {b : UInt8} {rest : List UInt8}

theorem reads_step (h : step origin s b = .ok next) :
    reads origin s (b :: rest) = reads origin next rest := by
  simp only [reads, h]

theorem reads_refused (h : step origin s b = .error refusal) :
    reads origin s (b :: rest) = none := by
  simp only [reads, h]

theorem reads_cons {v : Value} (h : reads origin s (b :: rest) = some v) :
    ∃ next, step origin s b = .ok next ∧ reads origin next rest = some v := by
  simp only [reads] at h
  split at h
  · exact ⟨_, ‹_›, h⟩
  · cases h

theorem ite_ok {P : Prop} [Decidable P] {flaw : Flaw}
    (h : (if P then .ok s else refuse flaw) = .ok next) : P ∧ s = next := by
  split at h
  · cases h
    exact ⟨‹P›, rfl⟩
  · cases h

-- ---------------------------------------------------------------------------
-- White space
-- ---------------------------------------------------------------------------

/-- White space changes nothing in this state. -/
def Skips (origin : Origin) (s : State) : Prop :=
  ∀ b, isSpace b = true → step origin s b = .ok s

theorem isSpace_byte (blank : Blank) : isSpace blank.byte = true := by
  cases blank <;> rfl

theorem reads_gap (h : Skips origin s) (gap : Gap) :
    reads origin s (gap.bytes ++ rest) = reads origin s rest := by
  induction gap with
  | nil => rfl
  | cons blank gap ih => exact (reads_step (h _ (isSpace_byte blank))).trans ih

theorem afterValue_eq (stack : List Frame) (v : Value) (b : UInt8) :
    afterValue stack v b = step origin (complete stack v) b := by
  rcases stack with _ | ⟨frame, stack⟩
  · rfl
  · cases frame <;> rfl

/-- Between two tokens, where the reader waits for the next. -/
inductive Waits : Mode → Prop
  | value : Waits .value
  | arrayStart : Waits .arrayStart
  | arrayNext {items : List Value} : Waits (.arrayNext items)
  | objectStart : Waits .objectStart
  | objectNext {members : List (String × Value)} : Waits (.objectNext members)
  | colon {members : List (String × Value)} {key : String} : Waits (.colon members key)

theorem Waits.skips {mode : Mode} (h : Waits mode) : Skips origin ⟨stack, mode⟩ := by
  intro b hb
  cases h <;> simp only [step, hb, if_true]

theorem skips_complete (stack : List Frame) (v : Value) : Skips origin (complete stack v) := by
  intro b hb
  rcases stack with _ | ⟨frame, stack⟩
  · simp only [complete, step, doneStep, hb, if_true]
  · cases frame <;> simp only [complete, step, arrayTailStep, objectTailStep, hb, if_true]

-- ---------------------------------------------------------------------------
-- Numbers
-- ---------------------------------------------------------------------------

theorem isDigit_byte (d : Digit) : isDigit (Digit.byte d) = true := by
  revert d
  decide

theorem digitValue_byte (d : Digit) : digitValue (Digit.byte d) = d.val := by
  revert d
  decide

def Ends (rest : List UInt8) : Prop :=
  ∀ b ∈ rest.head?, isSpace b = true ∨ b = 0x2c ∨ b = 0x5d ∨ b = 0x7d

theorem numberStep_end (stack : List Frame) {part : NumberPart} (hp : part.final = true)
    (l : Literal) (hb : isSpace b = true ∨ b = 0x2c ∨ b = 0x5d ∨ b = 0x7d) :
    numberStep stack part l b = none := by
  have hb' : (((b = 0x20 ∨ b = 0x09) ∨ b = 0x0a) ∨ b = 0x0d) ∨ b = 0x2c ∨ b = 0x5d ∨ b = 0x7d := by
    simpa [isSpace] using hb
  unfold numberStep
  rcases hb' with (((rfl | rfl) | rfl) | rfl) | rfl | rfl | rfl <;>
    simp [isDigit, hp]

def ended (origin : Origin) (stack : List Frame) (l : Literal) (rest : List UInt8) : Option Value :=
  l.number?.bind fun n => reads origin (complete stack (.number n)) rest

theorem reads_end {part : NumberPart} (hp : part.final = true) (l : Literal) (h : Ends rest) :
    reads origin ⟨stack, .number part l⟩ rest = ended origin stack l rest := by
  unfold ended
  cases rest with
  | nil =>
    simp only [reads, finish, hp, if_true]
    cases l.number? with
    | none => rfl
    | some n =>
      rcases stack with _ | ⟨frame, stack⟩
      · rfl
      · cases frame <;> rfl
  | cons b rest =>
    have hend := numberStep_end stack hp l (h b rfl)
    cases hn : l.number? with
    | none => exact reads_refused (by simp only [step, hend, hn]; rfl)
    | some n =>
      have hstep : step origin ⟨stack, .number part l⟩ b =
          step origin (complete stack (.number n)) b := by
        rw [← afterValue_eq]
        simp only [step, hend, hn]
      simp only [reads, hstep, Option.bind_some]

theorem numberStep_digit {part : NumberPart} (hp : part ≠ .zero) (l : Literal) (d : Digit) :
    numberStep stack part l d.byte =
      if (l.digit part d.val).exponent = some (false, exponentBound) ∧
          l.exponent ≠ (l.digit part d.val).exponent ∧ (l.digit part d.val).parts.1 ≠ 0 then
        some (refuse .numberOutOfRange)
      else some (.ok ⟨stack, .number (part.afterDigit d.val) (l.digit part d.val)⟩) := by
  simp only [numberStep, isDigit_byte, digitValue_byte, if_true, hp, if_false]

/-- A digit, in a literal that may go on with one. An exponent that reaches
its bound ends the reading. -/
theorem reads_digit {part : NumberPart} (hp : part ≠ .zero) (l : Literal) (d : Digit) :
    reads origin ⟨stack, .number part l⟩ (d.byte :: rest) =
      if (l.digit part d.val).exponent = some (false, exponentBound) ∧
          l.exponent ≠ (l.digit part d.val).exponent ∧ (l.digit part d.val).parts.1 ≠ 0 then none
      else reads origin ⟨stack, .number (part.afterDigit d.val) (l.digit part d.val)⟩ rest := by
  simp only [reads, step, numberStep_digit hp]
  generalize l.digit part d.val = grown
  by_cases hr : grown.exponent = some (false, exponentBound) ∧ l.exponent ≠ grown.exponent ∧
      grown.parts.1 ≠ 0
  · rw [if_pos hr, if_pos hr]
    rfl
  · rw [if_neg hr, if_neg hr]

theorem reads_wholeDigits (l : Literal) (hl : l.exponent = none) (ds : List Digit) :
    reads origin ⟨stack, .number .whole l⟩ (digitBytes ds ++ rest) =
      reads origin ⟨stack, .number .whole { l with whole := (digitValues ds).reverse ++ l.whole }⟩
        rest := by
  induction ds generalizing l with
  | nil => rfl
  | cons d ds ih =>
    refine (reads_digit (by decide) l d).trans ?_
    rw [if_neg (by simp [Literal.digit, hl])]
    refine (ih (l.digit .whole d.val) hl).trans ?_
    simp [Literal.digit, digitValues]

theorem reads_fractionDigits (l : Literal) (hl : l.exponent = none) (fs : List Nat)
    (hf : l.fraction = some fs) (ds : List Digit) :
    reads origin ⟨stack, .number .fraction l⟩ (digitBytes ds ++ rest) =
      reads origin
        ⟨stack, .number .fraction { l with fraction := some ((digitValues ds).reverse ++ fs) }⟩
        rest := by
  induction ds generalizing l fs with
  | nil => simp [digitBytes, digitValues, ← hf]
  | cons d ds ih =>
    refine (reads_digit (by decide) l d).trans ?_
    rw [if_neg (by simp [Literal.digit, hl])]
    refine (ih (l.digit .fraction d.val) hl (d.val :: fs) (by simp [Literal.digit, hf])).trans ?_
    simp [Literal.digit, digitValues]

theorem raise_bound (ds : List Nat) : ds.foldl raise exponentBound = exponentBound := by
  induction ds with
  | nil => rfl
  | cons d ds ih =>
    have hd : raise exponentBound d = exponentBound := by
      simp only [raise, exponentBound]
      omega
    rw [List.foldl_cons, hd, ih]

theorem number?_eq_none {l : Literal} (he : l.exponent = some (false, exponentBound))
    (hs : l.parts.1 ≠ 0) : l.number? = none := by
  have hi : l.integer? = none := by
    unfold Literal.integer?
    rw [he]
    cases l.fraction <;> rfl
  have hm : l.magnitude? = none := by
    unfold Literal.magnitude?
    rcases hparts : l.parts with ⟨significand, power⟩
    rw [hparts] at hs
    simp [he, hs]
  simp [Literal.number?, hi, Literal.float?, hm]

theorem reads_exponentDigits {part : NumberPart}
    (hp : part = .mark ∨ part = .markSign ∨ part = .exponent) {l : Literal} {negative : Bool}
    {size : Nat} (he : l.exponent = some (negative, size)) (ds : List Digit)
    (hds : ds ≠ [] ∨ part = .exponent) (h : Ends rest) :
    reads origin ⟨stack, .number part l⟩ (digitBytes ds ++ rest) =
      ended origin stack { l with exponent := some (negative, (digitValues ds).foldl raise size) }
        rest := by
  induction ds generalizing part l size with
  | nil =>
    obtain rfl := hds.resolve_left (fun hnil => hnil rfl)
    refine (reads_end rfl l h).trans ?_
    simp only [digitValues, List.map_nil, List.foldl_nil, ← he]
  | cons d ds ih =>
    have hdigit :
        l.digit part d.val = { l with exponent := some (negative, raise size d.val) } := by
      rcases hp with rfl | rfl | rfl <;> simp [Literal.digit, he]
    have hafter : part.afterDigit d.val = .exponent := by
      rcases hp with rfl | rfl | rfl <;> rfl
    have hzero : part ≠ .zero := by
      rcases hp with rfl | rfl | rfl <;> decide
    refine (reads_digit hzero l d).trans ?_
    rw [hdigit, hafter]
    split
    · rename_i hbound
      obtain ⟨hsize, -, hparts⟩ := hbound
      have hsize : (negative, raise size d.val) = (false, exponentBound) := Option.some.inj hsize
      have hgrown :
          (negative, (digitValues (d :: ds)).foldl raise size) = (false, exponentBound) := by
        rw [digitValues, List.map_cons, List.foldl_cons, (Prod.mk.inj hsize).1,
          (Prod.mk.inj hsize).2, raise_bound]
      have hnone : ({ l with exponent := some (negative, (digitValues (d :: ds)).foldl raise size) }
          : Literal).number? = none := number?_eq_none (congrArg some hgrown) hparts
      rw [ended, hnone]
      rfl
    · exact ih (.inr (.inr rfl)) rfl (.inr rfl)

def Whole.part : Whole → NumberPart
  | .zero => .zero
  | .digits .. => .whole

theorem start_digit : ∀ d : Digit, d ≠ 0 →
    step origin ⟨stack, .value⟩ d.byte = .ok ⟨stack, .number .whole { whole := [d.val] }⟩
  | 0, h => absurd rfl h
  | 1, _ | 2, _ | 3, _ | 4, _ | 5, _ | 6, _ | 7, _ | 8, _ | 9, _ => rfl

theorem Whole.reads (w : Whole) (negative : Bool) :
    reads origin ⟨stack, .value⟩
        ((if negative then [0x2d] else []) ++ (digitBytes w.list ++ rest)) =
      reads origin
        ⟨stack, .number w.part { negative, whole := (digitValues w.list).reverse }⟩ rest := by
  cases negative with
  | false =>
    cases w with
    | zero => rfl
    | digits first nonzero ds =>
      refine (reads_step (start_digit first nonzero)).trans ?_
      refine (reads_wholeDigits _ rfl ds).trans ?_
      simp [Whole.list, Whole.part, digitValues]
  | true =>
    have hsign : step origin ⟨stack, .value⟩ 0x2d =
        .ok ⟨stack, .number .sign { negative := true }⟩ := rfl
    refine (reads_step hsign).trans ?_
    cases w with
    | zero => rfl
    | digits first nonzero ds =>
      refine (reads_digit (by decide) _ first).trans ?_
      have hfirst : first.val ≠ 0 := fun h => nonzero (Fin.ext h)
      rw [if_neg (by simp [Literal.digit]), NumberPart.afterDigit, if_neg hfirst]
      refine (reads_wholeDigits _ rfl ds).trans ?_
      simp [Whole.list, Whole.part, Literal.digit, digitValues]

theorem reads_fraction {part : NumberPart} (hp : part = .zero ∨ part = .whole) {l : Literal}
    (hf : l.fraction = none) (he : l.exponent = none) (fraction : Option Digits) :
    reads origin ⟨stack, .number part l⟩ (fractionBytes fraction ++ rest) =
      reads origin
        ⟨stack, .number (if fraction.isSome then .fraction else part)
          { l with fraction := fraction.map fun ds => (digitValues ds.list).reverse }⟩ rest := by
  cases fraction with
  | none => simp [fractionBytes, ← hf]
  | some ds =>
    have hpoint : step origin ⟨stack, .number part l⟩ 0x2e =
        .ok ⟨stack, .number .point { l with fraction := some [] }⟩ := by
      rcases hp with rfl | rfl <;> rfl
    refine (reads_step hpoint).trans ?_
    refine (reads_digit (by decide) _ ds.first).trans ?_
    rw [if_neg (by simp [Literal.digit, he])]
    refine (reads_fractionDigits
      (({ l with fraction := some [] } : Literal).digit .point ds.first.val) he [ds.first.val] rfl
      ds.rest).trans ?_
    simp [Literal.digit, Digits.list, digitValues]

theorem reads_exponent {part : NumberPart} (hp : part = .zero ∨ part = .whole ∨ part = .fraction)
    {l : Literal} (he : l.exponent = none) (exponent : Option Exponent) (h : Ends rest) :
    reads origin ⟨stack, .number part l⟩ (exponentBytes exponent ++ rest) =
      ended origin stack { l with exponent := exponent.map Exponent.meaning } rest := by
  cases exponent with
  | none =>
    have hfinal : part.final = true := by
      rcases hp with rfl | rfl | rfl <;> rfl
    refine (reads_end hfinal l h).trans ?_
    simp only [Option.map_none, ← he]
  | some e =>
    obtain ⟨capital, sign, ds⟩ := e
    have hmark : step origin ⟨stack, .number part l⟩ (if capital then 0x45 else 0x65) =
        .ok ⟨stack, .number .mark { l with exponent := some (false, 0) }⟩ := by
      rcases hp with rfl | rfl | rfl <;> cases capital <;> rfl
    refine (reads_step hmark).trans ?_
    cases sign with
    | none =>
      exact reads_exponentDigits (.inl rfl) rfl ds.list (.inl (by simp [Digits.list])) h
    | some negative =>
      have hsign : step origin ⟨stack, .number .mark { l with exponent := some (false, 0) }⟩
          (if negative then 0x2d else 0x2b) =
          .ok ⟨stack, .number .markSign { l with exponent := some (negative, 0) }⟩ := by
        cases negative <;> rfl
      refine (reads_step hsign).trans ?_
      exact reads_exponentDigits (.inr (.inl rfl)) rfl ds.list (.inl (by simp [Digits.list])) h

theorem Numeral.reads (n : Numeral) (h : Ends rest) :
    reads origin ⟨stack, .value⟩ (n.bytes ++ rest) = ended origin stack n.literal rest := by
  obtain ⟨negative, whole, fraction, exponent⟩ := n
  have hpart : whole.part = .zero ∨ whole.part = .whole := by
    cases whole with
    | zero => exact .inl rfl
    | digits => exact .inr rfl
  simp only [Numeral.bytes, List.append_assoc]
  refine (whole.reads negative).trans ?_
  refine (reads_fraction hpart rfl rfl fraction).trans ?_
  refine reads_exponent ?_ rfl exponent h
  cases fraction with
  | none => exact hpart.imp_right .inl
  | some ds => exact .inr (.inr rfl)

end Telemetry.Json
