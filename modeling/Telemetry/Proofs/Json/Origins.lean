import Telemetry.Proofs.Json.NumberForms
import Telemetry.Proofs.Json.StringForms

/-!
# Bytes of a text and the text itself

The reader looks at where a text comes from in one place only: at the closing
quote of a string that comes as bytes it checks that the content is UTF-8. In
the bytes of a text this check never fails. A string is cut out of them at
quotes and backslashes, which are ASCII characters, and what an escape adds is a
whole character. So both ways of reading a text are the same, up to the place
of an error (`run_origin`), and no text is refused for its bytes (`run_legible`).
-/

namespace Telemetry.Json

open Utf8 (WellFormed Ascii)

-- ---------------------------------------------------------------------------
-- States before well-formed bytes
-- ---------------------------------------------------------------------------

/-- The digits of an escape that were read, which may turn out to be none. -/
def Escape.pending : Escape → List UInt8
  | .hex digits _ => digits.reverse
  | _ => []

/-- The bytes that go on from this state are cut out of well-formed bytes: with
the open string before them, or on their own after a backslash. -/
def State.Aligned (s : State) (rest : List UInt8) : Prop :=
  match s.mode with
  | .string _ content .none => WellFormed (content.reverse ++ rest)
  | .string _ content escape =>
    WellFormed content.reverse ∧ WellFormed (escape.pending ++ rest)
  | .word next letters _ => (∀ letter ∈ next :: letters, Ascii letter) ∧ WellFormed rest
  | _ => WellFormed rest

/-- Any well-formed bytes may go on from this state. -/
def State.Fresh (s : State) : Prop :=
  ∀ rest, WellFormed rest → s.Aligned rest

def State.Outside (s : State) : Prop :=
  ∀ role content escape, s.mode ≠ .string role content escape

def Step.Tokens (b : UInt8) (step : Step) : Prop :=
  ∀ next, step = .ok next → Ascii b ∧ next.Fresh

variable {origin : Origin} {stack : List Frame} {role : Role} {content rest : List UInt8}
  {s next : State} {b : UInt8} {v : Value}

theorem fresh_complete (stack : List Frame) (v : Value) : (complete stack v).Fresh := by
  rcases stack with _ | ⟨frame, stack⟩
  · exact fun _ h => h
  · cases frame <;> exact fun _ h => h

theorem fresh_string (role : Role) : State.Fresh ⟨stack, .string role [] .none⟩ :=
  fun _ h => h

theorem tokens_ok (ascii : Ascii b) (fresh : s.Fresh) : Step.Tokens b (.ok s) := by
  rintro next ⟨⟩
  exact ⟨ascii, fresh⟩

theorem tokens_error {refusal : Refusal} : Step.Tokens b (.error refusal) := by
  rintro next ⟨⟩

theorem tokens_refuse {flaw : Flaw} : Step.Tokens b (refuse flaw) :=
  tokens_error

theorem tokens_ite {P : Prop} [Decidable P] {first second : Step} (h : P → first.Tokens b)
    (h' : second.Tokens b) : Step.Tokens b (if P then first else second) := by
  split
  · exact h ‹P›
  · exact h'

theorem ascii_of_beq {letter : UInt8} (ascii : Ascii letter) (h : (b == letter) = true) :
    Ascii b :=
  beq_iff_eq.mp h ▸ ascii

theorem ascii_of_isSpace (h : isSpace b = true) : Ascii b := by
  simp only [isSpace, Bool.or_eq_true, beq_iff_eq] at h
  rcases h with ((rfl | rfl) | rfl) | rfl <;> decide

theorem ascii_of_isDigit (h : isDigit b = true) : Ascii b := by
  obtain ⟨d, rfl⟩ := exists_digit h
  clear h
  revert d
  decide

-- ---------------------------------------------------------------------------
-- Outside strings
-- ---------------------------------------------------------------------------

theorem start_tokens : (start stack b).Tokens b := by
  have hword {next : UInt8} {letters : List UInt8} {meant : Value}
      (ascii : ∀ letter ∈ next :: letters, Ascii letter) :
      State.Fresh ⟨stack, .word next letters meant⟩ := fun _ h => ⟨ascii, h⟩
  unfold start
  refine tokens_ite (fun h => tokens_ok (ascii_of_beq (by decide) h) (hword (by simp [Ascii]))) ?_
  refine tokens_ite (fun h => tokens_ok (ascii_of_beq (by decide) h) (hword (by simp [Ascii]))) ?_
  refine tokens_ite (fun h => tokens_ok (ascii_of_beq (by decide) h) (hword (by simp [Ascii]))) ?_
  refine tokens_ite (fun h => tokens_ok (ascii_of_beq (by decide) h) fun _ h => h) ?_
  refine tokens_ite (fun h => tokens_ok (ascii_of_beq (by decide) h) fun _ h => h) ?_
  refine tokens_ite (fun h => tokens_ok (ascii_of_isDigit h) fun _ h => h) ?_
  refine tokens_ite (fun h => tokens_ok (ascii_of_beq (by decide) h) (fresh_string _)) ?_
  refine tokens_ite (fun h => tokens_ite
    (fun _ => tokens_ok (ascii_of_beq (by decide) h) fun _ h => h) tokens_refuse) ?_
  exact tokens_ite (fun h => tokens_ite
    (fun _ => tokens_ok (ascii_of_beq (by decide) h) fun _ h => h) tokens_refuse) tokens_refuse

theorem wordStep_tokens {letter : UInt8} {letters : List UInt8}
    (ascii : ∀ later ∈ letter :: letters, Ascii later) :
    (wordStep stack letter letters v b).Tokens b := by
  intro next hnext
  unfold wordStep at hnext
  split at hnext
  · cases hnext
  · have hb : b = letter := by simpa using ‹¬ b ≠ letter›
    subst hb
    refine ⟨ascii b List.mem_cons_self, ?_⟩
    cases letters with
    | nil =>
      cases hnext
      exact fresh_complete stack v
    | cons later letters =>
      cases hnext
      exact fun _ h => ⟨fun other hother => ascii other (List.mem_cons_of_mem _ hother), h⟩

theorem ascii_of_continued? {part after : NumberPart} (h : Skim.continued? part b = some after) :
    Ascii b := by
  unfold Skim.continued? at h
  split at h
  · exact ascii_of_isDigit ‹_›
  · split at h
    · rename_i hpoint
      obtain ⟨rfl, -⟩ := by simpa using hpoint
      decide
    · split at h
      · rename_i hmark
        obtain ⟨rfl | rfl, -⟩ := by simpa using hmark
        all_goals decide
      · obtain ⟨hsign, -⟩ := Option.ite_none_right_eq_some.mp h
        obtain ⟨rfl | rfl, -⟩ := by simpa using hsign
        all_goals decide

theorem numberStep_tokens {part : NumberPart} {l : Literal} {result : Step}
    (h : numberStep stack part l b = some result) : result.Tokens b := by
  rintro next rfl
  obtain ⟨after, grown, hafter, rfl⟩ := numberStep_ok h
  exact ⟨ascii_of_continued? hafter, fun _ h => h⟩

theorem arrayTailStep_tokens (items : List Value) : (arrayTailStep stack items b).Tokens b :=
  tokens_ite (fun h => tokens_ok (ascii_of_isSpace h) fun _ h => h) <|
  tokens_ite (fun h => tokens_ok (ascii_of_beq (by decide) h) fun _ h => h) <|
  tokens_ite (fun h => tokens_ok (ascii_of_beq (by decide) h) (fresh_complete _ _)) tokens_refuse

theorem objectTailStep_tokens (members : List (String × Value)) :
    (objectTailStep stack members b).Tokens b :=
  tokens_ite (fun h => tokens_ok (ascii_of_isSpace h) fun _ h => h) <|
  tokens_ite (fun h => tokens_ok (ascii_of_beq (by decide) h) fun _ h => h) <|
  tokens_ite (fun h => tokens_ok (ascii_of_beq (by decide) h) (fresh_complete _ _)) tokens_refuse

theorem doneStep_tokens : (doneStep v b).Tokens b :=
  tokens_ite (fun h => tokens_ok (ascii_of_isSpace h) fun _ h => h) tokens_refuse

theorem afterValue_tokens (stack : List Frame) (v : Value) : (afterValue stack v b).Tokens b := by
  rcases stack with _ | ⟨frame, stack⟩
  · exact doneStep_tokens
  · cases frame with
    | array items => exact arrayTailStep_tokens _
    | object members key => exact objectTailStep_tokens _

/-- Outside strings the reader takes ASCII characters only. -/
theorem step_tokens (outside : s.Outside) (aligned : s.Aligned (b :: rest)) :
    (step origin s b).Tokens b := by
  obtain ⟨stack, mode⟩ := s
  have hspace {later : Step} (fresh : State.Fresh ⟨stack, mode⟩) (h : later.Tokens b) :
      Step.Tokens b (if isSpace b then .ok ⟨stack, mode⟩ else later) :=
    tokens_ite (fun hb => tokens_ok (ascii_of_isSpace hb) fresh) h
  have hbyte {letter : UInt8} (ascii : Ascii letter) {next : State} (fresh : next.Fresh)
      {later : Step} (h : later.Tokens b) :
      Step.Tokens b (if b == letter then .ok next else later) :=
    tokens_ite (fun hb => tokens_ok (ascii_of_beq ascii hb) fresh) h
  cases mode with
  | string role content escape => exact absurd rfl (outside role content escape)
  | word next letters meant => exact wordStep_tokens aligned.1
  | number part l =>
    simp only [step]
    cases hnumber : numberStep stack part l b with
    | some result => exact numberStep_tokens hnumber
    | none =>
      cases l.number? with
      | some n => exact afterValue_tokens stack _
      | none => exact tokens_error
  | value => exact hspace (fun _ h => h) start_tokens
  | arrayStart =>
    exact hspace (fun _ h => h) (hbyte (by decide) (fresh_complete _ _) start_tokens)
  | arrayNext items => exact hspace (fun _ h => h) (tokens_ite (fun _ => tokens_refuse) start_tokens)
  | arrayTail items => exact arrayTailStep_tokens items
  | objectStart =>
    exact hspace (fun _ h => h) (hbyte (by decide) (fresh_complete _ _)
      (hbyte (by decide) (fresh_string _) tokens_refuse))
  | objectNext members =>
    exact hspace (fun _ h => h) (tokens_ite (fun _ => tokens_refuse)
      (hbyte (by decide) (fresh_string _) tokens_refuse))
  | objectTail members => exact objectTailStep_tokens members
  | colon members key =>
    have hmember : State.Fresh ⟨.object members key :: stack, .value⟩ := fun _ h => h
    exact hspace (fun _ h => h) (hbyte (by decide) hmember tokens_refuse)
  | done v => exact doneStep_tokens

-- ---------------------------------------------------------------------------
-- Inside strings
-- ---------------------------------------------------------------------------

/-- Well-formed content is held as it is, wherever it comes from. -/
theorem close_wellFormed (h : WellFormed content.reverse) :
    ∃ held, Utf8.toString? content.reverse = some held ∧ ∀ origin, close origin content = .ok held := by
  obtain ⟨held, hheld⟩ := h.exists_toString?
  exact ⟨held, hheld, fun origin => by simp only [close, hheld]⟩

theorem reverse_extend (content : List UInt8) (c : Char) :
    (extend content c).reverse = content.reverse ++ String.utf8EncodeChar c := by
  simp [extend]

theorem aligned_extend (h : WellFormed content.reverse) (hrest : WellFormed rest) (c : Char) :
    State.Aligned ⟨stack, .string role (extend content c) .none⟩ rest := by
  have hextended : WellFormed (extend content c).reverse := by
    rw [reverse_extend]
    exact h.append (Utf8.wellFormed_encodeChar c)
  exact hextended.append hrest

theorem ascii_of_shortEscape? {c : Char} (h : shortEscape? b = some c) : Ascii b := by
  obtain ⟨e, rfl, -⟩ := exists_shortEscape h
  cases e <;> decide

theorem ascii_hexDigit (d : HexDigit) : Ascii d.byte := by
  obtain ⟨value, capital⟩ := d
  revert value capital
  decide

theorem ascii_of_hexNumber? {digits : List UInt8} {n : Nat}
    (h : hexNumber? (b :: digits) = some n) : Ascii b := by
  obtain ⟨⟨d, rfl⟩, -⟩ := hexNumber?_cons h
  exact ascii_hexDigit d

/-- A byte outside escapes is cut off if it is a quote or a backslash, and goes
on with the bytes before it if not. -/
theorem plainByte_aligned
    (aligned : State.Aligned ⟨stack, .string role content .none⟩ (b :: rest))
    (h : stringStep origin stack role content .none b = .ok next) : next.Aligned rest := by
  have hbytes : WellFormed (content.reverse ++ b :: rest) := aligned
  simp only [stringStep] at h
  split at h
  · rename_i hquote
    obtain ⟨hcontent, hrest⟩ := hbytes.cut (ascii_of_beq (by decide) hquote)
    obtain ⟨held, -, hclose⟩ := close_wellFormed hcontent
    simp only [hclose origin] at h
    cases role with
    | value =>
      cases h
      exact fresh_complete stack _ rest hrest
    | key members =>
      cases h
      exact hrest
  · split at h
    · rename_i hbackslash
      cases h
      exact hbytes.cut (ascii_of_beq (by decide) hbackslash)
    · split at h
      · cases h
      · cases h
        simpa [State.Aligned] using hbytes

/-- The digits of an escape wait for the fourth one, which is ASCII as they
are. -/
theorem hexByte_aligned {digits : List UInt8} {pair : Option Nat}
    (aligned : State.Aligned ⟨stack, .string role content (.hex digits pair)⟩ (b :: rest))
    (h : stringStep origin stack role content (.hex digits pair) b = .ok next) :
    next.Aligned rest := by
  obtain ⟨hcontent, hbytes⟩ :
    WellFormed content.reverse ∧ WellFormed (digits.reverse ++ b :: rest) := aligned
  simp only [stringStep] at h
  split at h
  · cases h
    refine ⟨hcontent, ?_⟩
    simpa [Escape.pending] using hbytes
  · cases hnumber : hexNumber? (b :: digits) with
    | none =>
      simp only [hnumber] at h
      cases h
    | some n =>
      have hrest : WellFormed rest := (hbytes.cut (ascii_of_hexNumber? hnumber)).2
      simp only [hnumber] at h
      cases pair with
      | none =>
        dsimp only at h
        split at h
        · cases h
        · split at h
          · cases h
            exact ⟨hcontent, hrest⟩
          · cases h
            exact aligned_extend hcontent hrest _
      | some lead =>
        dsimp only at h
        split at h
        · cases h
          exact aligned_extend hcontent hrest _
        · cases h

theorem stringStep_aligned {escape : Escape}
    (aligned : State.Aligned ⟨stack, .string role content escape⟩ (b :: rest))
    (h : stringStep origin stack role content escape b = .ok next) : next.Aligned rest := by
  cases escape with
  | none => exact plainByte_aligned aligned h
  | hex digits pair => exact hexByte_aligned aligned h
  | opened =>
    obtain ⟨hcontent, hbytes⟩ : WellFormed content.reverse ∧ WellFormed (b :: rest) := aligned
    simp only [stringStep] at h
    split at h
    · rename_i hu
      cases h
      exact ⟨hcontent, hbytes.tail (ascii_of_beq (by decide) hu)⟩
    · split at h
      · rename_i c hshort
        cases h
        exact aligned_extend hcontent (hbytes.tail (ascii_of_shortEscape? hshort)) c
      · cases h
  | paired lead =>
    obtain ⟨hcontent, hbytes⟩ : WellFormed content.reverse ∧ WellFormed (b :: rest) := aligned
    obtain ⟨hbackslash, rfl⟩ := ite_ok h
    exact ⟨hcontent, hbytes.tail (ascii_of_beq (by decide) hbackslash)⟩
  | pairedOpened lead =>
    obtain ⟨hcontent, hbytes⟩ : WellFormed content.reverse ∧ WellFormed (b :: rest) := aligned
    obtain ⟨hu, rfl⟩ := ite_ok h
    exact ⟨hcontent, hbytes.tail (ascii_of_beq (by decide) hu)⟩

-- ---------------------------------------------------------------------------
-- Whole texts
-- ---------------------------------------------------------------------------

theorem State.Outside.wellFormed (outside : s.Outside) (aligned : s.Aligned (b :: rest))
    (ascii : Ascii b) : WellFormed rest := by
  obtain ⟨stack, mode⟩ := s
  cases mode with
  | string role content escape => exact absurd rfl (outside role content escape)
  | word next letters meant => exact Utf8.WellFormed.tail aligned.2 ascii
  | _ => exact Utf8.WellFormed.tail aligned ascii

theorem step_aligned (aligned : s.Aligned (b :: rest)) (h : step origin s b = .ok next) :
    next.Aligned rest := by
  by_cases outside : s.Outside
  · obtain ⟨ascii, fresh⟩ := step_tokens outside aligned next h
    exact fresh rest (outside.wellFormed aligned ascii)
  · obtain ⟨stack, mode⟩ := s
    cases mode with
    | string role content escape => exact stringStep_aligned aligned h
    | _ => exact absurd (fun _ _ _ h => nomatch h) outside

/-- In well-formed bytes a step is the same wherever they come from. -/
theorem step_origin (aligned : s.Aligned (b :: rest)) : step .bytes s b = step .text s b := by
  obtain ⟨stack, mode⟩ := s
  cases mode with
  | string role content escape =>
    cases escape with
    | none =>
      by_cases hquote : b = 0x22
      · subst hquote
        have hbytes : WellFormed (content.reverse ++ 0x22 :: rest) := aligned
        obtain ⟨held, -, hclose⟩ := close_wellFormed (hbytes.cut (by decide)).1
        simp only [step, stringStep, hclose]
      · simp only [step, stringStep, beq_iff_eq, if_neg hquote]
    | _ => rfl
  | _ => rfl

theorem run_origin {bytes : List UInt8} (aligned : s.Aligned bytes) (position : Position) :
    run .bytes position s bytes = run .text position s bytes := by
  induction bytes generalizing s position with
  | nil => rfl
  | cons b rest ih =>
    simp only [run, step_origin aligned]
    cases hstep : step .text s b with
    | ok next => exact ih (step_aligned aligned hstep) (position.advance b)
    | error refusal => rfl

theorem start_aligned (text : String) : State.Aligned {} (Utf8.ofString text) :=
  Utf8.wellFormed_ofString text

theorem parse_origin (text : String) : parse (Utf8.ofString text) = parseText text :=
  run_origin (start_aligned text) {}

def reached? (origin : Origin) (s : State) : List UInt8 → Option State
  | [] => some s
  | b :: rest =>
    match step origin s b with
    | .ok next => reached? origin next rest
    | .error _ => none

theorem aligned_reached {first : List UInt8} (aligned : s.Aligned (first ++ rest))
    (h : reached? origin s first = some next) : next.Aligned rest := by
  induction first generalizing s with
  | nil =>
    cases h
    exact aligned
  | cons b first ih =>
    simp only [reached?] at h
    cases hstep : step origin s b with
    | ok after =>
      simp only [hstep] at h
      exact ih (step_aligned aligned hstep) h
    | error refusal =>
      simp only [hstep] at h
      cases h

-- ---------------------------------------------------------------------------
-- What is wrong with a text
-- ---------------------------------------------------------------------------

/-- If the step fails, then not for bytes that are not UTF-8. -/
def Step.Legible (step : Step) : Prop :=
  ∀ refusal, step = .error refusal → refusal.flaw ≠ .invalidUtf8

@[simp] theorem legible_ok : Step.Legible (.ok s) :=
  fun _ h => nomatch h

@[simp] theorem legible_error {refusal : Refusal} :
    Step.Legible (.error refusal) ↔ refusal.flaw ≠ .invalidUtf8 :=
  ⟨fun h => h refusal rfl, by rintro h other ⟨⟩; exact h⟩

@[simp] theorem legible_refuse {flaw : Flaw} : (refuse flaw).Legible ↔ flaw ≠ .invalidUtf8 :=
  legible_error

@[simp] theorem legible_ite {P : Prop} [Decidable P] {first second : Step} :
    (if P then first else second).Legible ↔ (P → first.Legible) ∧ (¬ P → second.Legible) := by
  split <;> simp [*]

theorem close_text (content : List UInt8) : ∃ held, close .text content = .ok held := by
  unfold close
  dsimp only
  split
  · exact ⟨_, rfl⟩
  · exact ⟨_, rfl⟩

theorem stringStep_legible {escape : Escape} :
    (stringStep .text stack role content escape b).Legible := by
  cases escape with
  | none =>
    obtain ⟨held, hclose⟩ := close_text content
    cases role <;> simp [stringStep, hclose]
  | opened => cases hshort : shortEscape? b <;> simp [stringStep, hshort]
  | hex digits pair =>
    cases hnumber : hexNumber? (b :: digits) <;> cases pair <;> simp [stringStep, hnumber]
  | _ => simp [stringStep]

theorem numberStep_legible {part : NumberPart} {l : Literal} {result : Step}
    (h : numberStep stack part l b = some result) : result.Legible := by
  simp only [numberStep] at h
  repeat' (split at h)
  all_goals cases h
  all_goals simp

theorem afterValue_legible : (afterValue stack v b).Legible := by
  rcases stack with _ | ⟨frame, stack⟩
  · simp [afterValue, doneStep]
  · cases frame <;> simp [afterValue, arrayTailStep, objectTailStep]

theorem step_legible : (step .text s b).Legible := by
  rcases s with ⟨stack, mode⟩
  cases mode with
  | string role content escape => exact stringStep_legible
  | number part l =>
    simp only [step]
    cases hnumber : numberStep stack part l b with
    | some result => exact numberStep_legible hnumber
    | none => cases l.number? <;> simp [afterValue_legible]
  | word letter letters meant => cases letters <;> simp [step, wordStep]
  | _ => simp [step, start, arrayTailStep, objectTailStep, doneStep]

theorem run_legible {bytes : List UInt8} {position place : Position} {flaw : Flaw}
    (h : run .text position s bytes = .error (.malformed flaw place)) : flaw ≠ .invalidUtf8 := by
  induction bytes generalizing s position with
  | nil =>
    simp only [run, finish] at h
    repeat' (split at h)
    all_goals cases h
    decide
  | cons b rest ih =>
    simp only [run] at h
    cases hstep : step .text s b with
    | ok next =>
      rw [hstep] at h
      exact ih h
    | error refusal =>
      rw [hstep] at h
      cases h
      exact step_legible refusal hstep

end Telemetry.Json
