import Telemetry.Json.Scan
import Telemetry.Proofs.Json.Grammar

/-!
# Values in front of a text

A scan takes a value from the front of a text, or passes over one, and leaves
the rest. The value that is taken is the one that the bytes before the rest
read as on their own (`front_sound`), and bytes that read as a value are taken
whatever comes after them, as long as no number goes on with it
(`front_complete`). White space at their end may be left, since the reader
stops at the last byte of a value. Passing over is told apart in the same way
(`Skim.run_sound`, `Skim.run_append`). `Scan.Gives` says what a scan made of
such steps gives and leaves.
-/

namespace Telemetry.Json

variable {origin : Origin} {stack : List Frame} {s next : State} {v w : Value} {b : UInt8}
  {bytes rest text : List UInt8}

def Stops (rest : List UInt8) : Prop :=
  ∀ b ∈ rest.head?, isSpace b = true ∨ b = 0x2c ∨ b = 0x3a ∨ b = 0x5d ∨ b = 0x7d

theorem stops_nil : Stops [] := by
  simp [Stops]

theorem stops_gap (gap : Gap) (h : Stops rest) : Stops (gap.bytes ++ rest) := by
  cases gap with
  | nil => exact h
  | cons blank gap =>
    rintro b ⟨⟩
    exact .inl (isSpace_byte blank)

theorem Stops.numberStep (h : Stops (b :: rest)) {part : NumberPart} (hpart : part.final = true)
    (stack : List Frame) (l : Literal) : numberStep stack part l b = none := by
  rcases h b rfl with hspace | rfl | rfl | hclose
  · exact numberStep_end stack hpart l (.inl hspace)
  · exact numberStep_end stack hpart l (.inr (.inl rfl))
  · simp [Json.numberStep, isDigit, hpart]
  · exact numberStep_end stack hpart l (.inr (.inr hclose))

-- ---------------------------------------------------------------------------
-- Values are whole outside all containers
-- ---------------------------------------------------------------------------

/-- A value is whole only outside all containers. -/
def State.Closed (s : State) : Prop :=
  ∀ v, s.mode = .done v → s.stack = []

def Step.Closes (step : Step) : Prop :=
  ∀ next, step = .ok next → next.Closed

@[simp] theorem complete_closed (stack : List Frame) (v : Value) : (complete stack v).Closed := by
  rcases stack with _ | ⟨frame, stack⟩
  · exact fun _ _ => rfl
  · cases frame <;> exact fun _ h => (nomatch h)

@[simp] theorem closed_mk {mode : Mode} :
    State.Closed ⟨stack, mode⟩ ↔ ∀ v, mode = .done v → stack = [] := Iff.rfl

@[simp] theorem closes_ok : Step.Closes (.ok s) ↔ s.Closed :=
  ⟨fun h => h s rfl, by rintro h next ⟨⟩; exact h⟩

@[simp] theorem closes_error {refusal : Refusal} : Step.Closes (.error refusal) :=
  fun _ h => nomatch h

@[simp] theorem closes_refuse {flaw : Flaw} : (refuse flaw).Closes :=
  fun _ h => nomatch h

@[simp] theorem closes_ite {P : Prop} [Decidable P] {first second : Step} :
    (if P then first else second).Closes ↔ (P → first.Closes) ∧ (¬ P → second.Closes) := by
  split <;> simp [*]

theorem start_closes : (start stack b).Closes := by
  simp [start]

theorem stringStep_closes {role : Role} {content : List UInt8} {escape : Escape} :
    (stringStep origin stack role content escape b).Closes := by
  cases escape with
  | none =>
    cases hclose : close origin content <;> cases role <;>
      simp [stringStep, hclose]
  | opened => cases hshort : shortEscape? b <;> simp [stringStep, hshort]
  | hex digits pair =>
    cases hnumber : hexNumber? (b :: digits) <;> cases pair <;>
      simp [stringStep, hnumber]
  | _ => simp [stringStep]

theorem numberStep_closes {part : NumberPart} {l : Literal} {result : Step}
    (h : numberStep stack part l b = some result) : result.Closes := by
  simp only [numberStep] at h
  repeat' (split at h)
  all_goals cases h
  all_goals simp

theorem afterValue_closes : (afterValue stack v b).Closes := by
  rcases stack with _ | ⟨frame, stack⟩
  · simp [afterValue, doneStep]
  · cases frame <;> simp [afterValue, arrayTailStep, objectTailStep]

theorem step_closes (closed : s.Closed) : (step origin s b).Closes := by
  rcases s with ⟨stack, mode⟩
  cases mode with
  | string role content escape => exact stringStep_closes
  | number part l =>
    simp only [step]
    cases hnumber : numberStep stack part l b with
    | some result => exact numberStep_closes hnumber
    | none => cases l.number? <;> simp [afterValue_closes]
  | word letter letters meant =>
    cases letters <;> simp [step, wordStep]
  | _ => simp [step, arrayTailStep, objectTailStep, doneStep, start_closes]

-- ---------------------------------------------------------------------------
-- The value in front
-- ---------------------------------------------------------------------------

theorem numberStep_final {part : NumberPart} {l : Literal}
    (h : numberStep stack part l b = none) : part.final = true := by
  simp only [Json.numberStep] at h
  repeat' (split at h)
  all_goals simp_all

theorem front_cons (s : State) (b : UInt8) (rest : List UInt8) :
    (∃ v, s = ⟨[], .done v⟩ ∧ front s (b :: rest) = .ok (v, b :: rest)) ∨
      (∃ part l, s = ⟨[], .number part l⟩ ∧ numberStep [] part l b = none ∧
        front s (b :: rest) = match l.number? with
          | some n => .ok (.number n, b :: rest)
          | none => .error .malformed) ∨
      front s (b :: rest) = match step .bytes s b with
        | .ok next => front next rest
        | .error _ => .error .malformed := by
  rcases s with ⟨_ | ⟨frame, stack⟩, mode⟩
  · cases mode with
    | done v => exact .inl ⟨v, rfl, rfl⟩
    | number part l =>
      cases hnumber : numberStep [] part l b with
      | none =>
        refine .inr (.inl ⟨part, l, rfl, hnumber, ?_⟩)
        cases hn : l.number? <;> simp only [front, hnumber, hn]
      | some result =>
        refine .inr (.inr ?_)
        cases result <;> simp only [front, step, hnumber]
    | _ => exact .inr (.inr rfl)
  · exact .inr (.inr rfl)

theorem front_nil (h : reads .bytes s [] = some v) : front s [] = .ok (v, []) := by
  simp only [front, toOption_eq_some_iff.mp h]
  rfl

theorem front_sound (h : front s bytes = .ok (v, rest)) :
    ∃ text, bytes = text ++ rest ∧ reads .bytes s text = some v := by
  induction bytes generalizing s with
  | nil =>
    simp only [front] at h
    cases hfinish : finish {} s with
    | error e => simp [hfinish, Except.map, Except.mapError] at h
    | ok w =>
      simp only [hfinish, Except.map, Except.mapError] at h
      cases h
      exact ⟨[], rfl, by simp only [reads, hfinish, Except.toOption]⟩
  | cons b bytes ih =>
    rcases front_cons s b bytes with ⟨w, rfl, hfront⟩ | ⟨part, l, rfl, hnumber, hfront⟩ | hfront
    · rw [hfront] at h
      cases h
      exact ⟨[], rfl, rfl⟩
    · rw [hfront] at h
      cases hn : l.number? with
      | none => simp [hn] at h
      | some n =>
        simp only [hn] at h
        cases h
        exact ⟨[], rfl, by simp [reads, finish, numberStep_final hnumber, hn, Except.toOption]⟩
    · rw [hfront] at h
      cases hstep : step .bytes s b with
      | error refusal => simp [hstep] at h
      | ok next =>
        simp only [hstep] at h
        obtain ⟨text, rfl, htext⟩ := ih h
        exact ⟨b :: text, rfl, (reads_step hstep).trans htext⟩

theorem reads_done (h : reads origin ⟨[], .done v⟩ text = some w) :
    v = w ∧ ∃ gap : Gap, text = gap.bytes := by
  obtain ⟨gap, rest, rfl, hspace⟩ := exists_gap text
  have hskips : Skips origin ⟨[], .done v⟩ := skips_complete [] v
  rw [reads_gap hskips] at h
  cases rest with
  | nil =>
    rw [List.append_nil]
    exact ⟨Option.some.inj h, gap, rfl⟩
  | cons b rest =>
    obtain ⟨next, hstep, -⟩ := reads_cons h
    simp [step, doneStep, hspace b rfl, refuse] at hstep

theorem reads_number_done {part : NumberPart} {l : Literal}
    (hnumber : numberStep [] part l b = none)
    (h : reads .bytes ⟨[], .number part l⟩ (b :: text) = some v) :
    ∃ n, l.number? = some n ∧ reads .bytes ⟨[], .done (.number n)⟩ (b :: text) = some v := by
  obtain ⟨next, hstep, hnext⟩ := reads_cons h
  simp only [step, hnumber] at hstep
  cases hn : l.number? with
  | none => simp [hn] at hstep
  | some n =>
    simp only [hn] at hstep
    have hdone : step .bytes ⟨[], .done (.number n)⟩ b = .ok next := hstep
    exact ⟨n, rfl, (reads_step hdone).trans hnext⟩

theorem reads_nil (closed : s.Closed) (h : reads origin s [] = some v) :
    s = ⟨[], .done v⟩ ∨
      ∃ part l n, s = ⟨[], .number part l⟩ ∧ part.final = true ∧ l.number? = some n ∧
        v = .number n := by
  rcases s with ⟨stack, mode⟩
  have hfinish := toOption_eq_some_iff.mp h
  cases mode with
  | done w =>
    obtain rfl : stack = [] := closed w rfl
    cases hfinish
    exact .inl rfl
  | number part l =>
    simp only [finish] at hfinish
    split at hfinish
    · rename_i hfinal
      cases hn : l.number? with
      | none => simp [hn] at hfinish
      | some n =>
        cases stack with
        | nil => exact .inr ⟨part, l, n, rfl, hfinal, hn, by simpa [hn] using hfinish.symm⟩
        | cons frame stack => simp [hn] at hfinish
    · cases hfinish
  | _ => cases hfinish

theorem front_complete (closed : s.Closed) (h : reads .bytes s text = some v) (hrest : Stops rest) :
    ∃ gap : Gap, front s (text ++ rest) = .ok (v, gap.bytes ++ rest) := by
  induction text generalizing s with
  | nil =>
    refine ⟨[], ?_⟩
    cases rest with
    | nil => exact front_nil h
    | cons b rest =>
      rcases reads_nil closed h with rfl | ⟨part, l, n, rfl, hfinal, hn, rfl⟩
      · rfl
      · simp only [List.nil_append, front, hrest.numberStep hfinal, hn]
        rfl
  | cons b text ih =>
    rcases front_cons s b (text ++ rest) with
      ⟨w, rfl, hfront⟩ | ⟨part, l, rfl, hnumber, hfront⟩ | hfront
    · obtain ⟨rfl, gap, hgap⟩ := reads_done h
      exact ⟨gap, by rw [← hgap]; exact hfront⟩
    · obtain ⟨n, hn, hdone⟩ := reads_number_done hnumber h
      obtain ⟨rfl, gap, hgap⟩ := reads_done hdone
      simp only [hn] at hfront
      exact ⟨gap, by rw [← hgap]; exact hfront⟩
    · obtain ⟨next, hstep, hnext⟩ := reads_cons h
      obtain ⟨gap, hgap⟩ := ih (step_closes closed next hstep) hnext
      refine ⟨gap, hfront.trans ?_⟩
      simp only [hstep, hgap]

-- ---------------------------------------------------------------------------
-- The value that is passed over
-- ---------------------------------------------------------------------------

namespace Skim

variable {s : Skim}

theorem finish_ok (h : s.finish = .ok rest) : rest = [] := by
  simp only [finish] at h
  repeat' (split at h)
  all_goals cases h
  all_goals rfl

theorem finish_of_over (h : (s.settle b).isOver = true) : s.finish = .ok [] := by
  rcases s with ⟨stack, mode⟩
  cases mode with
  | number part =>
    simp only [settle] at h
    split at h
    · rename_i hfinal
      have hpart : part.final = true := (Bool.and_eq_true_iff.mp hfinal).1
      have hstack : stack.isEmpty = true := (Bool.and_eq_true_iff.mp h).1
      simp [finish, hpart, hstack]
    · simp [isOver] at h
  | _ =>
    have hover : isOver ⟨stack, _⟩ = true := h
    simp [finish, hover]

theorem continued?_stops (h : Stops (b :: rest)) (part : NumberPart) : continued? part b = none := by
  have hb : (((b = 0x20 ∨ b = 0x09) ∨ b = 0x0a) ∨ b = 0x0d) ∨ b = 0x2c ∨ b = 0x3a ∨ b = 0x5d ∨
      b = 0x7d := by
    simpa [isSpace] using h b rfl
  rcases hb with (((rfl | rfl) | rfl) | rfl) | rfl | rfl | rfl | rfl <;> simp [continued?, isDigit]

theorem over_of_finish (h : s.finish = .ok []) (hrest : Stops (b :: rest)) :
    (s.settle b).isOver = true := by
  rcases s with ⟨stack, mode⟩
  cases mode with
  | number part =>
    simp only [finish] at h
    split at h
    · cases h
    · rename_i hfinal
      split at h
      · rename_i hstack
        have hpart : part.final = true := by simpa using hfinal
        simpa [settle, continued?_stops hrest, hpart, isOver] using hstack
      · cases h
  | _ =>
    simp only [finish] at h
    split at h
    · assumption
    · cases h

theorem run_sound (h : s.run bytes = .ok rest) :
    ∃ text, bytes = text ++ rest ∧ s.run text = .ok [] := by
  induction bytes generalizing s with
  | nil =>
    obtain rfl := finish_ok h
    exact ⟨[], rfl, h⟩
  | cons b bytes ih =>
    simp only [run] at h
    split at h
    · rename_i hover
      cases h
      exact ⟨[], rfl, finish_of_over hover⟩
    · rename_i hopen
      cases hstep : (s.settle b).step? b with
      | none => simp [hstep] at h
      | some next =>
        simp only [hstep] at h
        obtain ⟨text, rfl, htext⟩ := ih h
        exact ⟨b :: text, rfl, by simp only [run, hopen, hstep, htext]; rfl⟩

theorem run_append (h : s.run text = .ok []) (hrest : Stops rest) :
    s.run (text ++ rest) = .ok rest := by
  induction text generalizing s with
  | nil =>
    cases rest with
    | nil => exact h
    | cons b rest => simp only [List.nil_append, run, over_of_finish h hrest, if_true]
  | cons b text ih =>
    simp only [run] at h
    simp only [List.cons_append, run]
    split at h
    · cases h
    · rename_i hopen
      rw [if_neg hopen]
      cases hstep : (s.settle b).step? b with
      | none => simp [hstep] at h
      | some next =>
        simp only [hstep] at h
        exact ih h

end Skim

theorem skim_gap (gap : Gap) : skim (gap.bytes ++ rest) = skim rest := by
  induction gap with
  | nil => rfl
  | cons blank gap ih =>
    have hstep : Skim.step? {} blank.byte = some {} := if_pos (isSpace_byte blank)
    refine Eq.trans ?_ ih
    change Skim.run {} (blank.byte :: (Gap.bytes gap ++ rest)) = Skim.run {} (Gap.bytes gap ++ rest)
    simp only [Skim.run, Skim.settle, hstep]
    rfl

-- ---------------------------------------------------------------------------
-- Scans
-- ---------------------------------------------------------------------------

namespace Scan

variable {α β : Type} {a : α} {c : β}

def Gives (scan : Scan α) (bytes : List UInt8) (a : α) (rest : List UInt8) : Prop :=
  StateT.run scan bytes = .ok (a, rest)

theorem gives_of_eq {scan : Scan α} {result : Except ScanError (α × List UInt8)}
    (h : StateT.run scan bytes = result) : Gives scan bytes a rest ↔ result = .ok (a, rest) :=
  h ▸ Iff.rfl

theorem gives_bind {scan : Scan α} {next : α → Scan β} :
    Gives (scan >>= next) bytes c rest ↔
      ∃ a mid, Gives scan bytes a mid ∧ Gives (next a) mid c rest := by
  simp only [Gives, StateT.run_bind]
  cases StateT.run scan bytes with
  | error e => simp [bind, Except.bind]
  | ok taken =>
    obtain ⟨a, mid⟩ := taken
    simp [bind, Except.bind]

@[simp] theorem gives_pure {a' : α} : Gives (pure a) bytes a' rest ↔ a = a' ∧ bytes = rest := by
  have hrun : StateT.run (pure a : Scan α) bytes = .ok (a, bytes) := rfl
  simp [gives_of_eq hrun]

@[simp] theorem gives_map {scan : Scan α} {f : α → β} :
    Gives (f <$> scan) bytes c rest ↔ ∃ a, Gives scan bytes a rest ∧ f a = c := by
  rw [← bind_pure_comp, gives_bind]
  simp

@[simp] theorem gives_throw {e : ScanError} : Gives (throw e) bytes a rest ↔ False := by
  have hrun : StateT.run (throw e : Scan α) bytes = .error e := rfl
  simp [gives_of_eq hrun]

@[simp] theorem gives_get : Gives get bytes text rest ↔ bytes = text ∧ bytes = rest := by
  have hrun : StateT.run (get : Scan _) bytes = .ok (bytes, bytes) := rfl
  simp [gives_of_eq hrun]

@[simp] theorem gives_drop {u : Unit} : Gives drop bytes u rest ↔ bytes.tail = rest := by
  have hrun : StateT.run drop bytes = .ok ((), bytes.tail) := rfl
  simp [gives_of_eq hrun]

theorem dropWhile_gap (gap : Gap) (h : ∀ b ∈ rest.head?, ¬ isSpace b = true) :
    (gap.bytes ++ rest).dropWhile isSpace = rest := by
  induction gap with
  | nil =>
    cases rest with
    | nil => rfl
    | cons b rest => exact List.dropWhile_cons_of_neg (h b rfl)
  | cons blank gap ih => exact (List.dropWhile_cons_of_pos (isSpace_byte blank)).trans ih

theorem run_peek (bytes : List UInt8) :
    StateT.run peek bytes = match (bytes.dropWhile isSpace).head? with
      | some b => .ok (b, bytes.dropWhile isSpace)
      | none => .error .ended := by
  change StateT.run (do
    match ← peek? with
    | some b => return b
    | none => throw .ended) bytes = _
  have hpeek : StateT.run peek? bytes =
      .ok ((bytes.dropWhile isSpace).head?, bytes.dropWhile isSpace) := rfl
  rw [StateT.run_bind, hpeek]
  cases (bytes.dropWhile isSpace).head? <;> rfl

theorem gives_peek : Gives peek bytes b rest ↔
    ∃ (gap : Gap) (later : List UInt8), bytes = gap.bytes ++ rest ∧ rest = b :: later ∧
      ¬ isSpace b = true := by
  rw [gives_of_eq (run_peek bytes)]
  constructor
  · intro h
    obtain ⟨gap, later, rfl, hlater⟩ := exists_gap bytes
    rw [dropWhile_gap gap hlater] at h
    cases later with
    | nil => cases h
    | cons c later =>
      cases h
      exact ⟨gap, later, rfl, rfl, hlater b rfl⟩
  · rintro ⟨gap, later, rfl, rfl, hb⟩
    rw [dropWhile_gap gap (by rintro c ⟨⟩; exact hb)]
    rfl

theorem gives_expect (wanted : UInt8) {u : Unit} (hspace : ¬ isSpace wanted = true) :
    Gives (expect wanted) bytes u rest ↔ ∃ gap : Gap, bytes = gap.bytes ++ wanted :: rest := by
  simp only [expect, gives_bind, gives_peek]
  constructor
  · rintro ⟨b, mid, ⟨gap, later, rfl, rfl, -⟩, h⟩
    split at h
    · rename_i hb
      subst hb
      obtain rfl : later = rest := by simpa using h
      exact ⟨gap, rfl⟩
    · simp at h
  · rintro ⟨gap, rfl⟩
    exact ⟨wanted, _, ⟨gap, rest, rfl, rfl, hspace⟩, by simp⟩

theorem gives_value : Gives value bytes v rest ↔ front {} bytes = .ok (v, rest) := by
  refine gives_of_eq ?_
  simp only [value, StateT.run_bind, StateT.run_get]
  simp only [pure, bind, Except.pure, Except.bind]
  cases front {} bytes <;> rfl

theorem gives_pass {u : Unit} : Gives pass bytes u rest ↔ skim bytes = .ok rest := by
  have hrun : StateT.run pass bytes = (skim bytes).map fun rest => ((), rest) := by
    simp only [pass, StateT.run_bind, StateT.run_get]
    simp only [pure, bind, Except.pure, Except.bind]
    cases skim bytes <;> rfl
  rw [gives_of_eq hrun]
  cases skim bytes <;> simp [Except.map]

end Scan

end Telemetry.Json
