import Telemetry.Proofs.Json.Strings

/-!
# Reading documents

A value is read in the state that waits for one, and leaves the state in
which the innermost open container has got it (`Spelling.reads`); the induction
is on the spelling, with a list of items or members at a time. Around a whole
document the stack is empty, and so `parse` gives what the document denotes,
or fails if it denotes nothing (`Document.parse`).
-/

namespace Telemetry.Json

variable {origin : Origin} {stack : List Frame} {rest : List UInt8}

-- ---------------------------------------------------------------------------
-- Ends of values
-- ---------------------------------------------------------------------------

theorem ends_nil : Ends [] := by
  simp [Ends]

theorem ends_gap (gap : Gap) (h : Ends rest) : Ends (gap.bytes ++ rest) := by
  cases gap with
  | nil => exact h
  | cons blank gap =>
    rintro b ⟨⟩
    exact .inl (isSpace_byte blank)

theorem ends_items (items : List Item) : Ends (itemBytes [0x2c] items ++ 0x5d :: rest) := by
  cases items with
  | nil =>
    rintro b ⟨⟩
    exact .inr (.inr (.inl rfl))
  | cons item items =>
    cases item
    rintro b ⟨⟩
    exact .inr (.inl rfl)

theorem ends_members (members : List Member) :
    Ends (memberBytes [0x2c] members ++ 0x7d :: rest) := by
  cases members with
  | nil =>
    rintro b ⟨⟩
    exact .inr (.inr (.inr rfl))
  | cons member members =>
    cases member
    rintro b ⟨⟩
    exact .inr (.inl rfl)

theorem ends_of_step {v : Value} {b : UInt8} {next : State}
    (h : step origin (complete stack v) b = .ok next) :
    isSpace b = true ∨ b = 0x2c ∨ b = 0x5d ∨ b = 0x7d := by
  by_cases hspace : isSpace b = true
  · exact .inl hspace
  rcases stack with _ | ⟨frame, stack⟩
  · simp [complete, step, doneStep, hspace, refuse] at h
  · cases frame with
    | array items =>
      by_cases hcomma : b = 0x2c
      · exact .inr (.inl hcomma)
      by_cases hclose : b = 0x5d
      · exact .inr (.inr (.inl hclose))
      simp [complete, step, arrayTailStep, hspace, hcomma, hclose, refuse] at h
    | object members key =>
      by_cases hcomma : b = 0x2c
      · exact .inr (.inl hcomma)
      by_cases hclose : b = 0x7d
      · exact .inr (.inr (.inr hclose))
      simp [complete, step, objectTailStep, hspace, hcomma, hclose, refuse] at h

theorem ends_of_reads {x v : Value} (h : Json.reads origin (complete stack x) rest = some v) :
    Ends rest := by
  cases rest with
  | nil => exact ends_nil
  | cons b rest =>
    obtain ⟨next, hnext, -⟩ := reads_cons h
    rintro b ⟨⟩
    exact ends_of_step hnext

-- ---------------------------------------------------------------------------
-- Starts of values
-- ---------------------------------------------------------------------------

def Starts (b : UInt8) : Prop :=
  isSpace b = false ∧ (b == 0x5d) = false

theorem starts_digit (d : Digit) : Starts d.byte := by
  unfold Starts
  revert d
  decide

theorem Numeral.starts (n : Numeral) : ∃ b bytes, n.bytes = b :: bytes ∧ Starts b := by
  obtain ⟨negative, whole, fraction, exponent⟩ := n
  cases negative with
  | true => exact ⟨_, _, rfl, ⟨rfl, rfl⟩⟩
  | false =>
    cases whole with
    | zero => exact ⟨_, _, rfl, starts_digit 0⟩
    | digits first nonzero ds => exact ⟨_, _, rfl, starts_digit first⟩

theorem Spelling.starts (s : Spelling) : ∃ b bytes, s.bytes = b :: bytes ∧ Starts b := by
  cases s with
  | number n => simpa [Spelling.bytes] using n.starts
  | bool b => cases b <;> simp [Spelling.bytes, Starts, isSpace]
  | _ => simp [Spelling.bytes, stringBytes, Starts, isSpace]

theorem reads_firstItem (before : Gap) (s : Spelling) :
    reads origin ⟨stack, .arrayStart⟩ (before.bytes ++ (s.bytes ++ rest)) =
      reads origin ⟨.array [] :: stack, .value⟩ (s.bytes ++ rest) := by
  obtain ⟨b, bytes, hb, hspace, hclose⟩ := s.starts
  refine (reads_gap Waits.arrayStart.skips before).trans ?_
  rw [hb]
  simp only [List.cons_append, Json.reads, step, hspace, hclose, Bool.false_eq_true, if_false]

theorem reads_nextItem (items : List Value) (before : Gap) (s : Spelling) :
    reads origin ⟨stack, .arrayNext items⟩ (before.bytes ++ (s.bytes ++ rest)) =
      reads origin ⟨.array items :: stack, .value⟩ (s.bytes ++ rest) := by
  obtain ⟨b, bytes, hb, hspace, hclose⟩ := s.starts
  refine (reads_gap Waits.arrayNext.skips before).trans ?_
  rw [hb]
  simp only [List.cons_append, Json.reads, step, hspace, hclose, Bool.false_eq_true, if_false]

-- ---------------------------------------------------------------------------
-- Members up to their values
-- ---------------------------------------------------------------------------

theorem reads_key (members : List (String × Value)) (key : List Piece)
    (beforeColon afterColon : Gap) :
    reads origin ⟨stack, .string (.key members) [] .none⟩
        (pieceBytes key ++ 0x22 :: (beforeColon.bytes ++ 0x3a :: (afterColon.bytes ++ rest))) =
      (string? key).bind fun k => reads origin ⟨.object members k :: stack, .value⟩ rest := by
  refine (reads_string key).trans (congrArg _ (funext fun k => ?_))
  refine (reads_gap Waits.colon.skips beforeColon).trans ?_
  have hcolon : step origin ⟨stack, .colon members k⟩ 0x3a =
      .ok ⟨.object members k :: stack, .value⟩ := rfl
  exact (reads_step hcolon).trans (reads_gap Waits.value.skips afterColon)

-- ---------------------------------------------------------------------------
-- Values
-- ---------------------------------------------------------------------------

mutual
theorem Spelling.reads (s : Spelling) (stack : List Frame) {rest : List UInt8} (h : Ends rest) :
    reads origin ⟨stack, .value⟩ (s.bytes ++ rest) =
      (s.value? (maxOpen - stack.length)).bind fun x =>
        Json.reads origin (complete stack x) rest := by
  cases s with
  | null => rfl
  | bool b => cases b <;> rfl
  | number n =>
    refine (n.reads h).trans ?_
    simp only [ended, Spelling.value?, Option.bind_map]
    rfl
  | string pieces =>
    have hquote : step origin ⟨stack, .value⟩ 0x22 = .ok ⟨stack, .string .value [] .none⟩ := rfl
    simp only [Spelling.bytes, stringBytes, List.cons_append, List.append_assoc, List.nil_append]
    refine (reads_step hquote).trans ((reads_string pieces).trans ?_)
    simp only [Spelling.value?, Option.bind_map]
    rfl
  | array gap items =>
    simp only [Spelling.bytes, List.cons_append, List.append_assoc, List.nil_append]
    by_cases hdeep : stack.length < maxOpen
    · have hopen : step origin ⟨stack, .value⟩ 0x5b = .ok ⟨stack, .arrayStart⟩ := by
        have : start stack 0x5b = .ok ⟨stack, .arrayStart⟩ := if_pos hdeep
        exact this
      have hroom : maxOpen - stack.length = maxOpen - (stack.length + 1) + 1 := by omega
      refine (reads_step hopen).trans ((reads_gap Waits.arrayStart.skips gap).trans ?_)
      refine (items_read items stack rest).trans ?_
      simp only [hroom, Spelling.value?, Option.bind_map]
      rfl
    · have hopen : step origin ⟨stack, .value⟩ 0x5b = refuse .tooDeep := by
        have : start stack 0x5b = refuse .tooDeep := if_neg hdeep
        exact this
      have hroom : maxOpen - stack.length = 0 := by omega
      simp only [hroom, Spelling.value?]
      exact reads_refused hopen
  | object gap members =>
    simp only [Spelling.bytes, List.cons_append, List.append_assoc, List.nil_append]
    by_cases hdeep : stack.length < maxOpen
    · have hopen : step origin ⟨stack, .value⟩ 0x7b = .ok ⟨stack, .objectStart⟩ := by
        have : start stack 0x7b = .ok ⟨stack, .objectStart⟩ := if_pos hdeep
        exact this
      have hroom : maxOpen - stack.length = maxOpen - (stack.length + 1) + 1 := by omega
      refine (reads_step hopen).trans ((reads_gap Waits.objectStart.skips gap).trans ?_)
      refine (members_read members stack rest).trans ?_
      simp only [hroom, Spelling.value?, Option.bind_map]
      rfl
    · have hopen : step origin ⟨stack, .value⟩ 0x7b = refuse .tooDeep := by
        have : start stack 0x7b = refuse .tooDeep := if_neg hdeep
        exact this
      have hroom : maxOpen - stack.length = 0 := by omega
      simp only [hroom, Spelling.value?]
      exact reads_refused hopen
theorem items_read (items : List Item) (stack : List Frame) (rest : List UInt8) :
    reads origin ⟨stack, .arrayStart⟩ (itemBytes [] items ++ 0x5d :: rest) =
      (items? (maxOpen - (stack.length + 1)) items).bind fun xs =>
        reads origin (complete stack (.array xs)) rest := by
  cases items with
  | nil => rfl
  | cons item later =>
    cases item with
    | mk before v after =>
      simp only [itemBytes, List.nil_append, List.append_assoc]
      refine (reads_firstItem before v).trans ?_
      refine (v.reads _ (ends_gap after (ends_items later))).trans ?_
      simp only [items?, Option.bind_assoc]
      refine congrArg _ (funext fun x => ?_)
      refine (reads_gap (skips_complete (.array [] :: stack) x) after).trans ?_
      refine (laterItems_read later stack rest [x]).trans ?_
      simp only [Option.bind_map]
      rfl
theorem laterItems_read (later : List Item) (stack : List Frame) (rest : List UInt8)
    (items : List Value) :
    reads origin ⟨stack, .arrayTail items⟩ (itemBytes [0x2c] later ++ 0x5d :: rest) =
      (items? (maxOpen - (stack.length + 1)) later).bind fun xs =>
        reads origin (complete stack (.array (items.reverse ++ xs))) rest := by
  cases later with
  | nil =>
    have hclose : step origin ⟨stack, .arrayTail items⟩ 0x5d =
        .ok (complete stack (.array items.reverse)) := rfl
    refine (reads_step hclose).trans ?_
    simp [items?]
  | cons item later =>
    cases item with
    | mk before v after =>
      have hcomma : step origin ⟨stack, .arrayTail items⟩ 0x2c =
          .ok ⟨stack, .arrayNext items⟩ := rfl
      simp only [itemBytes, List.cons_append, List.nil_append, List.append_assoc]
      refine (reads_step hcomma).trans ((reads_nextItem items before v).trans ?_)
      refine (v.reads _ (ends_gap after (ends_items later))).trans ?_
      simp only [items?, Option.bind_assoc]
      refine congrArg _ (funext fun x => ?_)
      refine (reads_gap (skips_complete (.array items :: stack) x) after).trans ?_
      refine (laterItems_read later stack rest (x :: items)).trans ?_
      simp [Option.bind_map]
theorem members_read (members : List Member) (stack : List Frame) (rest : List UInt8) :
    reads origin ⟨stack, .objectStart⟩ (memberBytes [] members ++ 0x7d :: rest) =
      (members? (maxOpen - (stack.length + 1)) members).bind fun pairs =>
        reads origin (complete stack (.object (Entries.ofList pairs))) rest := by
  cases members with
  | nil => rfl
  | cons member later =>
    cases member with
    | mk before key beforeColon afterColon v after =>
      have hquote : step origin ⟨stack, .objectStart⟩ 0x22 =
          .ok ⟨stack, .string (.key []) [] .none⟩ := rfl
      simp only [memberBytes, stringBytes, List.cons_append, List.nil_append, List.append_assoc]
      refine (reads_gap Waits.objectStart.skips before).trans ((reads_step hquote).trans ?_)
      refine (reads_key [] key beforeColon afterColon).trans ?_
      simp only [members?, Option.bind_assoc]
      refine congrArg _ (funext fun k => ?_)
      refine (v.reads _ (ends_gap after (ends_members later))).trans ?_
      refine congrArg _ (funext fun x => ?_)
      refine (reads_gap (skips_complete (.object [] k :: stack) x) after).trans ?_
      refine (laterMembers_read later stack rest [(k, x)]).trans ?_
      simp [Option.bind_map, Function.comp_def, Entries.ofList, Entries.put]
theorem laterMembers_read (later : List Member) (stack : List Frame) (rest : List UInt8)
    (members : List (String × Value)) :
    reads origin ⟨stack, .objectTail members⟩ (memberBytes [0x2c] later ++ 0x7d :: rest) =
      (members? (maxOpen - (stack.length + 1)) later).bind fun pairs =>
        reads origin (complete stack (.object (pairs.foldl
          (fun entries pair => Entries.put entries pair.1 pair.2) members))) rest := by
  cases later with
  | nil =>
    have hclose : step origin ⟨stack, .objectTail members⟩ 0x7d =
        .ok (complete stack (.object members)) := rfl
    exact reads_step hclose
  | cons member later =>
    cases member with
    | mk before key beforeColon afterColon v after =>
      have hcomma : step origin ⟨stack, .objectTail members⟩ 0x2c =
          .ok ⟨stack, .objectNext members⟩ := rfl
      have hquote : step origin ⟨stack, .objectNext members⟩ 0x22 =
          .ok ⟨stack, .string (.key members) [] .none⟩ := rfl
      simp only [memberBytes, stringBytes, List.cons_append, List.nil_append, List.append_assoc]
      refine (reads_step hcomma).trans ?_
      refine (reads_gap Waits.objectNext.skips before).trans ((reads_step hquote).trans ?_)
      refine (reads_key members key beforeColon afterColon).trans ?_
      simp only [members?, Option.bind_assoc]
      refine congrArg _ (funext fun k => ?_)
      refine (v.reads _ (ends_gap after (ends_members later))).trans ?_
      refine congrArg _ (funext fun x => ?_)
      refine (reads_gap (skips_complete (.object members k :: stack) x) after).trans ?_
      refine (laterMembers_read later stack rest (Entries.put members k x)).trans ?_
      simp [Option.bind_map, Function.comp_def]
end

-- ---------------------------------------------------------------------------
-- Documents
-- ---------------------------------------------------------------------------

theorem Document.reads (d : Document) : Json.reads origin {} d.bytes = d.value? := by
  have hends : Ends d.after.bytes := by
    simpa using ends_gap d.after ends_nil
  have hafter (x : Value) : Json.reads origin (complete [] x) d.after.bytes = some x := by
    rw [← List.append_nil d.after.bytes]
    exact reads_gap (skips_complete [] x) d.after
  refine (reads_gap Waits.value.skips d.before).trans ?_
  refine (d.value.reads [] hends).trans ?_
  simp only [hafter]
  exact Option.bind_fun_some _

/-- A document gives the value that it denotes, and an error if it denotes
none. -/
theorem Document.parse (d : Document) : (Json.parse d.bytes).toOption = d.value? :=
  (run_toOption .bytes {} {} d.bytes).trans d.reads

theorem Document.parseText (d : Document) {s : String} (h : Utf8.ofString s = d.bytes) :
    (Json.parseText s).toOption = d.value? := by
  rw [Json.parseText, h]
  exact (run_toOption .text {} {} d.bytes).trans d.reads

end Telemetry.Json
