import Telemetry.Proofs.Json.Documents
import Telemetry.Proofs.Payload.Denotation

/-!
# Documents that break off

Wherever a document breaks off, the reader has refused none of its bytes. What
it is left with there can be wrong in one way only, as a number that overflows:
the digits before a large negative exponent may. In a document of integers that
`Int64` holds no number does (`Document.passes`). `Passes` follows the reader
over the bytes token by token; what comes after a token is a hypothesis, since a
number is complete only at the byte after it.
-/

namespace Telemetry.Json

/-- A text that ends in this state ends in no wrong number. -/
def State.Sound (s : State) : Prop :=
  match s.mode with
  | .number part l => part.final = true → l.number? ≠ none
  | _ => True

/-- The reader goes over these bytes through sound states. -/
inductive Passes (origin : Origin) : State → List UInt8 → Prop
  | nil {s : State} (sound : s.Sound) : Passes origin s []
  | cons {s next : State} {b : UInt8} {rest : List UInt8} (sound : s.Sound)
    (step : step origin s b = .ok next) (later : Passes origin next rest) :
    Passes origin s (b :: rest)

variable {origin : Origin} {stack : List Frame} {role : Role} {s next : State} {b : UInt8}
  {rest : List UInt8}

theorem Passes.sound (h : Passes origin s rest) : s.Sound := by
  cases h with
  | nil sound => exact sound
  | cons sound _ _ => exact sound

/-- After some of the bytes the reader is in a state from which it goes over the
others, and a text that ends there is judged by that state. -/
theorem Passes.split {first second : List UInt8} (h : Passes origin s (first ++ second)) :
    ∃ mid, Passes origin mid second ∧
      ∀ position, run origin position s first =
        finish (first.foldl Position.advance position) mid := by
  induction first generalizing s with
  | nil => exact ⟨s, h, fun _ => rfl⟩
  | cons b first ih =>
    cases h with
    | @cons _ next _ _ sound hstep later =>
      obtain ⟨mid, hmid, hrun⟩ := ih later
      refine ⟨mid, hmid, ?_⟩
      intro position
      simp only [run, hstep, hrun, List.foldl_cons]

theorem Waits.sound {mode : Mode} (h : Waits mode) : State.Sound ⟨stack, mode⟩ := by
  cases h <;> trivial

theorem sound_complete (stack : List Frame) (v : Value) : (complete stack v).Sound := by
  rcases stack with _ | ⟨frame, stack⟩
  · trivial
  · cases frame <;> trivial

theorem passes_gap (hskips : Skips origin s) (gap : Gap) (h : Passes origin s rest) :
    Passes origin s (gap.bytes ++ rest) := by
  induction gap with
  | nil => exact h
  | cons blank gap ih => exact .cons h.sound (hskips _ (isSpace_byte blank)) ih

-- ---------------------------------------------------------------------------
-- Numbers
-- ---------------------------------------------------------------------------

/-- An integer literal that `Int64` holds; a minus zero is one. -/
structure Numeral.FitsInt64 (n : Numeral) : Prop where
  fraction : n.fraction = none
  exponent : n.exponent = none
  low : n.negative = true → spelled 0 (digitValues n.whole.list) ≤ 2 ^ 63
  high : n.negative = false → spelled 0 (digitValues n.whole.list) < 2 ^ 63

theorem spelled_append (n : Nat) (first second : List Nat) :
    spelled n (first ++ second) = spelled (spelled n first) second :=
  List.foldl_append

theorem Literal.number?_small {l : Literal} (hf : l.fraction = none) (he : l.exponent = none)
    (hsmall : spelled 0 l.whole.reverse ≤ 2 ^ 63) : l.number? ≠ none := by
  have hinteger := Literal.integer?_fits hf he (by omega)
  have habsorb : absorb 0 l.whole.reverse = (spelled 0 l.whole.reverse, 0) :=
    absorb_fits (by omega)
  generalize spelled 0 l.whole.reverse = size at hsmall hinteger habsorb
  by_cases hzero : l.negative = true ∧ size = 0
  · obtain ⟨hn, rfl⟩ := hzero
    have hscale : scale (UInt64.ofNat 0).toFloat 0 ≠ none := by
      rw [scale, if_pos (by decide), if_pos (by decide), if_neg (by decide)]
      simp
    have hmagnitude : l.magnitude? = scale (UInt64.ofNat 0).toFloat 0 := by
      simp [Literal.magnitude?, Literal.parts, habsorb, hf, he, absorb]
    rw [Literal.number?_of_zero (by simpa [hn] using hinteger) hn, Literal.float?, hmagnitude]
    simpa using hscale
  · have hvalue : Number.ofInt? (if l.negative then -(size : Int) else size) ≠ none := by
      rw [ne_eq, ofInt?_eq_none_iff]
      split <;> omega
    have hnonzero : ¬ (l.negative = true ∧ (if l.negative then -(size : Int) else size) = 0) := by
      rintro ⟨hn, hi⟩
      rw [if_pos hn] at hi
      exact hzero ⟨hn, by omega⟩
    rw [Literal.number?_of_some hinteger hnonzero, ne_eq, Option.or_eq_none_iff]
    exact fun h => hvalue h.1

theorem passes_end {part : NumberPart} (hp : part.final = true) {l : Literal} {n : Number}
    (hn : l.number? = some n) (hends : Ends rest)
    (h : Passes origin (complete stack (.number n)) rest) :
    Passes origin ⟨stack, .number part l⟩ rest := by
  have hsound : State.Sound ⟨stack, .number part l⟩ := fun _ => by simp [hn]
  cases h with
  | nil _ => exact .nil hsound
  | @cons _ next b later _ hstep hlater =>
    refine .cons hsound ?_ hlater
    have hend := numberStep_end stack hp l (hends b rfl)
    rw [← hstep, ← afterValue_eq]
    simp only [step, hend, hn]

theorem step_digit {part : NumberPart} (hpart : part = .sign ∨ part = .whole) {l : Literal}
    (he : l.exponent = none) (d : Digit) :
    step origin ⟨stack, .number part l⟩ d.byte =
      .ok ⟨stack, .number (part.afterDigit d.val) { l with whole := d.val :: l.whole }⟩ := by
  have hgrown : l.digit part d.val = { l with whole := d.val :: l.whole } := by
    rcases hpart with rfl | rfl <;> rfl
  have hzero : part ≠ .zero := by
    rcases hpart with rfl | rfl <;> decide
  simp only [step, numberStep_digit hzero, hgrown]
  rw [if_neg (by simp [he])]

theorem passes_wholeDigits {l : Literal} (hf : l.fraction = none) (he : l.exponent = none)
    (ds : List Digit) (hsmall : spelled 0 (l.whole.reverse ++ digitValues ds) ≤ 2 ^ 63)
    (h : Passes origin
      ⟨stack, .number .whole { l with whole := (digitValues ds).reverse ++ l.whole }⟩ rest) :
    Passes origin ⟨stack, .number .whole l⟩ (digitBytes ds ++ rest) := by
  induction ds generalizing l with
  | nil => exact h
  | cons d ds ih =>
    have hsound : State.Sound ⟨stack, .number .whole l⟩ := by
      intro _
      refine Literal.number?_small hf he (Nat.le_trans ?_ hsmall)
      rw [spelled_append]
      exact le_spelled _ _
    refine .cons hsound (step_digit (.inr rfl) he d) ?_
    refine ih hf he ?_ ?_
    · simpa [digitValues] using hsmall
    · simpa [digitValues] using h

theorem Whole.passes (w : Whole) (negative : Bool)
    (hsmall : spelled 0 (digitValues w.list) ≤ 2 ^ 63)
    (h : Passes origin
      ⟨stack, .number w.part { negative, whole := (digitValues w.list).reverse }⟩ rest) :
    Passes origin ⟨stack, .value⟩
      ((if negative then [0x2d] else []) ++ (digitBytes w.list ++ rest)) := by
  cases w with
  | zero =>
    cases negative with
    | false => exact .cons trivial rfl h
    | true => exact .cons trivial rfl (.cons (fun hp => nomatch hp) rfl h)
  | digits first nonzero ds =>
    have hfirst : first.val ≠ 0 := fun h => nonzero (Fin.ext h)
    have hdigits : Passes origin ⟨stack, .number .whole { negative, whole := [first.val] }⟩
        (digitBytes ds ++ rest) := by
      refine passes_wholeDigits rfl rfl ds ?_ ?_
      · simpa [Whole.list, digitValues] using hsmall
      · simpa [Whole.list, Whole.part, digitValues] using h
    cases negative with
    | false => exact .cons trivial (start_digit first nonzero) hdigits
    | true =>
      refine .cons trivial rfl (.cons (fun hp => nomatch hp) ?_ hdigits)
      refine (step_digit (.inl rfl) rfl first).trans ?_
      rw [NumberPart.afterDigit, if_neg hfirst]

theorem Numeral.passes {n : Numeral} (hfits : n.FitsInt64) {x : Number}
    (hx : n.literal.number? = some x) (hends : Ends rest)
    (h : Passes origin (complete stack (.number x)) rest) :
    Passes origin ⟨stack, .value⟩ (n.bytes ++ rest) := by
  obtain ⟨negative, whole, fraction, exponent⟩ := n
  obtain ⟨rfl, rfl, hlow, hhigh⟩ := hfits
  have hfinal : whole.part.final = true := by
    cases whole <;> rfl
  have hsmall : spelled 0 (digitValues whole.list) ≤ 2 ^ 63 := by
    cases negative with
    | true => exact hlow rfl
    | false => exact Nat.le_of_lt (hhigh rfl)
  simp only [Numeral.bytes, fractionBytes, exponentBytes, List.append_nil, List.append_assoc]
  exact whole.passes negative hsmall (passes_end hfinal hx hends h)

-- ---------------------------------------------------------------------------
-- Strings
-- ---------------------------------------------------------------------------

theorem passes_content {bytes : List UInt8} (hbytes : ∀ b ∈ bytes, isContent b)
    {content : List UInt8}
    (h : Passes origin ⟨stack, .string role (bytes.reverse ++ content) .none⟩ rest) :
    Passes origin ⟨stack, .string role content .none⟩ (bytes ++ rest) := by
  induction bytes generalizing content with
  | nil => exact h
  | cons b bytes ih =>
    refine .cons trivial (step_content (hbytes b (List.mem_cons_self ..)) content) ?_
    refine ih (fun b hb => hbytes b (List.mem_cons_of_mem _ hb)) ?_
    simpa using h

theorem passes_short (e : ShortEscape) {content : List UInt8}
    (h : Passes origin ⟨stack, .string role (extend content e.char) .none⟩ rest) :
    Passes origin ⟨stack, .string role content .none⟩ (0x5c :: e.letter :: rest) := by
  refine .cons trivial rfl (.cons trivial ?_ h)
  cases e <;> rfl

theorem passes_hex {u : CodeUnit} {pair : Option Nat} {content : List UInt8}
    (hlast : step origin ⟨stack, .string role content
      (.hex [u.third.byte, u.second.byte, u.first.byte] pair)⟩ u.fourth.byte = .ok next)
    (h : Passes origin next rest) :
    Passes origin ⟨stack, .string role content (.hex [] pair)⟩ (u.bytes ++ rest) :=
  .cons trivial rfl (.cons trivial rfl (.cons trivial rfl (.cons trivial hlast h)))

theorem passes_unit {u : CodeUnit} {content : List UInt8}
    (hlast : step origin ⟨stack, .string role content
      (.hex [u.third.byte, u.second.byte, u.first.byte] none)⟩ u.fourth.byte = .ok next)
    (h : Passes origin next rest) :
    Passes origin ⟨stack, .string role content .none⟩ (0x5c :: 0x75 :: (u.bytes ++ rest)) :=
  .cons trivial rfl (.cons trivial rfl (passes_hex hlast h))

theorem passes_trail {lead : Nat} {u : CodeUnit} (htrail : isTrailing u.value = true)
    {content : List UInt8}
    (h : Passes origin ⟨stack, .string role (extend content (pairChar lead u.value)) .none⟩ rest) :
    Passes origin ⟨stack, .string role content (.paired lead)⟩
      (0x5c :: 0x75 :: (u.bytes ++ rest)) := by
  have hlast := (step_trail origin stack role lead u content).trans (if_pos htrail)
  exact .cons trivial rfl (.cons trivial rfl (passes_hex hlast h))

theorem passes_pieces {pieces : List Piece} (read : List Char) {cs : List Char}
    (hcs : characters? pieces = some cs)
    (h : Passes origin ⟨stack, .string role (Utf8.encode (read ++ cs)).reverse .none⟩ rest) :
    Passes origin ⟨stack, .string role (Utf8.encode read).reverse .none⟩
      (pieceBytes pieces ++ rest) := by
  have hpaired : Paired pieces := .of_isSome (by simp [hcs])
  induction hpaired generalizing read cs with
  | nil =>
    cases hcs
    simpa [pieceBytes] using h
  | @plain c hc later _ ih =>
    obtain ⟨cs, hlater, rfl⟩ := Option.map_eq_some_iff.mp hcs
    have hnext := ih (read ++ [c]) hlater (by simpa using h)
    rw [← extend_encode] at hnext
    have hcontent := passes_content (fun b hb => isContent_of_mem hc hb) hnext
    simpa [pieceBytes, Piece.bytes] using hcontent
  | @short e later _ ih =>
    obtain ⟨cs, hlater, rfl⟩ := Option.map_eq_some_iff.mp hcs
    have hnext := ih (read ++ [e.char]) hlater (by simpa using h)
    rw [← extend_encode] at hnext
    simpa [pieceBytes, Piece.bytes] using passes_short e hnext
  | @unit u later whole _ ih =>
    rw [characters?_unit whole.2 whole.1] at hcs
    obtain ⟨cs, hlater, rfl⟩ := Option.map_eq_some_iff.mp hcs
    have hnext := ih (read ++ [Char.ofNat u.value]) hlater (by simpa using h)
    rw [← extend_encode] at hnext
    have hunit := passes_unit ((step_unit origin stack role u _).trans
      ((if_neg whole.2).trans (if_neg whole.1))) hnext
    simpa [pieceBytes, Piece.bytes] using hunit
  | @pair u w later leading trailing _ ih =>
    have hnot := not_leading_and_trailing leading
    rw [characters?_pair hnot leading, if_pos trailing] at hcs
    obtain ⟨cs, hlater, rfl⟩ := Option.map_eq_some_iff.mp hcs
    have hnext := ih (read ++ [pairChar u.value w.value]) hlater (by simpa using h)
    rw [← extend_encode] at hnext
    have hunit := passes_unit ((step_unit origin stack role u _).trans
      ((if_neg hnot).trans (if_pos leading))) (passes_trail trailing hnext)
    simpa [pieceBytes, Piece.bytes] using hunit

theorem passes_string {pieces : List Piece} {s : String} (hs : string? pieces = some s)
    (h : Passes origin (afterString stack role s) rest) :
    Passes origin ⟨stack, .string role [] .none⟩ (pieceBytes pieces ++ 0x22 :: rest) := by
  obtain ⟨cs, hcs, rfl⟩ := Option.map_eq_some_iff.mp hs
  refine passes_pieces [] hcs (.cons trivial ?_ h)
  simp only [step, stringStep, List.nil_append, close_encode]
  cases role <;> rfl

-- ---------------------------------------------------------------------------
-- Values
-- ---------------------------------------------------------------------------

def AllFit (tokens : List Token) : Prop :=
  ∀ n, .number n ∈ tokens → n.FitsInt64

theorem AllFit.append {first second : List Token} (h : AllFit (first ++ second)) :
    AllFit first ∧ AllFit second :=
  ⟨fun n hn => h n (List.mem_append_left _ hn), fun n hn => h n (List.mem_append_right _ hn)⟩

theorem passes_word (letter : UInt8) (letters : List UInt8) {v : Value}
    (h : Passes origin (complete stack v) rest) :
    Passes origin ⟨stack, .word letter letters v⟩ (letter :: (letters ++ rest)) := by
  induction letters generalizing letter with
  | nil => exact .cons trivial (by simp [step, wordStep]) h
  | cons later letters ih => exact .cons trivial (by simp [step, wordStep]) (ih later)

theorem passes_start (v : Spelling) {mode : Mode} (hmode : Waits mode) {inner : List Frame}
    (hstep : ∀ b, Starts b → step origin ⟨stack, mode⟩ b = start inner b)
    (h : Passes origin ⟨inner, .value⟩ (v.bytes ++ rest)) :
    Passes origin ⟨stack, mode⟩ (v.bytes ++ rest) := by
  obtain ⟨b, bytes, hb, hstarts⟩ := v.starts
  rw [hb, List.cons_append] at h ⊢
  cases h with
  | cons _ hvalue later =>
    refine .cons hmode.sound ?_ later
    rw [hstep b hstarts, ← hvalue]
    simp [step, hstarts.1]

theorem passes_firstItem (before : Gap) (v : Spelling)
    (h : Passes origin ⟨.array [] :: stack, .value⟩ (v.bytes ++ rest)) :
    Passes origin ⟨stack, .arrayStart⟩ (before.bytes ++ (v.bytes ++ rest)) := by
  refine passes_gap Waits.arrayStart.skips before (passes_start v .arrayStart ?_ h)
  intro b hb
  simp [step, hb.1, hb.2]

theorem passes_nextItem (items : List Value) (before : Gap) (v : Spelling)
    (h : Passes origin ⟨.array items :: stack, .value⟩ (v.bytes ++ rest)) :
    Passes origin ⟨stack, .arrayNext items⟩ (before.bytes ++ (v.bytes ++ rest)) := by
  refine passes_gap Waits.arrayNext.skips before (passes_start v .arrayNext ?_ h)
  intro b hb
  simp [step, hb.1, hb.2]

theorem passes_key {members : List (String × Value)} {key : List Piece} {k : String}
    (hk : string? key = some k) (beforeColon afterColon : Gap)
    (h : Passes origin ⟨.object members k :: stack, .value⟩ rest) :
    Passes origin ⟨stack, .string (.key members) [] .none⟩
      (pieceBytes key ++ 0x22 :: (beforeColon.bytes ++ 0x3a :: (afterColon.bytes ++ rest))) := by
  refine passes_string hk (passes_gap Waits.colon.skips beforeColon ?_)
  exact .cons trivial rfl (passes_gap Waits.value.skips afterColon h)

mutual
theorem Spelling.passes (s : Spelling) {stack : List Frame} {rest : List UInt8}
    (hfits : AllFit s.tokens) {x : Value} (hx : s.value? (maxOpen - stack.length) = some x)
    (hends : Ends rest) (h : Passes origin (complete stack x) rest) :
    Passes origin ⟨stack, .value⟩ (s.bytes ++ rest) := by
  cases s with
  | null =>
    cases hx
    exact .cons trivial rfl (passes_word 0x75 [0x6c, 0x6c] h)
  | bool b =>
    cases hx
    cases b with
    | true => exact .cons trivial rfl (passes_word 0x72 [0x75, 0x65] h)
    | false => exact .cons trivial rfl (passes_word 0x61 [0x6c, 0x73, 0x65] h)
  | number n =>
    obtain ⟨number, hnumber, rfl⟩ := Option.map_eq_some_iff.mp hx
    exact n.passes (hfits n (List.mem_singleton_self _)) hnumber hends h
  | string pieces =>
    obtain ⟨text, htext, rfl⟩ := Option.map_eq_some_iff.mp hx
    simp only [Spelling.bytes, stringBytes, List.cons_append, List.append_assoc, List.nil_append]
    exact .cons trivial rfl (passes_string htext h)
  | array gap items =>
    by_cases hdeep : stack.length < maxOpen
    · have hroom : maxOpen - stack.length = maxOpen - (stack.length + 1) + 1 := by omega
      rw [hroom] at hx
      obtain ⟨xs, hxs, rfl⟩ := Option.map_eq_some_iff.mp hx
      have hopen : step origin ⟨stack, .value⟩ 0x5b = .ok ⟨stack, .arrayStart⟩ :=
        (if_pos hdeep : start stack 0x5b = .ok ⟨stack, .arrayStart⟩)
      simp only [Spelling.bytes, List.cons_append, List.append_assoc, List.nil_append]
      exact .cons trivial hopen
        (passes_gap Waits.arrayStart.skips gap (items_pass items hfits hxs h))
    · rw [Nat.sub_eq_zero_of_le (Nat.not_lt.mp hdeep)] at hx
      cases hx
  | object gap members =>
    by_cases hdeep : stack.length < maxOpen
    · have hroom : maxOpen - stack.length = maxOpen - (stack.length + 1) + 1 := by omega
      rw [hroom] at hx
      obtain ⟨pairs, hpairs, rfl⟩ := Option.map_eq_some_iff.mp hx
      have hopen : step origin ⟨stack, .value⟩ 0x7b = .ok ⟨stack, .objectStart⟩ :=
        (if_pos hdeep : start stack 0x7b = .ok ⟨stack, .objectStart⟩)
      simp only [Spelling.bytes, List.cons_append, List.append_assoc, List.nil_append]
      exact .cons trivial hopen
        (passes_gap Waits.objectStart.skips gap (members_pass members hfits hpairs h))
    · rw [Nat.sub_eq_zero_of_le (Nat.not_lt.mp hdeep)] at hx
      cases hx
theorem items_pass (items : List Item) {stack : List Frame} {rest : List UInt8}
    (hfits : AllFit (itemTokens items)) {xs : List Value}
    (hxs : items? (maxOpen - (stack.length + 1)) items = some xs)
    (h : Passes origin (complete stack (.array xs)) rest) :
    Passes origin ⟨stack, .arrayStart⟩ (itemBytes [] items ++ 0x5d :: rest) := by
  cases items with
  | nil =>
    cases hxs
    exact .cons trivial rfl h
  | cons item later =>
    cases item with
    | mk before v after =>
      obtain ⟨x, hx, hmap⟩ := Option.bind_eq_some_iff.mp hxs
      obtain ⟨ys, hys, rfl⟩ := Option.map_eq_some_iff.mp hmap
      obtain ⟨hv, hlater⟩ := AllFit.append hfits
      simp only [itemBytes, List.nil_append, List.append_assoc]
      refine passes_firstItem before v ?_
      refine v.passes hv hx (ends_gap after (ends_items later)) ?_
      exact passes_gap (skips_complete (.array [] :: stack) x) after
        (laterItems_pass later hlater hys [x] h)
theorem laterItems_pass (later : List Item) {stack : List Frame} {rest : List UInt8}
    (hfits : AllFit (itemTokens later)) {xs : List Value}
    (hxs : items? (maxOpen - (stack.length + 1)) later = some xs) (items : List Value)
    (h : Passes origin (complete stack (.array (items.reverse ++ xs))) rest) :
    Passes origin ⟨stack, .arrayTail items⟩ (itemBytes [0x2c] later ++ 0x5d :: rest) := by
  cases later with
  | nil =>
    cases hxs
    exact .cons trivial rfl (by simpa using h)
  | cons item later =>
    cases item with
    | mk before v after =>
      obtain ⟨x, hx, hmap⟩ := Option.bind_eq_some_iff.mp hxs
      obtain ⟨ys, hys, rfl⟩ := Option.map_eq_some_iff.mp hmap
      obtain ⟨hv, hlater⟩ := AllFit.append hfits
      simp only [itemBytes, List.cons_append, List.nil_append, List.append_assoc]
      refine .cons trivial rfl (passes_nextItem items before v ?_)
      refine v.passes hv hx (ends_gap after (ends_items later)) ?_
      exact passes_gap (skips_complete (.array items :: stack) x) after
        (laterItems_pass later hlater hys (x :: items) (by simpa using h))
theorem members_pass (members : List Member) {stack : List Frame} {rest : List UInt8}
    (hfits : AllFit (memberTokens members)) {pairs : List (String × Value)}
    (hpairs : members? (maxOpen - (stack.length + 1)) members = some pairs)
    (h : Passes origin (complete stack (.object (Entries.ofList pairs))) rest) :
    Passes origin ⟨stack, .objectStart⟩ (memberBytes [] members ++ 0x7d :: rest) := by
  cases members with
  | nil =>
    cases hpairs
    exact .cons trivial rfl h
  | cons member later =>
    cases member with
    | mk before key beforeColon afterColon v after =>
      obtain ⟨k, hk, hbind⟩ := Option.bind_eq_some_iff.mp hpairs
      obtain ⟨x, hx, hmap⟩ := Option.bind_eq_some_iff.mp hbind
      obtain ⟨others, hothers, rfl⟩ := Option.map_eq_some_iff.mp hmap
      obtain ⟨hv, hlater⟩ : AllFit (.string key :: v.tokens) ∧ AllFit (memberTokens later) :=
        AllFit.append hfits
      simp only [memberBytes, stringBytes, List.cons_append, List.nil_append, List.append_assoc]
      refine passes_gap Waits.objectStart.skips before (.cons trivial rfl ?_)
      refine passes_key hk beforeColon afterColon ?_
      refine v.passes (fun n hn => hv n (List.mem_cons_of_mem _ hn)) hx
        (ends_gap after (ends_members later)) ?_
      exact passes_gap (skips_complete (.object [] k :: stack) x) after
        (laterMembers_pass later hlater hothers [(k, x)] h)
theorem laterMembers_pass (later : List Member) {stack : List Frame} {rest : List UInt8}
    (hfits : AllFit (memberTokens later)) {pairs : List (String × Value)}
    (hpairs : members? (maxOpen - (stack.length + 1)) later = some pairs)
    (members : List (String × Value))
    (h : Passes origin (complete stack (.object (pairs.foldl
      (fun entries pair => Entries.put entries pair.1 pair.2) members))) rest) :
    Passes origin ⟨stack, .objectTail members⟩ (memberBytes [0x2c] later ++ 0x7d :: rest) := by
  cases later with
  | nil =>
    cases hpairs
    exact .cons trivial rfl h
  | cons member later =>
    cases member with
    | mk before key beforeColon afterColon v after =>
      obtain ⟨k, hk, hbind⟩ := Option.bind_eq_some_iff.mp hpairs
      obtain ⟨x, hx, hmap⟩ := Option.bind_eq_some_iff.mp hbind
      obtain ⟨others, hothers, rfl⟩ := Option.map_eq_some_iff.mp hmap
      obtain ⟨hv, hlater⟩ : AllFit (.string key :: v.tokens) ∧ AllFit (memberTokens later) :=
        AllFit.append hfits
      simp only [memberBytes, stringBytes, List.cons_append, List.nil_append, List.append_assoc]
      refine .cons trivial rfl (passes_gap Waits.objectNext.skips before (.cons trivial rfl ?_))
      refine passes_key hk beforeColon afterColon ?_
      refine v.passes (fun n hn => hv n (List.mem_cons_of_mem _ hn)) hx
        (ends_gap after (ends_members later)) ?_
      exact passes_gap (skips_complete (.object members k :: stack) x) after
        (laterMembers_pass later hlater hothers (Entries.put members k x) h)
end

theorem Document.passes {d : Document} (hfits : AllFit d.value.tokens) {x : Value}
    (hx : d.value? = some x) : Passes origin {} d.bytes := by
  have hends : Ends d.after.bytes := by
    simpa using ends_gap d.after ends_nil
  have hafter : Passes origin (complete [] x) d.after.bytes := by
    simpa using passes_gap (skips_complete [] x) d.after (.nil (sound_complete [] x))
  exact passes_gap Waits.value.skips d.before (d.value.passes hfits hx hends hafter)

end Telemetry.Json
