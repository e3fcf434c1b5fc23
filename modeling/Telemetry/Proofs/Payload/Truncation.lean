import Telemetry.Proofs.Json.Prefixes
import Telemetry.Proofs.Json.Writing

/-!
# Bodies that are cut off

A body whose top value is a string, an array or an object ends with the byte
that closes this value. A cut before that byte leaves something open
(`Document.truncated`), so the error is that the body ended, provided that its
numbers are integers that `Int64` holds: a cut in another number can leave one
that overflows. Where a body ended is where it ends: the error counts its lines and
the bytes after its last line feed (`run_ended`).
-/

namespace Telemetry.Json

variable {origin : Origin} {s next : State} {b : UInt8} {rest : List UInt8}

-- ---------------------------------------------------------------------------
-- Positions
-- ---------------------------------------------------------------------------

def endOf (bytes : List UInt8) : Position where
  line := 1 + bytes.count 0x0a
  column := (bytes.reverse.takeWhile (· != 0x0a)).length

theorem foldl_advance (bytes : List UInt8) : bytes.foldl Position.advance {} = endOf bytes := by
  induction bytes using List.reverseRecOn with
  | nil => rfl
  | append_singleton bytes b ih =>
    simp only [List.foldl_append, List.foldl_cons, List.foldl_nil, ih, Position.advance]
    by_cases hb : b = 0x0a
    · simp [endOf, hb, Nat.add_assoc]
    · simp [endOf, hb]

theorem finish_ended {position place : Position} (h : finish position s = .error (.ended place)) :
    place = position := by
  unfold finish at h
  split at h
  · cases h
  · split at h
    · split at h
      · split at h
        · cases h
        · cases h
          rfl
      · cases h
    · cases h
      rfl
  · cases h
    rfl

theorem run_ended {bytes : List UInt8} {position place : Position}
    (h : run origin position s bytes = .error (.ended place)) :
    place = bytes.foldl Position.advance position := by
  induction bytes generalizing s position with
  | nil => exact finish_ended h
  | cons b rest ih =>
    simp only [run] at h
    cases hstep : step origin s b with
    | ok next =>
      rw [hstep] at h
      exact ih h
    | error refusal =>
      rw [hstep] at h
      cases h

-- ---------------------------------------------------------------------------
-- Closing bytes
-- ---------------------------------------------------------------------------

def Closes (b : UInt8) : Prop :=
  b = 0x22 ∨ b = 0x5d ∨ b = 0x7d

/-- Nothing is open in this state, so a text may end there. -/
def State.Bare (s : State) : Prop :=
  match s.mode with
  | .done _ => True
  | .number _ _ => s.stack = []
  | _ => False

theorem finish_sound (h : s.Sound) (position : Position) :
    finish position s = .error (.ended position) ∨ s.Bare := by
  obtain ⟨stack, mode⟩ := s
  cases mode with
  | done v => exact .inr trivial
  | number part l =>
    by_cases hpart : part.final = true
    · cases stack with
      | nil => exact .inr rfl
      | cons frame stack =>
        obtain ⟨n, hn⟩ := Option.ne_none_iff_exists'.mp (h hpart)
        exact .inl (by simp [finish, hpart, hn])
    · exact .inl (by simp [finish, hpart])
  | _ => exact .inl rfl

theorem doneStep_ok {v : Value} (h : doneStep v b = .ok next) : next.Bare ∧ ¬ Closes b := by
  unfold doneStep at h
  split at h
  · rename_i hspace
    cases h
    refine ⟨trivial, ?_⟩
    rintro (rfl | rfl | rfl) <;> cases hspace
  · cases h

theorem numberStep_bare {part : NumberPart} {l : Literal}
    (h : numberStep [] part l b = some (.ok next)) : next.Bare ∧ ¬ Closes b := by
  obtain ⟨after, grown, hafter, rfl⟩ := numberStep_ok h
  refine ⟨rfl, ?_⟩
  rintro (rfl | rfl | rfl) <;> cases part <;> cases hafter

theorem State.Bare.step (h : s.Bare) (hstep : step origin s b = .ok next) :
    next.Bare ∧ ¬ Closes b := by
  obtain ⟨stack, mode⟩ := s
  cases mode with
  | done v => exact doneStep_ok hstep
  | number part l =>
    obtain rfl : stack = [] := h
    simp only [Json.step] at hstep
    cases hnumber : numberStep [] part l b with
    | some outcome =>
      simp only [hnumber] at hstep
      exact numberStep_bare (hnumber.trans (congrArg some hstep))
    | none =>
      simp only [hnumber] at hstep
      split at hstep
      · exact doneStep_ok hstep
      · cases hstep
  | _ => cases h

theorem State.Bare.not_closes (h : s.Bare) (hpasses : Passes origin s rest) :
    ∀ b ∈ rest, ¬ Closes b := by
  induction hpasses with
  | nil _ => exact fun _ hb => nomatch hb
  | cons _ hstep _ ih =>
    obtain ⟨hnext, hhead⟩ := h.step hstep
    exact List.forall_mem_cons.mpr ⟨hhead, ih hnext⟩

-- ---------------------------------------------------------------------------
-- Cuts
-- ---------------------------------------------------------------------------

def Spelling.Encloses : Spelling → Prop
  | .string _ | .array _ _ | .object _ _ => True
  | _ => False

theorem Spelling.Encloses.last {v : Spelling} (h : v.Encloses) :
    ∃ front b, v.bytes = front ++ [b] ∧ Closes b := by
  cases v with
  | string pieces => exact ⟨0x22 :: pieceBytes pieces, 0x22, rfl, .inl rfl⟩
  | array gap items =>
    exact ⟨0x5b :: (gap.bytes ++ itemBytes [] items), 0x5d, by simp [Spelling.bytes],
      .inr (.inl rfl)⟩
  | object gap members =>
    exact ⟨0x7b :: (gap.bytes ++ memberBytes [] members), 0x7d, by simp [Spelling.bytes],
      .inr (.inr rfl)⟩
  | _ => cases h

/-- What is left behind a cut holds the byte that closes the value. -/
theorem Document.exists_closing {d : Document} (h : d.value.Encloses) {p q : List UInt8}
    (hsplit : p ++ q = d.bytes)
    (hcut : p.length < d.before.bytes.length + d.value.bytes.length) : ∃ b ∈ q, Closes b := by
  obtain ⟨front, b, hb, hcloses⟩ := h.last
  refine ⟨b, ?_, hcloses⟩
  have hbytes : p ++ q = (d.before.bytes ++ front) ++ b :: d.after.bytes := by
    simp [hsplit, Document.bytes, hb]
  have hfront : p.length ≤ (d.before.bytes ++ front).length := by
    simp only [hb, List.length_append, List.length_singleton] at hcut ⊢
    omega
  obtain ⟨between, hbetween⟩ : p <+: d.before.bytes ++ front :=
    List.prefix_of_prefix_length_le ⟨q, hbytes⟩ (List.prefix_append _ _) hfront
  rw [← hbetween, List.append_assoc] at hbytes
  rw [List.append_cancel_left hbytes]
  simp

theorem Document.truncated {d : Document} (hfits : AllFit d.value.tokens) {x : Value}
    (hx : d.value? = some x) (hencloses : d.value.Encloses) {p : List UInt8} (hp : p <+: d.bytes)
    (hcut : p.length < d.before.bytes.length + d.value.bytes.length) :
    run origin {} {} p = .error (.ended (endOf p)) := by
  obtain ⟨q, hsplit⟩ := hp
  have hpasses : Passes origin {} (p ++ q) := hsplit ▸ d.passes hfits hx
  obtain ⟨mid, hmid, hrun⟩ := hpasses.split
  rw [hrun, foldl_advance]
  refine (finish_sound hmid.sound _).resolve_right ?_
  intro hbare
  obtain ⟨b, hb, hcloses⟩ := d.exists_closing hencloses hsplit hcut
  exact hbare.not_closes hmid b hb hcloses

end Telemetry.Json

namespace Telemetry.Payload

open Json (AllFit Document)

theorem parse_ended {bytes : List UInt8} {ranking : Ranking} {line column : Nat}
    (h : parse bytes ranking = .error (.unexpectedEnd line column)) :
    ∃ place, Json.parse bytes = .error (.ended place) ∧ place = ⟨line, column⟩ := by
  unfold parse at h
  cases hread : Json.parse bytes with
  | ok v =>
    rw [hread] at h
    cases h
  | error error =>
    rw [hread] at h
    cases error with
    | ended place =>
      cases h
      exact ⟨place, rfl, rfl⟩
    | malformed flaw place => cases h

/-- Of a body that has a tree, whose top value is a string, an array or an object
and whose numbers are integers that `Int64` holds, what is left by a cut before
the last byte of this value has ended unexpectedly. Whatever ended unexpectedly
did so at its end: on the line after as many line feeds as it has, and behind
the bytes after the last of them. -/
theorem parse_truncated (bytes : List UInt8) (ranking : Ranking) :
    (∀ t, parse bytes ranking = .ok t →
      (∃ d : Document, d.bytes = bytes) ∧
        ∀ d : Document, d.bytes = bytes → d.value.Encloses → AllFit d.value.tokens →
          ∀ p, p <+: bytes → p.length < d.before.bytes.length + d.value.bytes.length →
            ∃ line column, parse p ranking = .error (.unexpectedEnd line column)) ∧
      ∀ line column, parse bytes ranking = .error (.unexpectedEnd line column) →
        line = 1 + bytes.count 0x0a ∧
          column = (bytes.reverse.takeWhile (· != 0x0a)).length := by
  refine ⟨?_, ?_⟩
  · intro t ht
    refine ⟨exists_body ht, ?_⟩
    rintro d rfl hencloses hfits p hp hcut
    rw [← Json.toOption_eq_some_iff, parse_document] at ht
    obtain ⟨u, htree, -⟩ := Option.map_eq_some_iff.mp ht
    obtain ⟨x, hx, -⟩ := Option.map_eq_some_iff.mp htree
    have hread : Json.parse p = .error (.ended (Json.endOf p)) :=
      Document.truncated hfits hx hencloses hp hcut
    exact ⟨_, _, congrArg (Tree.ofRead ranking) hread⟩
  · intro line column h
    obtain ⟨place, hread, rfl⟩ := parse_ended h
    have hend := (Json.run_ended hread).trans (Json.foldl_advance bytes)
    exact ⟨congrArg Json.Position.line hend, congrArg Json.Position.column hend⟩

/-- A number on the second line, and on the third an accented letter and a
character that is spelled by two surrogates. -/
def greeting : Document where
  value := .object [.newline] [
    .mk [] [.plain 'n' ⟨by decide, by decide, by decide⟩] [] []
      (.number { negative := true, whole := .digits 3 (by decide) [2] }) [],
    .mk [.newline] [.plain 'e' ⟨by decide, by decide, by decide⟩] [] [.space]
      (.string [.plain 'é' ⟨by decide, by decide, by decide⟩, .unit (.ofNat 0xd83d),
        .unit (.ofNat 0xde00)]) []]
  after := [.newline]

theorem parse_truncated_greeting :
    greeting.bytes = Utf8.ofString "\x7b\n\"n\":-32,\n\"e\": \"é\\ud83d\\ude00\"\x7d\n" ∧
      parse (greeting.bytes.take 18) = .error (.unexpectedEnd 3 7) ∧
      parse (greeting.bytes.take 25) = .error (.unexpectedEnd 3 14) := by
  have hparses : (parse greeting.bytes).toOption.isSome = true := by
    rw [parse_document]
    decide
  obtain ⟨t, ht⟩ := Option.isSome_iff_exists.mp hparses
  have hfits : AllFit greeting.value.tokens := by
    intro n hn
    simp only [greeting, Json.Spelling.tokens, Json.memberTokens] at hn
    obtain rfl : n = { negative := true, whole := .digits 3 (by decide) [2] } := by simpa using hn
    exact ⟨rfl, rfl, by decide, by decide⟩
  have hcut :=
    ((parse_truncated greeting.bytes .level).1 t (Json.toOption_eq_some_iff.mp ht)).2 greeting
    rfl trivial hfits
  obtain ⟨line, column, hletter⟩ := hcut (greeting.bytes.take 18) (List.take_prefix ..) (by decide)
  obtain ⟨line', column', hpair⟩ := hcut (greeting.bytes.take 25) (List.take_prefix ..) (by decide)
  obtain ⟨rfl, rfl⟩ := (parse_truncated _ .level).2 line column hletter
  obtain ⟨rfl, rfl⟩ := (parse_truncated _ .level).2 line' column' hpair
  exact ⟨by decide, hletter, hpair⟩

end Telemetry.Payload
