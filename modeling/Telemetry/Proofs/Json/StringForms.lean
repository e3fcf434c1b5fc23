import Telemetry.Proofs.Json.NumberForms

/-!
# Bytes that are read as a string

If the reader gets through a string, pieces spell it (`string_form`). The
reader takes a character of several bytes one byte at a time and looks
whether the bytes are UTF-8 only at the closing quote. So the bytes up to there
come in chunks first (`Chunk`), and what they add up to says which bytes
belong together (`pieces_of_chunks`).
-/

namespace Telemetry.Json

/-- A byte that stands for itself, or escapes that make up one character. -/
inductive Chunk where
  | byte (b : UInt8) (h : isContent b)
  | escaped (pieces : List Piece) (c : Char)

def Chunk.bytes : Chunk → List UInt8
  | .byte b _ => [b]
  | .escaped pieces _ => pieceBytes pieces

def Chunk.content : Chunk → List UInt8
  | .byte b _ => [b]
  | .escaped _ c => String.utf8EncodeChar c

variable {origin : Origin} {stack : List Frame} {role : Role} {content bytes rest : List UInt8}
  {v : Value} {b : UInt8}

-- ---------------------------------------------------------------------------
-- Escapes
-- ---------------------------------------------------------------------------

theorem exists_hexDigit {n : Nat} (h : hexValue? b = some n) : ∃ d : HexDigit, b = d.byte := by
  unfold hexValue? at h
  split at h
  · rename_i hdigit
    obtain ⟨d, rfl⟩ := exists_digit hdigit
    refine ⟨⟨d.castLE (by decide), false⟩, ?_⟩
    have hd : d.castLE (by decide) < (10 : Fin 16) := d.isLt
    rw [HexDigit.byte, if_pos hd]
    rfl
  · split at h
    · rename_i hletter
      obtain ⟨hlow, hhigh⟩ : 0x61 ≤ b.toNat ∧ b.toNat ≤ 0x66 := by
        simpa [UInt8.le_iff_toNat_le] using hletter
      refine ⟨⟨⟨b.toNat - 0x61 + 10, by omega⟩, false⟩, UInt8.toNat_inj.mp ?_⟩
      rw [HexDigit.byte, if_neg (by simp [Fin.lt_def]), UInt8.toNat_ofNat']
      simp only [Bool.false_eq_true, if_false]
      omega
    · obtain ⟨hletter, -⟩ := Option.ite_none_right_eq_some.mp h
      obtain ⟨hlow, hhigh⟩ : 0x41 ≤ b.toNat ∧ b.toNat ≤ 0x46 := by
        simpa [UInt8.le_iff_toNat_le] using hletter
      refine ⟨⟨⟨b.toNat - 0x41 + 10, by omega⟩, true⟩, UInt8.toNat_inj.mp ?_⟩
      rw [HexDigit.byte, if_neg (by simp [Fin.lt_def]), UInt8.toNat_ofNat']
      simp only [if_true]
      omega

theorem exists_shortEscape {c : Char} (h : shortEscape? b = some c) :
    ∃ e : ShortEscape, b = e.letter ∧ c = e.char := by
  unfold shortEscape? at h
  simp only [beq_iff_eq] at h
  split_ifs at h with h1 h2 h3 h4 h5 h6 h7 h8 <;> obtain rfl := Option.some.inj h
  · exact ⟨.quote, h1, rfl⟩
  · exact ⟨.backslash, h2, rfl⟩
  · exact ⟨.slash, h3, rfl⟩
  · exact ⟨.backspace, h4, rfl⟩
  · exact ⟨.formFeed, h5, rfl⟩
  · exact ⟨.newline, h6, rfl⟩
  · exact ⟨.return, h7, rfl⟩
  · exact ⟨.tab, h8, rfl⟩

theorem hexNumber?_cons {n : Nat} (h : hexNumber? (b :: bytes) = some n) :
    (∃ d : HexDigit, b = d.byte) ∧ ∃ m, hexNumber? bytes = some m := by
  simp only [hexNumber?] at h
  split at h
  · rename_i m d hm hd
    exact ⟨exists_hexDigit hd, m, hm⟩
  · cases h

theorem step_hex {digits : List UInt8} {pair : Option Nat} (h : digits.length < 3) :
    step origin ⟨stack, .string role content (.hex digits pair)⟩ b =
      .ok ⟨stack, .string role content (.hex (b :: digits) pair)⟩ := by
  simp only [step, stringStep, if_pos h]

theorem unit_form {pair : Option Nat}
    (h : reads origin ⟨stack, .string role content (.hex [] pair)⟩ bytes = some v) :
    ∃ (u : CodeUnit) (rest : List UInt8), bytes = u.bytes ++ rest := by
  rcases bytes with _ | ⟨x, _ | ⟨y, _ | ⟨z, _ | ⟨w, rest⟩⟩⟩⟩
  · cases h
  · cases h
  · cases h
  · cases h
  · have h : reads origin ⟨stack, .string role content (.hex [z, y, x] pair)⟩ (w :: rest) = some v := by
      simpa only [reads, step_hex, List.length_cons, List.length_nil, Nat.reduceAdd,
        Nat.reduceLT] using h
    obtain ⟨next, hstep, -⟩ := reads_cons h
    simp only [step, stringStep] at hstep
    obtain ⟨n, hn⟩ : ∃ n, hexNumber? [w, z, y, x] = some n := by
      cases hn : hexNumber? [w, z, y, x] with
      | none =>
        simp only [hn] at hstep
        cases hstep
      | some n => exact ⟨n, rfl⟩
    obtain ⟨⟨dw, rfl⟩, n, hn⟩ := hexNumber?_cons hn
    obtain ⟨⟨dz, rfl⟩, n, hn⟩ := hexNumber?_cons hn
    obtain ⟨⟨dy, rfl⟩, n, hn⟩ := hexNumber?_cons hn
    obtain ⟨⟨dx, rfl⟩, n, hn⟩ := hexNumber?_cons hn
    exact ⟨⟨dx, dy, dz, dw⟩, rest, rfl⟩

theorem trail_form {lead : Nat}
    (h : reads origin ⟨stack, .string role content (.paired lead)⟩ bytes = some v) :
    ∃ (u : CodeUnit) (rest : List UInt8), bytes = 0x5c :: 0x75 :: (u.bytes ++ rest) := by
  rcases bytes with _ | ⟨x, bytes⟩
  · cases h
  obtain ⟨next, hstep, hnext⟩ := reads_cons h
  simp only [step, stringStep] at hstep
  split at hstep
  · rename_i hx
    obtain rfl := beq_iff_eq.mp hx
    cases hstep
    rcases bytes with _ | ⟨y, bytes⟩
    · cases hnext
    obtain ⟨next, hstep, hnext⟩ := reads_cons hnext
    simp only [step, stringStep] at hstep
    split at hstep
    · rename_i hy
      obtain rfl := beq_iff_eq.mp hy
      cases hstep
      obtain ⟨u, rest, rfl⟩ := unit_form hnext
      exact ⟨u, rest, rfl⟩
    · cases hstep
  · cases hstep

theorem escape_form (h : reads origin ⟨stack, .string role content .none⟩ (0x5c :: bytes) = some v) :
    ∃ (pieces : List Piece) (c : Char) (rest : List UInt8),
      0x5c :: bytes = pieceBytes pieces ++ rest ∧ rest.length ≤ bytes.length ∧
        reads origin ⟨stack, .string role (extend content c) .none⟩ rest = some v := by
  obtain ⟨next, hstep, hnext⟩ := reads_cons h
  cases hstep
  rcases bytes with _ | ⟨b, bytes⟩
  · cases hnext
  obtain ⟨next, hstep, hnext⟩ := reads_cons hnext
  simp only [step, stringStep] at hstep
  split at hstep
  · rename_i hb
    obtain rfl := beq_iff_eq.mp hb
    cases hstep
    obtain ⟨u, rest, rfl⟩ := unit_form hnext
    rw [reads_unit] at h
    obtain ⟨-, h⟩ := Option.ite_none_left_eq_some.mp h
    split at h
    · obtain ⟨w, rest, rfl⟩ := trail_form h
      rw [reads_trail] at h
      obtain ⟨-, h⟩ := Option.ite_none_right_eq_some.mp h
      refine ⟨[.unit u, .unit w], pairChar u.value w.value, rest, ?_, ?_, h⟩
      · simp [pieceBytes, Piece.bytes]
      · simp only [List.length_append, List.length_cons]
        omega
    · refine ⟨[.unit u], Char.ofNat u.value, rest, ?_, ?_, h⟩
      · simp [pieceBytes, Piece.bytes]
      · simp only [List.length_append, List.length_cons]
        omega
  · split at hstep
    · rename_i c hc
      obtain ⟨e, rfl, rfl⟩ := exists_shortEscape hc
      cases hstep
      exact ⟨[.short e], e.char, bytes, rfl, by simp, hnext⟩
    · cases hstep

-- ---------------------------------------------------------------------------
-- Chunks
-- ---------------------------------------------------------------------------

/-- The bytes start with a string's chunks and its closing quote, and with the
content before them the chunks are UTF-8. -/
def InChunks (content bytes : List UInt8) : Prop :=
  ∃ (chunks : List Chunk) (rest : List UInt8) (s : String),
    bytes = chunks.flatMap Chunk.bytes ++ 0x22 :: rest ∧
      Utf8.toString? (content.reverse ++ chunks.flatMap Chunk.content) = some s

theorem InChunks.cons (chunk : Chunk) (h : InChunks (chunk.content.reverse ++ content) bytes) :
    InChunks content (chunk.bytes ++ bytes) := by
  obtain ⟨chunks, rest, s, rfl, hs⟩ := h
  exact ⟨chunk :: chunks, rest, s, by simp, by simpa using hs⟩

theorem close_ok {s : String} (h : close .bytes content = .ok s) :
    Utf8.toString? content.reverse = some s := by
  unfold close at h
  dsimp only at h
  split at h
  · cases h
    assumption
  · cases h

theorem string_chunks (h : reads .bytes ⟨stack, .string role content .none⟩ bytes = some v) :
    InChunks content bytes := by
  induction hn : bytes.length using Nat.strongRecOn generalizing bytes content with
  | ind n ih =>
    subst hn
    rcases bytes with _ | ⟨b, bytes⟩
    · cases h
    obtain ⟨next, hstep, hnext⟩ := reads_cons h
    by_cases hquote : b = 0x22
    · subst hquote
      cases hs : close .bytes content with
      | error refusal => simp [step, stringStep, hs] at hstep
      | ok s => exact ⟨[], bytes, s, rfl, by simpa using close_ok hs⟩
    by_cases hescape : b = 0x5c
    · subst hescape
      obtain ⟨pieces, c, rest, hpieces, hlength, hrest⟩ := escape_form h
      rw [hpieces]
      exact .cons (.escaped pieces c) (ih rest.length (Nat.lt_succ_of_le hlength) hrest rfl)
    by_cases hcontrol : b < 0x20
    · simp [step, stringStep, hquote, hescape, hcontrol, refuse] at hstep
    have hb : isContent b := by
      rw [UInt8.lt_iff_toNat_lt] at hcontrol
      rw [← UInt8.toNat_inj] at hquote hescape
      exact ⟨Nat.not_lt.mp hcontrol, hquote, hescape⟩
    rw [step_content hb] at hstep
    cases hstep
    exact .cons (.byte b hb) (ih bytes.length (Nat.lt_succ_self _) hnext rfl)

-- ---------------------------------------------------------------------------
-- Pieces
-- ---------------------------------------------------------------------------

def Continues (b : UInt8) : Prop :=
  0x80 ≤ b.toNat ∧ b.toNat < 0xc0

theorem isPlain_of_high {c : Char} (h : 0x80 ≤ c.toNat) : isPlain c := by
  refine ⟨Nat.le_trans (by decide) h, ?_, ?_⟩
  · rintro rfl
    exact absurd h (by decide)
  · rintro rfl
    exact absurd h (by decide)

/-- Only the first byte of a character does not go on with it. Where it stands
for itself, so does the character. -/
theorem encodeChar_continues (c : Char) : ∃ first later,
    String.utf8EncodeChar c = first :: later ∧ ¬ Continues first ∧
      (∀ b ∈ later, Continues b) ∧ (isContent first → isPlain c) := by
  have hhigh (h : ¬ c.val.toNat ≤ 0x7f) (first : UInt8) : isContent first → isPlain c :=
    fun _ => isPlain_of_high (by exact Nat.not_le.mp h)
  have htail (n : Nat) : Continues (UInt8.ofNat (n % 0x40 + 0x80)) := by
    unfold Continues
    rw [UInt8.toNat_ofNat']
    omega
  have hmore {n : Nat} {later : List UInt8} (h : ∀ b ∈ later, Continues b) :
      ∀ b ∈ UInt8.ofNat (n % 0x40 + 0x80) :: later, Continues b :=
    List.forall_mem_cons.mpr ⟨htail n, h⟩
  have hnone : ∀ b ∈ ([] : List UInt8), Continues b := List.forall_mem_nil _
  unfold String.utf8EncodeChar
  dsimp only
  split
  · rename_i hascii
    refine ⟨_, [], rfl, ?_, hnone, ?_⟩
    · unfold Continues
      rw [UInt8.toNat_ofNat']
      omega
    · rintro ⟨hlow, hquote, hbackslash⟩
      rw [UInt8.toNat_ofNat', Nat.mod_eq_of_lt (by omega)] at hlow hquote hbackslash
      refine ⟨hlow, ?_, ?_⟩
      · rintro rfl
        exact hquote rfl
      · rintro rfl
        exact hbackslash rfl
  · rename_i hascii
    split
    · refine ⟨_, _, rfl, ?_, hmore hnone, hhigh hascii _⟩
      unfold Continues
      rw [UInt8.toNat_ofNat']
      omega
    · split
      · refine ⟨_, _, rfl, ?_, hmore (hmore hnone), hhigh hascii _⟩
        unfold Continues
        rw [UInt8.toNat_ofNat']
        omega
      · refine ⟨_, _, rfl, ?_, hmore (hmore (hmore hnone)), hhigh hascii _⟩
        unfold Continues
        rw [UInt8.toNat_ofNat']
        omega

/-- Bytes that go on with a character come from as many chunks. -/
theorem chunks_continue {later more : List UInt8} {chunks : List Chunk}
    (hlater : ∀ b ∈ later, Continues b) (h : chunks.flatMap Chunk.content = later ++ more) :
    ∃ others : List Chunk, chunks.flatMap Chunk.bytes = later ++ others.flatMap Chunk.bytes ∧
      others.flatMap Chunk.content = more := by
  induction later generalizing chunks with
  | nil => exact ⟨chunks, rfl, h⟩
  | cons b later ih =>
    rcases chunks with _ | ⟨chunk, chunks⟩
    · cases h
    rw [List.flatMap_cons] at h
    cases chunk with
    | byte b' hb' =>
      obtain ⟨rfl, hrest⟩ := List.cons.inj h
      obtain ⟨others, hbytes, hcontent⟩ :=
        ih (fun b hb => hlater b (List.mem_cons_of_mem _ hb)) hrest
      exact ⟨others, congrArg (b' :: ·) hbytes, hcontent⟩
    | escaped pieces c =>
      obtain ⟨first, tail, hc, hfirst, -, -⟩ := encodeChar_continues c
      rw [Chunk.content, hc] at h
      obtain ⟨rfl, -⟩ := List.cons.inj h
      exact absurd (hlater _ (List.mem_cons_self ..)) hfirst

theorem Chunk.content_ne_nil (chunk : Chunk) : chunk.content ≠ [] := by
  cases chunk with
  | byte b h => exact List.cons_ne_nil b []
  | escaped pieces c => exact String.utf8EncodeChar_ne_nil

theorem pieces_of_chunks {chunks : List Chunk} {cs : List Char}
    (h : chunks.flatMap Chunk.content = Utf8.encode cs) :
    ∃ pieces, chunks.flatMap Chunk.bytes = pieceBytes pieces := by
  induction cs generalizing chunks with
  | nil =>
    rcases chunks with _ | ⟨chunk, chunks⟩
    · exact ⟨[], rfl⟩
    · rw [List.flatMap_cons] at h
      exact absurd (List.append_eq_nil_iff.mp h).1 chunk.content_ne_nil
  | cons c cs ih =>
    rw [Utf8.encode_cons] at h
    rcases chunks with _ | ⟨chunk, chunks⟩
    · exact absurd (List.append_eq_nil_iff.mp h.symm).1 String.utf8EncodeChar_ne_nil
    rw [List.flatMap_cons] at h
    cases chunk with
    | escaped before d =>
      have hnext := Utf8.next?_encodeChar d (chunks.flatMap Chunk.content)
      rw [show String.utf8EncodeChar d ++ chunks.flatMap Chunk.content = _ from h,
        Utf8.next?_encodeChar, Option.some.injEq, Prod.mk.injEq] at hnext
      obtain ⟨pieces, hpieces⟩ := ih hnext.2.symm
      exact ⟨before ++ pieces, by simp [Chunk.bytes, hpieces, pieceBytes]⟩
    | byte b hb =>
      obtain ⟨first, later, hc, -, hlater, hplain⟩ := encodeChar_continues c
      rw [hc] at h
      obtain ⟨rfl, hrest⟩ := List.cons.inj h
      obtain ⟨others, hbytes, hcontent⟩ := chunks_continue hlater hrest
      obtain ⟨pieces, hpieces⟩ := ih hcontent
      refine ⟨.plain c (hplain hb) :: pieces, ?_⟩
      rw [List.flatMap_cons, hbytes, hpieces]
      simp [Chunk.bytes, pieceBytes, Piece.bytes, hc]

/-- The pieces of a string that is read, with its closing quote after them. -/
theorem string_form (h : reads .bytes ⟨stack, .string role [] .none⟩ bytes = some v) :
    ∃ (pieces : List Piece) (rest : List UInt8), bytes = pieceBytes pieces ++ 0x22 :: rest := by
  obtain ⟨chunks, rest, s, rfl, hs⟩ := string_chunks h
  obtain ⟨pieces, hpieces⟩ := pieces_of_chunks (Utf8.toString?_eq_some hs)
  exact ⟨pieces, rest, by rw [hpieces]⟩

end Telemetry.Json
