import Telemetry.Proofs.Json.Reading
import Telemetry.Proofs.Text.Utf8

/-!
# Reading strings

The reader keeps what it has read of a string as bytes, last first. Each
piece of a string adds the bytes of its character to them, a surrogate pair
adds those of one character, and a surrogate without its other half ends the
reading. So a string gives the characters of its pieces (`reads_string`).
-/

namespace Telemetry.Json

variable {origin : Origin} {stack : List Frame} {role : Role} {rest : List UInt8}

def afterString (stack : List Frame) (role : Role) (s : String) : State :=
  match role with
  | .value => complete stack (.string s)
  | .key members => ⟨stack, .colon members s⟩

theorem extend_encode (read : List Char) (c : Char) :
    extend (Utf8.encode read).reverse c = (Utf8.encode (read ++ [c])).reverse := by
  simp [extend, Utf8.encode]

theorem close_encode (cs : List Char) :
    close origin (Utf8.encode cs).reverse = .ok (String.ofList cs) := by
  simp [close, Utf8.toString?_encode]

theorem reads_quote (cs : List Char) :
    reads origin ⟨stack, .string role (Utf8.encode cs).reverse .none⟩ (0x22 :: rest) =
      reads origin (afterString stack role (String.ofList cs)) rest := by
  refine reads_step ?_
  simp only [step, stringStep, close_encode]
  cases role <;> rfl

-- ---------------------------------------------------------------------------
-- Characters that stand for themselves
-- ---------------------------------------------------------------------------

def isContent (b : UInt8) : Prop :=
  0x20 ≤ b.toNat ∧ b.toNat ≠ 0x22 ∧ b.toNat ≠ 0x5c

theorem isContent.ne {b : UInt8} (h : isContent b) : b ≠ 0x22 ∧ b ≠ 0x5c := by
  obtain ⟨-, hquote, hbackslash⟩ := h
  refine ⟨?_, ?_⟩
  · rintro rfl
    exact hquote rfl
  · rintro rfl
    exact hbackslash rfl

theorem step_content {b : UInt8} (h : isContent b) (content : List UInt8) :
    step origin ⟨stack, .string role content .none⟩ b =
      .ok ⟨stack, .string role (b :: content) .none⟩ := by
  obtain ⟨hquote, hbackslash⟩ := h.ne
  have hcontrol : ¬ b < 0x20 := by
    rw [UInt8.lt_iff_toNat_lt]
    exact Nat.not_lt.mpr h.1
  simp [step, stringStep, hquote, hbackslash, hcontrol]

theorem isContent_of_mem {c : Char} (h : isPlain c) {b : UInt8}
    (hb : b ∈ String.utf8EncodeChar c) : isContent b := by
  obtain ⟨hlow, hquote, hbackslash⟩ := h
  have hquote : c.val.toNat ≠ 0x22 := fun heq => hquote (Char.ext (UInt32.toNat_inj.mp heq))
  have hbackslash : c.val.toNat ≠ 0x5c := fun heq => hbackslash (Char.ext (UInt32.toNat_inj.mp heq))
  have hlow : 0x20 ≤ c.val.toNat := hlow
  unfold String.utf8EncodeChar at hb
  generalize c.val.toNat = n at hb hlow hquote hbackslash
  unfold isContent
  dsimp only at hb
  split at hb
  · simp only [List.mem_singleton] at hb
    rw [hb, UInt8.toNat_ofNat']
    omega
  · -- no byte of a longer sequence is below 0x80
    split at hb
    · simp only [List.mem_cons, List.not_mem_nil, or_false] at hb
      rcases hb with rfl | rfl <;> rw [UInt8.toNat_ofNat'] <;> omega
    · split at hb
      · simp only [List.mem_cons, List.not_mem_nil, or_false] at hb
        rcases hb with rfl | rfl | rfl <;> rw [UInt8.toNat_ofNat'] <;> omega
      · simp only [List.mem_cons, List.not_mem_nil, or_false] at hb
        rcases hb with rfl | rfl | rfl | rfl <;> rw [UInt8.toNat_ofNat'] <;> omega

theorem reads_content {bytes : List UInt8} (h : ∀ b ∈ bytes, isContent b) (content : List UInt8) :
    reads origin ⟨stack, .string role content .none⟩ (bytes ++ rest) =
      reads origin ⟨stack, .string role (bytes.reverse ++ content) .none⟩ rest := by
  induction bytes generalizing content with
  | nil => rfl
  | cons b bytes ih =>
    refine (reads_step (step_content (h b (List.mem_cons_self ..)) content)).trans ?_
    refine (ih (fun b hb => h b (List.mem_cons_of_mem _ hb)) (b :: content)).trans ?_
    simp

theorem reads_plain {c : Char} (h : isPlain c) (read : List Char) :
    reads origin ⟨stack, .string role (Utf8.encode read).reverse .none⟩
        (String.utf8EncodeChar c ++ rest) =
      reads origin ⟨stack, .string role (Utf8.encode (read ++ [c])).reverse .none⟩ rest := by
  rw [← extend_encode]
  exact reads_content (fun b hb => isContent_of_mem h hb) _

-- ---------------------------------------------------------------------------
-- Escapes
-- ---------------------------------------------------------------------------

theorem reads_short (e : ShortEscape) (read : List Char) :
    reads origin ⟨stack, .string role (Utf8.encode read).reverse .none⟩
        (0x5c :: e.letter :: rest) =
      reads origin ⟨stack, .string role (Utf8.encode (read ++ [e.char])).reverse .none⟩ rest := by
  rw [← extend_encode]
  cases e <;> rfl

theorem hexValue?_byte (d : HexDigit) : hexValue? d.byte = some d.value.val := by
  obtain ⟨value, capital⟩ := d
  revert value capital
  decide

theorem hexNumber?_unit (u : CodeUnit) :
    hexNumber? [u.fourth.byte, u.third.byte, u.second.byte, u.first.byte] = some u.value := by
  simp only [hexNumber?, hexValue?_byte, CodeUnit.value]
  simp

theorem step_unit (origin : Origin) (stack : List Frame) (role : Role) (u : CodeUnit)
    (content : List UInt8) :
    step origin ⟨stack, .string role content
        (.hex [u.third.byte, u.second.byte, u.first.byte] none)⟩ u.fourth.byte =
      if isTrailing u.value then refuse .loneSurrogate
      else if isLeading u.value then .ok ⟨stack, .string role content (.paired u.value)⟩
      else .ok ⟨stack, .string role (extend content (Char.ofNat u.value)) .none⟩ := by
  simp only [step, stringStep, hexNumber?_unit]
  rfl

/-- The last of four digits, after a leading surrogate. -/
theorem step_trail (origin : Origin) (stack : List Frame) (role : Role) (lead : Nat) (u : CodeUnit)
    (content : List UInt8) :
    step origin ⟨stack, .string role content
        (.hex [u.third.byte, u.second.byte, u.first.byte] (some lead))⟩ u.fourth.byte =
      if isTrailing u.value then
        .ok ⟨stack, .string role (extend content (pairChar lead u.value)) .none⟩
      else refuse .loneSurrogate := by
  simp only [step, stringStep, hexNumber?_unit]
  rfl

theorem reads_unit (u : CodeUnit) (content : List UInt8) :
    reads origin ⟨stack, .string role content .none⟩ (0x5c :: 0x75 :: (u.bytes ++ rest)) =
      if isTrailing u.value then none
      else if isLeading u.value then
        reads origin ⟨stack, .string role content (.paired u.value)⟩ rest
      else reads origin ⟨stack, .string role (extend content (Char.ofNat u.value)) .none⟩ rest := by
  have hlast := step_unit origin stack role u content
  have hread : reads origin ⟨stack, .string role content .none⟩
      (0x5c :: 0x75 :: (u.bytes ++ rest)) = reads origin ⟨stack, .string role content
        (.hex [u.third.byte, u.second.byte, u.first.byte] none)⟩ (u.fourth.byte :: rest) := rfl
  rw [hread]
  by_cases htrail : isTrailing u.value = true
  · rw [if_pos htrail] at hlast ⊢
    exact reads_refused hlast
  · rw [if_neg htrail] at hlast ⊢
    by_cases hlead : isLeading u.value = true
    · rw [if_pos hlead] at hlast ⊢
      exact reads_step hlast
    · rw [if_neg hlead] at hlast ⊢
      exact reads_step hlast

theorem reads_trail (lead : Nat) (u : CodeUnit) (content : List UInt8) :
    reads origin ⟨stack, .string role content (.paired lead)⟩ (0x5c :: 0x75 :: (u.bytes ++ rest)) =
      if isTrailing u.value then
        reads origin ⟨stack, .string role (extend content (pairChar lead u.value)) .none⟩ rest
      else none := by
  have hlast := step_trail origin stack role lead u content
  have hread : reads origin ⟨stack, .string role content (.paired lead)⟩
      (0x5c :: 0x75 :: (u.bytes ++ rest)) = reads origin ⟨stack, .string role content
        (.hex [u.third.byte, u.second.byte, u.first.byte] (some lead))⟩
          (u.fourth.byte :: rest) := rfl
  rw [hread]
  by_cases htrail : isTrailing u.value = true
  · rw [if_pos htrail] at hlast ⊢
    exact reads_step hlast
  · rw [if_neg htrail] at hlast ⊢
    exact reads_refused hlast

/-- A leading surrogate is followed by an escape of four digits or nothing
is read. -/
theorem reads_lone (lead : Nat) (content : List UInt8) (pieces : List Piece)
    (h : ∀ u later, pieces ≠ .unit u :: later) :
    reads origin ⟨stack, .string role content (.paired lead)⟩
      (pieceBytes pieces ++ 0x22 :: rest) = none := by
  rcases pieces with _ | ⟨piece, pieces⟩
  · rfl
  · cases piece with
    | plain c hc =>
      obtain ⟨b, bytes, hb⟩ := List.exists_cons_of_ne_nil (String.utf8EncodeChar_ne_nil (c := c))
      have hcontent : isContent b := isContent_of_mem hc (by rw [hb]; exact List.mem_cons_self ..)
      have hne : (b == 0x5c) = false := beq_eq_false_iff_ne.mpr hcontent.ne.2
      simp only [pieceBytes, List.flatMap_cons, Piece.bytes, hb, List.cons_append]
      exact reads_refused (by simp only [step, stringStep, hne]; rfl)
    | short e => cases e <;> rfl
    | unit u => exact absurd rfl (h u pieces)

-- ---------------------------------------------------------------------------
-- Strings
-- ---------------------------------------------------------------------------

theorem reads_pieces (pieces : List Piece) (read : List Char) :
    reads origin ⟨stack, .string role (Utf8.encode read).reverse .none⟩
        (pieceBytes pieces ++ 0x22 :: rest) =
      (characters? pieces).bind fun cs =>
        reads origin (afterString stack role (String.ofList (read ++ cs))) rest := by
  have hbytes (piece : Piece) (pieces : List Piece) : pieceBytes (piece :: pieces) ++ 0x22 :: rest =
      piece.bytes ++ (pieceBytes pieces ++ 0x22 :: rest) := by
    simp [pieceBytes]
  have hbind (read : List Char) (c : Char) (cs? : Option (List Char)) :
      (cs?.bind fun cs =>
          reads origin (afterString stack role (String.ofList ((read ++ [c]) ++ cs))) rest) =
        (cs?.map (c :: ·)).bind fun cs =>
          reads origin (afterString stack role (String.ofList (read ++ cs))) rest := by
    cases cs? <;> simp
  induction pieces using characters?.induct generalizing read with
  | case1 => simpa [pieceBytes, characters?] using reads_quote read
  | case2 c hc pieces ih =>
    rw [hbytes, characters?]
    exact (reads_plain hc read).trans ((ih (read ++ [c])).trans (hbind read c _))
  | case3 e pieces ih =>
    rw [hbytes, characters?]
    exact (reads_short e read).trans ((ih (read ++ [e.char])).trans (hbind read e.char _))
  | case4 u pieces htrail =>
    -- a trailing surrogate that comes first
    rw [hbytes, characters?_trail htrail]
    exact (reads_unit u _).trans (if_pos htrail)
  | case5 u htrail hlead v pieces hpair ih =>
    rw [hbytes, hbytes, characters?_pair htrail hlead, if_pos hpair]
    refine (reads_unit u _).trans ?_
    rw [if_neg htrail, if_pos hlead]
    refine (reads_trail u.value v _).trans ?_
    rw [if_pos hpair, extend_encode]
    exact (ih _).trans (hbind read _ _)
  | case6 u htrail hlead v pieces hpair =>
    rw [hbytes, hbytes, characters?_pair htrail hlead, if_neg hpair]
    refine (reads_unit u _).trans ?_
    rw [if_neg htrail, if_pos hlead]
    exact (reads_trail u.value v _).trans (if_neg hpair)
  | case7 u pieces htrail hlead hlone =>
    rw [hbytes, characters?_lone htrail hlead hlone]
    refine (reads_unit u _).trans ?_
    rw [if_neg htrail, if_pos hlead]
    exact reads_lone u.value _ pieces hlone
  | case8 u pieces htrail hlead ih =>
    rw [hbytes, characters?_unit htrail hlead]
    refine (reads_unit u _).trans ?_
    rw [if_neg htrail, if_neg hlead, extend_encode]
    exact (ih _).trans (hbind read _ _)

theorem reads_string (pieces : List Piece) :
    reads origin ⟨stack, .string role [] .none⟩ (pieceBytes pieces ++ 0x22 :: rest) =
      (string? pieces).bind fun s => reads origin (afterString stack role s) rest := by
  refine (reads_pieces pieces []).trans ?_
  cases h : characters? pieces <;> simp [string?, h]

end Telemetry.Json
