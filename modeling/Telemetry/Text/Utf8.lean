/-!
# UTF-8

Bytes as the encoding of a list of characters. Decoding is strict: a lead
byte is followed by exactly its continuation bytes, no sequence is longer
than needed and none spells a surrogate, so every accepted byte list is the
encoding of what it decodes to.
-/

namespace Telemetry.Utf8

def encode (cs : List Char) : List UInt8 :=
  cs.flatMap String.utf8EncodeChar

/-- A lead byte: how many continuation bytes follow it, the bits it carries
itself, and the least code point that needs a sequence of this length. -/
def lead (a : UInt8) : Option (Nat × Nat × Nat) :=
  let n := a.toNat
  if n < 0x80 then some (0, n, 0)
  else if n < 0xc0 then none
  else if n < 0xe0 then some (1, n - 0xc0, 0x80)
  else if n < 0xf0 then some (2, n - 0xe0, 0x800)
  else if n < 0xf8 then some (3, n - 0xf0, 0x10000)
  else none

def tail (a : UInt8) : Option Nat :=
  if 0x80 ≤ a.toNat ∧ a.toNat < 0xc0 then some (a.toNat - 0x80) else none

/-- The code point with `bits` above the bits of the next `k` bytes. -/
def collect : Nat → Nat → List UInt8 → Option (Nat × List UInt8)
  | 0, bits, rest => some (bits, rest)
  | _ + 1, _, [] => none
  | k + 1, bits, a :: rest =>
    match tail a with
    | some low => collect k (bits * 64 + low) rest
    | none => none

def next? : List UInt8 → Option (Char × List UInt8)
  | [] => none
  | a :: rest =>
    match lead a with
    | none => none
    | some (k, bits, least) =>
      match collect k bits rest with
      | none => none
      | some (n, rest) =>
        if least ≤ n ∧ n.isValidChar then some (Char.ofNat n, rest) else none

theorem collect_length (h : collect k bits bs = some (n, rest)) : rest.length ≤ bs.length := by
  induction k generalizing bits bs with
  | zero => simp only [collect, Option.some.injEq, Prod.mk.injEq] at h; simp [h.2]
  | succ k ih =>
    cases bs with
    | nil => simp [collect] at h
    | cons a bs =>
      simp only [collect] at h
      split at h
      · exact Nat.le_succ_of_le (ih h)
      · simp at h

theorem next?_length (h : next? bs = some (c, rest)) : rest.length < bs.length := by
  cases bs with
  | nil => simp [next?] at h
  | cons a bs =>
    simp only [next?] at h
    split at h
    · simp at h
    · split at h
      · simp at h
      · rename_i hc
        split at h
        · simp only [Option.some.injEq, Prod.mk.injEq] at h
          exact Nat.lt_succ_of_le (h.2 ▸ collect_length hc)
        · simp at h

/-- The characters of `bs` after those `read` already, the last of them first. -/
def decodeOnto (read : List Char) (bs : List UInt8) : Option (List Char) :=
  match _h : next? bs with
  | some (c, rest) => decodeOnto (c :: read) rest
  | none => if bs.isEmpty then some read.reverse else none
termination_by bs.length
decreasing_by exact next?_length _h

def decode? (bs : List UInt8) : Option (List Char) :=
  decodeOnto [] bs

/-- `count` and the number of bytes in the longest well-formed start of `bs`. -/
def validFrom (count : Nat) (bs : List UInt8) : Nat :=
  match _h : next? bs with
  | some (c, rest) => validFrom (count + c.utf8Size) rest
  | none => count
termination_by bs.length
decreasing_by exact next?_length _h

/-- The number of bytes in the longest well-formed start of `bs`. -/
def validLength (bs : List UInt8) : Nat :=
  validFrom 0 bs

def ofString (s : String) : List UInt8 :=
  s.toByteArray.data.toList

def toString? (bs : List UInt8) : Option String :=
  (decode? bs).map String.ofList

theorem ofString_eq_encode (s : String) : ofString s = encode s.toList := by
  obtain ⟨cs, rfl⟩ := s.exists_eq_ofList
  simp [ofString, encode, List.utf8Encode]

end Telemetry.Utf8
