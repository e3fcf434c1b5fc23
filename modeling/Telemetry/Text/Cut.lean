/-!
# Cutting text at byte positions

A position counts the bytes of the UTF-8 form. Text can be cut at a position
between two characters or at an end, but not inside a character.
-/

namespace Telemetry.Text

/-- The number of bytes of the UTF-8 form. -/
def byteLength (cs : List Char) : Nat :=
  cs.foldr (fun c n => c.utf8Size + n) 0

def fromByte? : Nat → List Char → Option (List Char)
  | 0, cs => some cs
  | _ + 1, [] => none
  | n + 1, c :: cs => if c.utf8Size ≤ n + 1 then fromByte? (n + 1 - c.utf8Size) cs else none

def toByte? : Nat → List Char → Option (List Char)
  | 0, _ => some []
  | _ + 1, [] => none
  | n + 1, c :: cs =>
    if c.utf8Size ≤ n + 1 then (toByte? (n + 1 - c.utf8Size) cs).map (c :: ·) else none

def between? (cs : List Char) (start stop : Nat) : Option (List Char) := do
  toByte? (stop - start) (← fromByte? start cs)

theorem byteLength_cons (c : Char) (cs : List Char) :
    byteLength (c :: cs) = c.utf8Size + byteLength cs :=
  rfl

theorem fromByte?_append (before after : List Char) :
    fromByte? (byteLength before) (before ++ after) = some after := by
  induction before with
  | nil => simp [byteLength, fromByte?]
  | cons c cs ih =>
    have hc := c.utf8Size_pos
    obtain ⟨n, hn⟩ : ∃ n, byteLength (c :: cs) = n + 1 := ⟨byteLength (c :: cs) - 1, by
      rw [byteLength_cons]; omega⟩
    have hs : n + 1 - c.utf8Size = byteLength cs := by rw [← hn, byteLength_cons]; omega
    have hle : c.utf8Size ≤ n + 1 := by rw [← hn, byteLength_cons]; omega
    simp [hn, fromByte?, hle, hs, ih]

theorem toByte?_append (before after : List Char) :
    toByte? (byteLength before) (before ++ after) = some before := by
  induction before with
  | nil => simp [byteLength, toByte?]
  | cons c cs ih =>
    have hc := c.utf8Size_pos
    obtain ⟨n, hn⟩ : ∃ n, byteLength (c :: cs) = n + 1 := ⟨byteLength (c :: cs) - 1, by
      rw [byteLength_cons]; omega⟩
    have hs : n + 1 - c.utf8Size = byteLength cs := by rw [← hn, byteLength_cons]; omega
    have hle : c.utf8Size ≤ n + 1 := by rw [← hn, byteLength_cons]; omega
    simp [hn, toByte?, hle, hs, ih]

theorem between?_append (before part after : List Char) :
    between? (before ++ (part ++ after)) (byteLength before)
      (byteLength before + byteLength part) = some part := by
  simp [between?, fromByte?_append, toByte?_append]

end Telemetry.Text
