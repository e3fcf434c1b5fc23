import Mathlib
import Telemetry.Json.Reader

/-!
# Spellings of JSON values

The grammar of JSON as a tree: a `Spelling` records how a value is written,
down to the white space between its tokens, the digits of its numbers and
the escapes in its strings. `Spelling.bytes` writes it out, and
`Spelling.value?` is the value that it denotes, worked out from the tree
alone. A spelling denotes nothing if a string in it has a surrogate without
its other half, a number in it overflows, or it has containers in each other
for which there is no room.
-/

namespace Telemetry.Json

-- ---------------------------------------------------------------------------
-- Tokens
-- ---------------------------------------------------------------------------

inductive Blank where
  | space
  | tab
  | newline
  | return
  deriving DecidableEq, Repr

def Blank.byte : Blank → UInt8
  | .space => 0x20
  | .tab => 0x09
  | .newline => 0x0a
  | .return => 0x0d

abbrev Gap := List Blank

def Gap.bytes (gap : Gap) : List UInt8 :=
  gap.map Blank.byte

abbrev Digit := Fin 10

-- One proof for all literals that are digits, and one for hexadecimal ones.
instance neZero_ten : NeZero 10 := ⟨by decide⟩

instance neZero_sixteen : NeZero 16 := ⟨by decide⟩

def Digit.byte (d : Digit) : UInt8 :=
  UInt8.ofNat (0x30 + d.val)

structure Digits where
  first : Digit
  rest : List Digit := []
  deriving DecidableEq, Repr

def Digits.list (ds : Digits) : List Digit :=
  ds.first :: ds.rest

def digitBytes (ds : List Digit) : List UInt8 :=
  ds.map Digit.byte

def digitValues (ds : List Digit) : List Nat :=
  ds.map fun d => d.val

/-- The digits before the point; only a zero alone starts with a zero. -/
inductive Whole where
  | zero
  | digits (first : Digit) (nonzero : first ≠ 0) (rest : List Digit)
  deriving DecidableEq, Repr

def Whole.list : Whole → List Digit
  | .zero => [0]
  | .digits first _ rest => first :: rest

structure Exponent where
  capital : Bool := false
  /-- The sign that is written, if one is: whether it is a minus. -/
  sign : Option Bool := none
  digits : Digits
  deriving DecidableEq, Repr

def Exponent.bytes (e : Exponent) : List UInt8 :=
  (if e.capital then 0x45 else 0x65) ::
    ((match e.sign with
      | none => []
      | some negative => [if negative then 0x2d else 0x2b]) ++ digitBytes e.digits.list)

def Exponent.meaning (e : Exponent) : Bool × Nat :=
  (e.sign.getD false, (digitValues e.digits.list).foldl raise 0)

structure Numeral where
  negative : Bool := false
  whole : Whole
  fraction : Option Digits := none
  exponent : Option Exponent := none
  deriving DecidableEq, Repr

def fractionBytes : Option Digits → List UInt8
  | none => []
  | some ds => 0x2e :: digitBytes ds.list

def exponentBytes : Option Exponent → List UInt8
  | none => []
  | some e => e.bytes

def Numeral.bytes (n : Numeral) : List UInt8 :=
  (if n.negative then [0x2d] else []) ++ digitBytes n.whole.list ++ fractionBytes n.fraction ++
    exponentBytes n.exponent

def Numeral.literal (n : Numeral) : Literal where
  negative := n.negative
  whole := (digitValues n.whole.list).reverse
  fraction := n.fraction.map fun ds => (digitValues ds.list).reverse
  exponent := n.exponent.map Exponent.meaning

-- ---------------------------------------------------------------------------
-- Strings
-- ---------------------------------------------------------------------------

structure HexDigit where
  value : Fin 16
  capital : Bool := false
  deriving DecidableEq, Repr

def HexDigit.byte (d : HexDigit) : UInt8 :=
  if d.value < 10 then UInt8.ofNat (0x30 + d.value.val)
  else UInt8.ofNat ((if d.capital then 0x41 else 0x61) + (d.value.val - 10))

structure CodeUnit where
  first : HexDigit
  second : HexDigit
  third : HexDigit
  fourth : HexDigit
  deriving DecidableEq, Repr

def CodeUnit.bytes (u : CodeUnit) : List UInt8 :=
  [u.first.byte, u.second.byte, u.third.byte, u.fourth.byte]

def CodeUnit.value (u : CodeUnit) : Nat :=
  ((u.first.value.val * 16 + u.second.value.val) * 16 + u.third.value.val) * 16 + u.fourth.value.val

def pairChar (lead trail : Nat) : Char :=
  Char.ofNat (0x10000 + (lead - 0xd800) * 0x400 + (trail - 0xdc00))

inductive ShortEscape where
  | quote
  | backslash
  | slash
  | backspace
  | formFeed
  | newline
  | return
  | tab
  deriving DecidableEq, Repr

def ShortEscape.letter : ShortEscape → UInt8
  | .quote => 0x22
  | .backslash => 0x5c
  | .slash => 0x2f
  | .backspace => 0x62
  | .formFeed => 0x66
  | .newline => 0x6e
  | .return => 0x72
  | .tab => 0x74

def ShortEscape.char : ShortEscape → Char
  | .quote => '"'
  | .backslash => '\\'
  | .slash => '/'
  | .backspace => '\x08'
  | .formFeed => '\x0c'
  | .newline => '\n'
  | .return => '\r'
  | .tab => '\t'

def isPlain (c : Char) : Prop :=
  0x20 ≤ c.toNat ∧ c ≠ '"' ∧ c ≠ '\\'

inductive Piece where
  | plain (c : Char) (h : isPlain c)
  | short (e : ShortEscape)
  | unit (u : CodeUnit)

def Piece.bytes : Piece → List UInt8
  | .plain c _ => String.utf8EncodeChar c
  | .short e => [0x5c, e.letter]
  | .unit u => 0x5c :: 0x75 :: u.bytes

def pieceBytes (pieces : List Piece) : List UInt8 :=
  pieces.flatMap Piece.bytes

/-- The characters of a string. A leading surrogate has to be followed by a
trailing one, and there is no other place for a trailing one. -/
def characters? : List Piece → Option (List Char)
  | [] => some []
  | .plain c _ :: rest => (characters? rest).map (c :: ·)
  | .short e :: rest => (characters? rest).map (e.char :: ·)
  | .unit u :: rest =>
    if isTrailing u.value then none
    else if isLeading u.value then
      match rest with
      | .unit v :: rest =>
        if isTrailing v.value then (characters? rest).map (pairChar u.value v.value :: ·) else none
      | _ => none
    else (characters? rest).map (Char.ofNat u.value :: ·)

section
variable {u : CodeUnit} {pieces : List Piece}

theorem characters?_trail (h : isTrailing u.value = true) :
    characters? (.unit u :: pieces) = none := by
  unfold characters?
  rw [if_pos h]

theorem characters?_unit (ht : ¬ isTrailing u.value = true) (hl : ¬ isLeading u.value = true) :
    characters? (.unit u :: pieces) = (characters? pieces).map (Char.ofNat u.value :: ·) := by
  conv => lhs; unfold characters?
  rw [if_neg ht, if_neg hl]

theorem characters?_pair (ht : ¬ isTrailing u.value = true) (hl : isLeading u.value = true)
    (v : CodeUnit) :
    characters? (.unit u :: .unit v :: pieces) =
      if isTrailing v.value then (characters? pieces).map (pairChar u.value v.value :: ·)
      else none := by
  conv => lhs; unfold characters?
  rw [if_neg ht, if_pos hl]

theorem characters?_lone (ht : ¬ isTrailing u.value = true) (hl : isLeading u.value = true)
    (h : ∀ v later, pieces ≠ .unit v :: later) : characters? (.unit u :: pieces) = none := by
  unfold characters?
  rw [if_neg ht, if_pos hl]
  rcases pieces with _ | ⟨piece, later⟩
  · rfl
  · cases piece with
    | unit v => exact absurd rfl (h v later)
    | _ => rfl

end

def stringBytes (pieces : List Piece) : List UInt8 :=
  0x22 :: (pieceBytes pieces ++ [0x22])

def string? (pieces : List Piece) : Option String :=
  (characters? pieces).map String.ofList

-- ---------------------------------------------------------------------------
-- Values
-- ---------------------------------------------------------------------------

mutual
inductive Spelling where
  | null
  | bool (b : Bool)
  | number (n : Numeral)
  | string (pieces : List Piece)
  /-- The white space after the bracket stands alone in an empty array. -/
  | array (gap : Gap) (items : List Item)
  | object (gap : Gap) (members : List Member)
inductive Item where
  | mk (before : Gap) (value : Spelling) (after : Gap)
inductive Member where
  | mk (before : Gap) (key : List Piece) (beforeColon afterColon : Gap) (value : Spelling)
      (after : Gap)
end

mutual
def Spelling.bytes : Spelling → List UInt8
  | .null => [0x6e, 0x75, 0x6c, 0x6c]
  | .bool true => [0x74, 0x72, 0x75, 0x65]
  | .bool false => [0x66, 0x61, 0x6c, 0x73, 0x65]
  | .number n => n.bytes
  | .string pieces => stringBytes pieces
  | .array gap items => 0x5b :: (gap.bytes ++ (itemBytes [] items ++ [0x5d]))
  | .object gap members => 0x7b :: (gap.bytes ++ (memberBytes [] members ++ [0x7d]))
def itemBytes (separator : List UInt8) : List Item → List UInt8
  | [] => []
  | .mk before v after :: rest =>
    separator ++ (before.bytes ++ (v.bytes ++ (after.bytes ++ itemBytes [0x2c] rest)))
def memberBytes (separator : List UInt8) : List Member → List UInt8
  | [] => []
  | .mk before key beforeColon afterColon v after :: rest =>
    separator ++ (before.bytes ++ (stringBytes key ++ (beforeColon.bytes ++
      (0x3a :: (afterColon.bytes ++ (v.bytes ++ (after.bytes ++ memberBytes [0x2c] rest)))))))
end

mutual
/-- The value denoted, if the containers in it fit into each other `room` deep. -/
def Spelling.value? (room : Nat) : Spelling → Option Value
  | .null => some .null
  | .bool b => some (.bool b)
  | .number n => n.literal.number?.map .number
  | .string pieces => (string? pieces).map .string
  | .array _ items =>
    match room with
    | 0 => none
    | room + 1 => (items? room items).map .array
  | .object _ members =>
    match room with
    | 0 => none
    | room + 1 => (members? room members).map fun pairs => .object (Entries.ofList pairs)
def items? (room : Nat) : List Item → Option (List Value)
  | [] => some []
  | .mk _ v _ :: rest => (v.value? room).bind fun x => (items? room rest).map (x :: ·)
def members? (room : Nat) : List Member → Option (List (String × Value))
  | [] => some []
  | .mk _ key _ _ v _ :: rest =>
    (string? key).bind fun k => (v.value? room).bind fun x => (members? room rest).map ((k, x) :: ·)
end

structure Document where
  before : Gap := []
  value : Spelling
  after : Gap := []

def Document.bytes (d : Document) : List UInt8 :=
  d.before.bytes ++ (d.value.bytes ++ d.after.bytes)

def Document.value? (d : Document) : Option Value :=
  d.value.value? maxOpen

end Telemetry.Json
