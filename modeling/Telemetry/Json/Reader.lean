import Telemetry.Entries
import Telemetry.Json.Error
import Telemetry.Json.Literal
import Telemetry.Text.Utf8

/-!
# Reading JSON

A reader takes a text one byte at a time. Its state is the stack of open
containers that wait for a value and, on top of it, the mode: what was read
last and what may come next. A number is complete only at the byte after it,
so that byte is read twice: it ends the number, then counts for itself. A
text is good if the reader refuses none of its bytes and ends in a complete
value.
-/

namespace Telemetry.Json

/-- At most this many containers may be open at once. -/
def maxOpen : Nat := 127

/-- Where a text comes from. Bytes may hold anything, so the contents of
their strings are checked; the characters of a string are well formed. -/
inductive Origin where
  | bytes
  | text
  deriving DecidableEq, Repr

/-- An open container that waits for a value: the items before it, last
first, or the members before it and the key it belongs to. -/
inductive Frame where
  | array (items : List Value)
  | object (members : List (String × Value)) (key : String)

inductive NumberPart where
  | sign
  | zero
  | whole
  | point
  | fraction
  | mark
  | markSign
  | exponent
  deriving DecidableEq, Repr

def NumberPart.final : NumberPart → Bool
  | .zero | .whole | .fraction | .exponent => true
  | .sign | .point | .mark | .markSign => false

/-- How far an escape has been read. `pair` is the leading surrogate that
waits for its trailing one. -/
inductive Escape where
  | none
  | opened
  | hex (digits : List UInt8) (pair : Option Nat)
  | paired (lead : Nat)
  | pairedOpened (lead : Nat)
  deriving DecidableEq, Repr

inductive Role where
  | value
  | key (members : List (String × Value))

inductive Mode where
  | value
  /-- Inside one of the three words, before its letter `next`. -/
  | word (next : UInt8) (rest : List UInt8) (meant : Value)
  | number (part : NumberPart) (literal : Literal)
  /-- The content is held as bytes, last first. -/
  | string (role : Role) (content : List UInt8) (escape : Escape)
  | arrayStart
  | arrayNext (items : List Value)
  | arrayTail (items : List Value)
  | objectStart
  | objectNext (members : List (String × Value))
  | objectTail (members : List (String × Value))
  | colon (members : List (String × Value)) (key : String)
  | done (value : Value)

structure State where
  stack : List Frame := []
  mode : Mode := .value

/-- A byte that cannot be read: what is wrong, whether the error stands
before the byte, and how many bytes further back. -/
structure Refusal where
  flaw : Flaw
  before : Bool := false
  back : Nat := 0

abbrev Step := Except Refusal State

def refuse (flaw : Flaw) : Step :=
  .error { flaw }

def isSpace (b : UInt8) : Bool :=
  b == 0x20 || b == 0x09 || b == 0x0a || b == 0x0d

def isDigit (b : UInt8) : Bool :=
  0x30 ≤ b && b ≤ 0x39

def digitValue (b : UInt8) : Nat :=
  b.toNat - 0x30

def hexValue? (b : UInt8) : Option Nat :=
  if isDigit b then some (digitValue b)
  else if 0x61 ≤ b && b ≤ 0x66 then some (b.toNat - 0x61 + 10)
  else if 0x41 ≤ b && b ≤ 0x46 then some (b.toNat - 0x41 + 10)
  else none

/-- The number that hexadecimal digits spell, the last of them first. -/
def hexNumber? : List UInt8 → Option Nat
  | [] => some 0
  | b :: bs =>
    match hexNumber? bs, hexValue? b with
    | some n, some d => some (n * 16 + d)
    | _, _ => none

def shortEscape? (b : UInt8) : Option Char :=
  if b == 0x22 then some '"'
  else if b == 0x5c then some '\\'
  else if b == 0x2f then some '/'
  else if b == 0x62 then some '\x08'
  else if b == 0x66 then some '\x0c'
  else if b == 0x6e then some '\n'
  else if b == 0x72 then some '\r'
  else if b == 0x74 then some '\t'
  else none

/-- The state in which the innermost open container has got its value. -/
def complete (stack : List Frame) (v : Value) : State :=
  match stack with
  | [] => ⟨[], .done v⟩
  | .array items :: rest => ⟨rest, .arrayTail (v :: items)⟩
  | .object members key :: rest => ⟨rest, .objectTail (Entries.put members key v)⟩

def start (stack : List Frame) (b : UInt8) : Step :=
  if b == 0x6e then .ok ⟨stack, .word 0x75 [0x6c, 0x6c] .null⟩
  else if b == 0x74 then .ok ⟨stack, .word 0x72 [0x75, 0x65] (.bool true)⟩
  else if b == 0x66 then .ok ⟨stack, .word 0x61 [0x6c, 0x73, 0x65] (.bool false)⟩
  else if b == 0x2d then .ok ⟨stack, .number .sign { negative := true }⟩
  else if b == 0x30 then .ok ⟨stack, .number .zero { whole := [0] }⟩
  else if isDigit b then .ok ⟨stack, .number .whole { whole := [digitValue b] }⟩
  else if b == 0x22 then .ok ⟨stack, .string .value [] .none⟩
  else if b == 0x5b then
    if stack.length < maxOpen then .ok ⟨stack, .arrayStart⟩ else refuse .tooDeep
  else if b == 0x7b then
    if stack.length < maxOpen then .ok ⟨stack, .objectStart⟩ else refuse .tooDeep
  else refuse .expectedValue

def close (origin : Origin) (content : List UInt8) : Except Refusal String :=
  let bytes := content.reverse
  match Utf8.toString? bytes with
  | some s => .ok s
  | none =>
    match origin with
    | .bytes => .error { flaw := .invalidUtf8, back := bytes.length - Utf8.validLength bytes }
    | .text => .ok ""

def isLeading (n : Nat) : Bool :=
  0xd800 ≤ n && n < 0xdc00

def isTrailing (n : Nat) : Bool :=
  0xdc00 ≤ n && n < 0xe000

def extend (content : List UInt8) (c : Char) : List UInt8 :=
  (String.utf8EncodeChar c).reverse ++ content

def stringStep (origin : Origin) (stack : List Frame) (role : Role) (content : List UInt8)
    (escape : Escape) (b : UInt8) : Step :=
  let go (content : List UInt8) (escape : Escape) : Step :=
    .ok ⟨stack, .string role content escape⟩
  match escape with
  | .none =>
    if b == 0x22 then
      match close origin content, role with
      | .ok s, .value => .ok (complete stack (.string s))
      | .ok s, .key members => .ok ⟨stack, .colon members s⟩
      | .error refusal, _ => .error refusal
    else if b == 0x5c then go content .opened
    else if b < 0x20 then refuse .controlCharacter
    else go (b :: content) .none
  | .opened =>
    if b == 0x75 then go content (.hex [] none)
    else match shortEscape? b with
      | some c => go (extend content c) .none
      | none => refuse .invalidEscape
  | .hex digits pair =>
    if digits.length < 3 then go content (.hex (b :: digits) pair)
    else match hexNumber? (b :: digits), pair with
      | none, _ => refuse .invalidEscape
      | some n, none =>
        if isTrailing n then refuse .loneSurrogate
        else if isLeading n then go content (.paired n)
        else go (extend content (Char.ofNat n)) .none
      | some n, some lead =>
        if isTrailing n then
          go (extend content (Char.ofNat (0x10000 + (lead - 0xd800) * 0x400 + (n - 0xdc00)))) .none
        else refuse .loneSurrogate
  | .paired lead => if b == 0x5c then go content (.pairedOpened lead) else refuse .unfinishedPair
  | .pairedOpened lead => if b == 0x75 then go content (.hex [] (some lead)) else refuse .unfinishedPair

def Literal.digit (l : Literal) (part : NumberPart) (d : Nat) : Literal :=
  match part with
  | .point | .fraction => { l with fraction := some (d :: l.fraction.getD []) }
  | .mark | .markSign | .exponent =>
    let (negative, size) := l.exponent.getD (false, 0)
    { l with exponent := some (negative, raise size d) }
  | .sign | .zero | .whole => { l with whole := d :: l.whole }

def NumberPart.afterDigit (part : NumberPart) (d : Nat) : NumberPart :=
  match part with
  | .sign => if d = 0 then .zero else .whole
  | .zero | .whole => .whole
  | .point | .fraction => .fraction
  | .mark | .markSign | .exponent => .exponent

/-- A byte that continues a literal, or nothing if the literal ends before
it. A positive exponent that is too large is refused at once. -/
def numberStep (stack : List Frame) (part : NumberPart) (l : Literal) (b : UInt8) : Option Step :=
  let go (part : NumberPart) (l : Literal) : Option Step := some (.ok ⟨stack, .number part l⟩)
  if isDigit b then
    if part = .zero then some (refuse .invalidNumber)
    else
      let grown := l.digit part (digitValue b)
      if grown.exponent = some (false, exponentBound) ∧ l.exponent ≠ grown.exponent ∧
          grown.parts.1 ≠ 0 then some (refuse .numberOutOfRange)
      else go (part.afterDigit (digitValue b)) grown
  else if b == 0x2e && (part = .zero || part = .whole) then go .point { l with fraction := some [] }
  else if (b == 0x65 || b == 0x45) && (part = .zero || part = .whole || part = .fraction) then
    go .mark { l with exponent := some (false, 0) }
  else if (b == 0x2b || b == 0x2d) && part = .mark then
    go .markSign { l with exponent := some (b == 0x2d, 0) }
  else if part.final then none
  else some (refuse .invalidNumber)

def wordStep (stack : List Frame) (next : UInt8) (rest : List UInt8) (meant : Value)
    (b : UInt8) : Step :=
  if b ≠ next then refuse .expectedWord
  else match rest with
    | [] => .ok (complete stack meant)
    | next :: rest => .ok ⟨stack, .word next rest meant⟩

def arrayTailStep (stack : List Frame) (items : List Value) (b : UInt8) : Step :=
  if isSpace b then .ok ⟨stack, .arrayTail items⟩
  else if b == 0x2c then .ok ⟨stack, .arrayNext items⟩
  else if b == 0x5d then .ok (complete stack (.array items.reverse))
  else refuse .expectedArrayEnd

def objectTailStep (stack : List Frame) (members : List (String × Value)) (b : UInt8) : Step :=
  if isSpace b then .ok ⟨stack, .objectTail members⟩
  else if b == 0x2c then .ok ⟨stack, .objectNext members⟩
  else if b == 0x7d then .ok (complete stack (.object members))
  else refuse .expectedObjectEnd

def doneStep (v : Value) (b : UInt8) : Step :=
  if isSpace b then .ok ⟨[], .done v⟩ else refuse .trailingCharacters

/-- The byte after a value that has just got its last one. -/
def afterValue (stack : List Frame) (v : Value) (b : UInt8) : Step :=
  match stack with
  | [] => doneStep v b
  | .array items :: rest => arrayTailStep rest (v :: items) b
  | .object members key :: rest => objectTailStep rest (Entries.put members key v) b

def step (origin : Origin) (s : State) (b : UInt8) : Step :=
  let stack := s.stack
  match s.mode with
  | .word next rest meant => wordStep stack next rest meant b
  | .string role content escape => stringStep origin stack role content escape b
  | .number part l =>
    match numberStep stack part l b with
    | some next => next
    | none =>
      match l.number? with
      | some n => afterValue stack (.number n) b
      | none => .error { flaw := .numberOutOfRange, before := true }
  | .value => if isSpace b then .ok s else start stack b
  | .arrayStart =>
    if isSpace b then .ok s
    else if b == 0x5d then .ok (complete stack (.array []))
    else start (.array [] :: stack) b
  | .arrayNext items =>
    if isSpace b then .ok s
    else if b == 0x5d then refuse .trailingComma
    else start (.array items :: stack) b
  | .arrayTail items => arrayTailStep stack items b
  | .objectStart =>
    if isSpace b then .ok s
    else if b == 0x7d then .ok (complete stack (.object []))
    else if b == 0x22 then .ok ⟨stack, .string (.key []) [] .none⟩
    else refuse .expectedKey
  | .objectNext members =>
    if isSpace b then .ok s
    else if b == 0x7d then refuse .trailingComma
    else if b == 0x22 then .ok ⟨stack, .string (.key members) [] .none⟩
    else refuse .expectedKey
  | .objectTail members => objectTailStep stack members b
  | .colon members key =>
    if isSpace b then .ok s
    else if b == 0x3a then .ok ⟨.object members key :: stack, .value⟩
    else refuse .expectedColon
  | .done v => doneStep v b

def finish (position : Position) (s : State) : Except ReadError Value :=
  match s.mode with
  | .done v => .ok v
  | .number part l =>
    if part.final then
      match l.number? with
      | some n => if s.stack.isEmpty then .ok (.number n) else .error (.ended position)
      | none => .error (.malformed .numberOutOfRange position)
    else .error (.ended position)
  | _ => .error (.ended position)

def Refusal.error (refusal : Refusal) (position : Position) (b : UInt8) : ReadError :=
  let reached := if refusal.before then position else position.advance b
  .malformed refusal.flaw ⟨reached.line, reached.column - refusal.back⟩

/-- The value of a text that goes on with these bytes. -/
def run (origin : Origin) (position : Position) (s : State) : List UInt8 → Except ReadError Value
  | [] => finish position s
  | b :: rest =>
    match step origin s b with
    | .ok next => run origin (position.advance b) next rest
    | .error refusal => .error (refusal.error position b)

def parse (bytes : List UInt8) : Except ReadError Value :=
  run .bytes {} {} bytes

def parseText (s : String) : Except ReadError Value :=
  run .text {} {} (Utf8.ofString s)

end Telemetry.Json
