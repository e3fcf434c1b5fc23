import Telemetry.Json.Reader

/-!
# Passing over JSON

A value that nobody asked for is passed over: the form of its brackets,
words, numbers and strings is checked, but nothing is made of them. So inside
it a number may be of any size, a surrogate may stand alone, bytes need not be
UTF-8 and nesting has no limit. A number must be complete where the text
ends; everything else may break off there.
-/

namespace Telemetry.Json

inductive Bracket where
  | array
  | object
  deriving DecidableEq, Repr

inductive EscapePart where
  | none
  | opened
  /-- Hexadecimal digits so far, last first. -/
  | hex (digits : List UInt8)
  deriving DecidableEq, Repr

inductive SkimMode where
  | value
  | word (rest : List UInt8)
  | number (part : NumberPart)
  | string (isKey : Bool) (escape : EscapePart)
  | opened (bracket : Bracket)
  | comma (bracket : Bracket)
  | colon
  /-- A whole value, inside the brackets that are still open. -/
  | complete
  deriving DecidableEq, Repr

structure Skim where
  stack : List Bracket := []
  mode : SkimMode := .value
  deriving DecidableEq, Repr

namespace Skim

def continued? (part : NumberPart) (b : UInt8) : Option NumberPart :=
  if isDigit b then if part = .zero then none else some (part.afterDigit (digitValue b))
  else if b == 0x2e && (part = .zero || part = .whole) then some .point
  else if (b == 0x65 || b == 0x45) && (part = .zero || part = .whole || part = .fraction) then
    some .mark
  else if (b == 0x2b || b == 0x2d) && part = .mark then some .markSign
  else none

def start? (stack : List Bracket) (b : UInt8) : Option Skim :=
  if b == 0x6e then some ⟨stack, .word [0x75, 0x6c, 0x6c]⟩
  else if b == 0x74 then some ⟨stack, .word [0x72, 0x75, 0x65]⟩
  else if b == 0x66 then some ⟨stack, .word [0x61, 0x6c, 0x73, 0x65]⟩
  else if b == 0x2d then some ⟨stack, .number .sign⟩
  else if b == 0x30 then some ⟨stack, .number .zero⟩
  else if isDigit b then some ⟨stack, .number .whole⟩
  else if b == 0x22 then some ⟨stack, .string false .none⟩
  else if b == 0x5b then some ⟨.array :: stack, .opened .array⟩
  else if b == 0x7b then some ⟨.object :: stack, .opened .object⟩
  else none

/-- The first byte of an item or of a key. -/
def entry? (stack : List Bracket) (bracket : Bracket) (b : UInt8) : Option Skim :=
  match bracket with
  | .array => start? stack b
  | .object => if b == 0x22 then some ⟨stack, .string true .none⟩ else none

def stringStep? (stack : List Bracket) (isKey : Bool) (escape : EscapePart) (b : UInt8) :
    Option Skim :=
  match escape with
  | .none =>
    if b == 0x22 then some ⟨stack, if isKey then .colon else .complete⟩
    else if b == 0x5c then some ⟨stack, .string isKey .opened⟩
    else if b < 0x20 then none
    else some ⟨stack, .string isKey .none⟩
  | .opened =>
    if b == 0x75 then some ⟨stack, .string isKey (.hex [])⟩
    else if (shortEscape? b).isSome then some ⟨stack, .string isKey .none⟩
    else none
  | .hex digits =>
    if digits.length < 3 then some ⟨stack, .string isKey (.hex (b :: digits))⟩
    else if (hexNumber? (b :: digits)).isSome then some ⟨stack, .string isKey .none⟩
    else none

def Bracket.closing : Bracket → UInt8
  | .array => 0x5d
  | .object => 0x7d

def afterValue? (stack : List Bracket) (b : UInt8) : Option Skim :=
  match stack with
  | [] => none
  | bracket :: rest =>
    if isSpace b then some ⟨stack, .complete⟩
    else if b == 0x2c then some ⟨stack, .comma bracket⟩
    else if b == Bracket.closing bracket then some ⟨rest, .complete⟩
    else none

/-- The state with its number ended, if this byte does not continue it. -/
def settle (s : Skim) (b : UInt8) : Skim :=
  match s.mode with
  | .number part =>
    if part.final && (continued? part b).isNone then { s with mode := .complete } else s
  | _ => s

/-- The state after one more byte of a value that goes on. -/
def step? (s : Skim) (b : UInt8) : Option Skim :=
  match s.mode with
  | .word rest =>
    match rest with
    | [] => none
    | next :: rest =>
      if b ≠ next then none
      else some { s with mode := if rest.isEmpty then .complete else .word rest }
  | .number part => (continued? part b).map fun part => { s with mode := .number part }
  | .string isKey escape => stringStep? s.stack isKey escape b
  | .value => if isSpace b then some s else start? s.stack b
  | .opened bracket =>
    if isSpace b then some s
    else if b == Bracket.closing bracket then some ⟨s.stack.tail, .complete⟩
    else entry? s.stack bracket b
  | .comma bracket => if isSpace b then some s else entry? s.stack bracket b
  | .colon =>
    if isSpace b then some s
    else if b == 0x3a then some { s with mode := .value }
    else none
  | .complete => afterValue? s.stack b

def isOver (s : Skim) : Bool :=
  s.stack.isEmpty && s.mode = .complete

end Skim

inductive ScanError where
  /-- The text ends too early. -/
  | ended
  /-- The text is not JSON. -/
  | malformed
  /-- The text holds something else. -/
  | mismatched
  deriving DecidableEq, Repr

namespace Skim

def finish (s : Skim) : Except ScanError (List UInt8) :=
  match s.mode with
  | .number part =>
    if !part.final then .error .malformed
    else if s.stack.isEmpty then .ok []
    else .error .ended
  | _ => if s.isOver then .ok [] else .error .ended

def run (s : Skim) : List UInt8 → Except ScanError (List UInt8)
  | [] => s.finish
  | b :: rest =>
    let s := s.settle b
    if s.isOver then .ok (b :: rest)
    else match s.step? b with
      | some next => next.run rest
      | none => .error .malformed

end Skim

/-- The bytes after the value at the front of a text, spaces before it
allowed. -/
def skim (bytes : List UInt8) : Except ScanError (List UInt8) :=
  Skim.run {} bytes

end Telemetry.Json
