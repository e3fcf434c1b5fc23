/-!
# Why a text is not JSON

A text either ends too early or goes wrong at some byte. Lines count from
one; a column is a number of bytes since the last line feed.
-/

namespace Telemetry.Json

structure Position where
  line : Nat := 1
  column : Nat := 0
  deriving DecidableEq, Repr, Inhabited

def Position.advance (p : Position) (b : UInt8) : Position :=
  if b = 0x0a then ⟨p.line + 1, 0⟩ else ⟨p.line, p.column + 1⟩

inductive Flaw where
  | expectedWord
  | expectedValue
  | invalidNumber
  | numberOutOfRange
  | expectedArrayEnd
  | expectedObjectEnd
  | expectedColon
  | expectedKey
  | trailingComma
  | trailingCharacters
  | tooDeep
  | controlCharacter
  | invalidEscape
  | loneSurrogate
  | unfinishedPair
  | invalidUtf8
  deriving DecidableEq, Repr

def Flaw.message : Flaw → String
  | .expectedWord => "expected ident"
  | .expectedValue => "expected value"
  | .invalidNumber => "invalid number"
  | .numberOutOfRange => "number out of range"
  | .expectedArrayEnd => "expected `,` or `]`"
  | .expectedObjectEnd => "expected `,` or `\x7d`"
  | .expectedColon => "expected `:`"
  | .expectedKey => "key must be a string"
  | .trailingComma => "trailing comma"
  | .trailingCharacters => "trailing characters"
  | .tooDeep => "recursion limit exceeded"
  | .controlCharacter => "control character (\\u0000-\\u001F) found while parsing a string"
  | .invalidEscape => "invalid escape"
  | .loneSurrogate => "lone leading surrogate in hex escape"
  | .unfinishedPair => "unexpected end of hex escape"
  | .invalidUtf8 => "invalid unicode code point"

inductive ReadError where
  | ended (position : Position)
  | malformed (flaw : Flaw) (position : Position)
  deriving DecidableEq, Repr

end Telemetry.Json
