import Telemetry.Decimal.Layout
import Telemetry.Json.Value
import Telemetry.Text.Integer

/-!
# Writing JSON

Values in their compact form, without any space. In a string only the
quotation mark, the backslash and the control characters below U+0020 are
escaped.
-/

namespace Telemetry.Json

def Number.write : Number → String
  | .unsigned n => Text.ofUInt64 n
  | .negative n _ => Text.ofInt64 n
  | .float x => Decimal.json.write x

def hexDigit (n : Nat) : Char :=
  n.digitChar

def escapeChar (c : Char) : List Char :=
  if c = '"' then ['\\', '"']
  else if c = '\\' then ['\\', '\\']
  else if c = '\x08' then ['\\', 'b']
  else if c = '\x0c' then ['\\', 'f']
  else if c = '\n' then ['\\', 'n']
  else if c = '\r' then ['\\', 'r']
  else if c = '\t' then ['\\', 't']
  else if c.toNat < 0x20 then
    ['\\', 'u', '0', '0', hexDigit (c.toNat / 16), hexDigit (c.toNat % 16)]
  else [c]

def quote (s : String) : List Char :=
  '"' :: s.toList.flatMap escapeChar ++ ['"']

mutual
def Value.chars : Value → List Char
  | .null => "null".toList
  | .bool b => (if b then "true" else "false").toList
  | .number n => n.write.toList
  | .string s => quote s
  | .array items => '[' :: itemChars items ++ [']']
  | .object members => '\x7b' :: memberChars members ++ ['\x7d']
def itemChars : List Value → List Char
  | [] => []
  | [v] => v.chars
  | v :: rest => v.chars ++ ',' :: itemChars rest
def memberChars : List (String × Value) → List Char
  | [] => []
  | [(k, v)] => quote k ++ ':' :: v.chars
  | (k, v) :: rest => quote k ++ ':' :: v.chars ++ ',' :: memberChars rest
end

def Value.write (v : Value) : String :=
  String.ofList v.chars

end Telemetry.Json
