import Telemetry.Json.Skim

/-!
# Reading what is wanted

Settings are taken from a JSON text as it is read, without a value of the
whole text in between. So of several faults the first in the text is the one
that counts, and a member that is not wanted is only passed over. A value in
the wrong place is found out where it starts if it is a container, and after
its last byte otherwise.
-/

namespace Telemetry.Json

/-- Reads from the front of a text, leaving the rest. -/
abbrev Scan := StateT (List UInt8) (Except ScanError)

def ReadError.scanError : ReadError → ScanError
  | .ended _ => .ended
  | .malformed _ _ => .malformed

def front (s : State) : List UInt8 → Except ScanError (Value × List UInt8)
  | [] => ((finish {} s).map fun v => (v, [])).mapError ReadError.scanError
  | b :: rest =>
    match s.stack, s.mode with
    | [], .done v => .ok (v, b :: rest)
    | [], .number part l =>
      match numberStep [] part l b with
      | some (.ok next) => front next rest
      | some (.error _) => .error .malformed
      | none =>
        match l.number? with
        | some n => .ok (.number n, b :: rest)
        | none => .error .malformed
    | _, _ =>
      match step .bytes s b with
      | .ok next => front next rest
      | .error _ => .error .malformed

namespace Scan

/-- The next byte that is not a space, left in place. -/
def peek? : Scan (Option UInt8) := do
  let bytes := (← get).dropWhile isSpace
  set bytes
  return bytes.head?

def peek : Scan UInt8 := do
  match ← peek? with
  | some b => return b
  | none => throw .ended

def drop : Scan Unit :=
  modify List.tail

def expect (wanted : UInt8) : Scan Unit := do
  if (← peek) = wanted then drop else throw .malformed

/-- A value of any kind, read in full. -/
def value : Scan Value := do
  match front {} (← get) with
  | .ok (v, rest) =>
    set rest
    return v
  | .error e => throw e

def pass : Scan Unit := do
  match skim (← get) with
  | .ok rest => set rest
  | .error e => throw e

def isOpening (b : UInt8) : Bool :=
  b == 0x5b || b == 0x7b

def scalar (accept : Value → Option α) : Scan α := do
  if isOpening (← peek) then throw .mismatched
  match accept (← value) with
  | some a => return a
  | none => throw .mismatched

def key : Scan String := do
  if (← peek) ≠ 0x22 then throw .malformed
  match ← value with
  | .string s => return s
  | _ => throw .malformed

/-- The members of an object that is open, up to its closing bracket, which
stays. `member` gets a key and goes on at the colon. Every member takes a
byte at least, so `fuel` is the length of the text. -/
def membersFrom (member : ρ → String → Scan ρ) : Nat → Bool → ρ → Scan ρ
  | 0, _, _ => throw .ended
  | fuel + 1, isFirst, record => do
    let b ← peek
    if b = 0x7d then return record
    if !isFirst then
      if b ≠ 0x2c then throw .malformed
      drop
    membersFrom member fuel false (← member record (← key))

def members (member : ρ → String → Scan ρ) (record : ρ) : Scan ρ := do
  expect 0x7b
  let record ← membersFrom member ((← get).length + 1) true record
  expect 0x7d
  return record

def item (isFirst : Bool) (read : Scan α) : Scan (Option α) := do
  let b ← peek
  if b = 0x5d then return none
  if !isFirst then
    if b ≠ 0x2c then throw .malformed
    drop
    if (← peek) = 0x5d then throw .malformed
  return some (← read)

def run (scan : Scan α) (bytes : List UInt8) : Except ScanError α := do
  let (a, rest) ← StateT.run scan bytes
  if rest.all isSpace then return a else throw .malformed

end Scan

end Telemetry.Json
