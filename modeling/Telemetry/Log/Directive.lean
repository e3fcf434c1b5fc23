import Telemetry.Log.Level
import Telemetry.Text.Alphanumeric
import Telemetry.Text.Blank
import Telemetry.Text.Cut

/-!
# Log directives

A directive is a level alone or a target alone, or it has the form
`target[span{field}]=level`. In that form everything may be absent, the
brackets and the level each with their marks, but not all at once.

White space around a directive is not neutral. The marks are looked for
without it, and their positions count from the first character after it. What
stands between two marks is then cut out of the whole text at these positions,
so white space in front shifts every part, and white space at the end belongs
to the last word.
-/

namespace Telemetry.Log

/-- A message as far as directives can tell messages apart. -/
structure Message where
  channel : String
  fields : List String
  level : Level
  deriving DecidableEq, Repr

/-- A level for what is logged on the channels whose name starts with the
target, which is empty for all channels. -/
structure Directive where
  target : String := ""
  span : Option String := none
  field : Option String := none
  level : Level
  deriving DecidableEq, Repr

inductive Fault where
  | malformed
  /-- A part would start or stop inside a character. -/
  | insideCharacter
  deriving DecidableEq, Repr

structure Cursor where
  whole : List Char
  position : Nat
  rest : List Char

/-- The part up to the next mark, the mark, and the place after it. -/
def Cursor.part (cursor : Cursor) (isMark : Char → Bool) :
    Except Fault (String × Char × Cursor) :=
  let stop := cursor.position + Text.byteLength (cursor.rest.takeWhile (!isMark ·))
  match cursor.rest.dropWhile (!isMark ·) with
  | [] => .error .malformed
  | mark :: rest =>
    match Text.between? cursor.whole cursor.position stop with
    | some part =>
      .ok (String.ofList part, mark, { cursor with position := stop + mark.utf8Size, rest })
    | none => .error .insideCharacter

/-- The level after an equals sign; without one everything is logged. -/
def Cursor.level (cursor : Cursor) : Except Fault Level :=
  match Text.fromByte? cursor.position cursor.whole with
  | none => .error .insideCharacter
  | some [] => .ok .trace
  | some (c :: cs) =>
    match Level.ofString? (String.ofList (c :: cs)) with
    | some level => .ok level
    | none => .error .malformed

def Cursor.ending (cursor : Cursor) : Except Fault Level :=
  match cursor.rest with
  | [] => .ok .trace
  | '=' :: rest => { cursor with position := cursor.position + 1, rest }.level
  | _ => .error .malformed

def isTargetStart (c : Char) : Bool :=
  Text.isAlphanumeric c || c == '-' || c == ':' || c == '_'

namespace Directive

/-- A word alone is a level, or else a target of which everything is logged. -/
def ofWord (word : String) : Directive :=
  match Level.ofString? word with
  | some level => { level }
  | none => { target := word, level := .trace }

def ofBrackets (target : String) (cursor : Cursor) : Except Fault Directive := do
  let (span, mark, cursor) ← cursor.part fun c => c == ']' || c == '{'
  if mark == ']' then return { target, span := some span, level := ← cursor.ending }
  let (field, _, cursor) ← cursor.part (· == '}')
  let span := if span.isEmpty then none else some span
  match cursor.rest with
  | ']' :: rest =>
    if field.isEmpty then throw .malformed
    let cursor := { cursor with position := cursor.position + 1, rest }
    return { target, span, field := some field, level := ← cursor.ending }
  | _ => throw .malformed

def ofString (s : String) : Except Fault Directive := do
  let marked := Text.strip s.toList
  let isMark (c : Char) : Bool := c == '=' || c == '['
  if !marked.head?.any (fun c => c == '[' || isTargetStart c) then throw .malformed
  if !marked.any isMark then return ofWord s
  let (target, mark, cursor) ← Cursor.part ⟨s.toList, 0, marked⟩ isMark
  if mark == '=' then return { target, level := ← cursor.level }
  ofBrackets target cursor

/-- Whether a directive is about a message. One with a span is about what
happens in the span; one with a field is about messages with a field of that
name. -/
def concerns (directive : Directive) (message : Message) : Bool :=
  directive.span.isNone && directive.field.all (message.fields.contains ·) &&
    directive.target.toList.isPrefixOf message.channel.toList

/-- Whether a directive goes before another one that concerns the same
message: the longer target does, then the one with a field, then the later
name of the field. -/
def outranks (a b : Directive) : Bool :=
  b.target.length < a.target.length || a.target.length == b.target.length &&
    match a.field, b.field with
    | some name, some other => other < name
    | some _, none => true
    | none, _ => false

end Directive

end Telemetry.Log
