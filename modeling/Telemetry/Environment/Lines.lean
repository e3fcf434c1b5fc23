import Telemetry.Text.Blank
import Telemetry.Text.Utf8

/-!
# Lines of a variables file

A line of a variables file goes on over line feeds while a quotation mark is
open. A number sign after white space, outside quotation marks, starts a
comment. A file that is not UTF-8, or whose last line does not end, is read
as far as it is good.
-/

namespace Telemetry.Environment

/-- What the characters of a line so far have opened. -/
inductive LineState where
  | settled
  | blank
  | escaped
  | double
  | doubleEscaped
  | single
  | singleEscaped
  | comment
  deriving DecidableEq, Repr

def LineState.opened (c : Char) : LineState :=
  if c = '\\' then .escaped
  else if c = '"' then .double
  else if c = '\'' then .single
  else .settled

def LineState.next (state : LineState) (c : Char) : LineState :=
  match state with
  | .settled =>
    if Text.isBlank c ∧ c ≠ '\n' ∧ c ≠ '\r' then .blank else .opened c
  | .blank => if c = '#' then .comment else .opened c
  | .escaped => .settled
  | .double => if c = '\\' then .doubleEscaped else if c = '"' then .settled else .double
  | .doubleEscaped => .double
  | .single => if c = '\\' then .singleEscaped else if c = '\'' then .settled else .single
  | .singleEscaped => .single
  | .comment => .comment

/-- The state after some characters, and those in front of a comment. -/
def LineState.run (state : LineState) : List Char → LineState × List Char
  | [] => (state, [])
  | c :: rest =>
    if state.next c = .comment then (.comment, [])
    else
      let (last, kept) := (state.next c).run rest
      (last, c :: kept)

/-- The bytes cut after every line feed. `line` is the piece so far, last byte
first. -/
def cutLines (line : List UInt8) : List UInt8 → List (List UInt8)
  | [] => if line.isEmpty then [] else [line.reverse]
  | b :: rest =>
    if b = 0x0a then (b :: line).reverse :: cutLines [] rest else cutLines (b :: line) rest

def dropLineEnd (cs : List Char) : List Char :=
  match cs.reverse with
  | '\n' :: '\r' :: rest => rest.reverse
  | '\n' :: rest => rest.reverse
  | _ => cs

def isComment (cs : List Char) : Bool :=
  (cs.dropWhile Text.isBlank).head? == some '#'

/-- The lines that start with `text` read already, up to a bad one. A bad
line ends the list with nothing. -/
def linesFrom (text : List Char) (state : LineState) : List (List UInt8) → List (Option (List Char))
  | [] => if state = .settled then [] else [none]
  | bytes :: rest =>
    match Utf8.decode? bytes with
    | none => [none]
    | some cs =>
      if isComment (text ++ cs) then some [] :: linesFrom [] .settled rest
      else match state.run cs with
        | (.settled, _) => some (dropLineEnd (text ++ cs)) :: linesFrom [] .settled rest
        | (.comment, kept) => some (text ++ kept) :: linesFrom [] .settled rest
        | (open', _) => linesFrom (text ++ cs) open' rest

def dropMark : List UInt8 → List UInt8
  | 0xef :: 0xbb :: 0xbf :: rest => rest
  | bytes => bytes

/-- The lines of a file. -/
def lines (bytes : List UInt8) : List (Option (List Char)) :=
  linesFrom [] .settled (cutLines [] (dropMark bytes))

end Telemetry.Environment
