import Telemetry.Text.Alphanumeric
import Telemetry.Text.Blank

/-!
# Assignments

A line of a variables file sets a variable: a name, an equals sign and a
value, with the word `export` in front if one likes. A value is plain or
quoted, in pieces of either kind. A dollar sign puts the value of another
variable in, except between single quotation marks. After white space only a
comment may follow.
-/

namespace Telemetry.Environment

inductive Piece where
  | char (c : Char)
  | variable (name : String)
  deriving DecidableEq, Repr

structure Assignment where
  name : String
  value : List Piece
  deriving DecidableEq, Repr

/-- Where a value is being read. `quoted` says whether a double quotation
mark is open; names are held last character first. -/
inductive ValueState where
  | text (quoted : Bool)
  | single
  | escaped (quoted : Bool)
  | name (quoted : Bool) (cs : List Char)
  | braced (quoted : Bool) (cs : List Char)
  | ending
  deriving DecidableEq, Repr

/-- The variable whose name is held, last character first. -/
def Piece.ofName (cs : List Char) : Piece :=
  .variable (String.ofList cs.reverse)

def isEscapable (c : Char) : Bool :=
  c == '\\' || c == '\'' || c == '"' || c == '$' || c == ' '

/-- The pieces of a value that goes on with these characters. The character
that ends a name stands for itself, whatever it is. -/
def valueFrom (state : ValueState) : List Char → Option (List Piece)
  | [] =>
    match state with
    | .text false | .escaped false | .ending => some []
    | .name false cs => some [.ofName cs]
    | _ => none
  | c :: rest =>
    match state with
    | .ending =>
      if c = '#' then some []
      else if c = ' ' ∨ c = '\t' then valueFrom .ending rest
      else none
    | .escaped quoted =>
      if isEscapable c then (valueFrom (.text quoted) rest).map (.char c :: ·)
      else if c = 'n' then (valueFrom (.text quoted) rest).map (.char '\n' :: ·)
      else none
    | .single =>
      if c = '\'' then valueFrom (.text false) rest
      else (valueFrom .single rest).map (.char c :: ·)
    | .name quoted cs =>
      if Text.isAlphanumeric c then valueFrom (.name quoted (c :: cs)) rest
      else if c = '\x7b' ∧ cs = [] then valueFrom (.braced quoted []) rest
      else if c = '$' then (valueFrom (.name quoted []) rest).map (.ofName cs :: ·)
      else (valueFrom (.text quoted) rest).map fun pieces => .ofName cs :: .char c :: pieces
    | .braced quoted cs =>
      if c = '\x7d' then (valueFrom (.text quoted) rest).map (.ofName cs :: ·)
      else valueFrom (.braced quoted (c :: cs)) rest
    | .text quoted =>
      if c = '$' then valueFrom (.name quoted []) rest
      else if c = '\\' then valueFrom (.escaped quoted) rest
      else if c = '"' then valueFrom (.text (!quoted)) rest
      else if quoted then (valueFrom (.text true) rest).map (.char c :: ·)
      else if c = '\'' then valueFrom .single rest
      else if c = ' ' ∨ c = '\t' then valueFrom .ending rest
      else (valueFrom (.text false) rest).map (.char c :: ·)

def isNameStart (c : Char) : Bool :=
  c.isAlpha || c == '_'

def isNamePart (c : Char) : Bool :=
  c.isAlphanum || c == '_' || c == '.'

/-- A name and the characters after it and the white space behind it. -/
def name? : List Char → Option (List Char × List Char)
  | [] => none
  | c :: rest =>
    if isNameStart c then
      some ((c :: rest).takeWhile isNamePart,
        ((c :: rest).dropWhile isNamePart).dropWhile Text.isBlank)
    else none

def afterName (name : List Char) (cs : List Char) : Option Assignment :=
  match cs with
  | '=' :: rest =>
    let rest := rest.dropWhile Text.isBlank
    if rest.isEmpty || rest.head? == some '#' then some ⟨String.ofList name, []⟩
    else (valueFrom (.text false) rest).map fun value => ⟨String.ofList name, value⟩
  | _ => none

/-- The assignment of a line, if it is one; a blank line holds nothing. -/
def assignment (line : List Char) : Option (Option Assignment) :=
  let cs := Text.strip line
  if cs.isEmpty || cs.head? == some '#' then some none
  else match name? cs with
    | none => none
    | some (word, rest) =>
      if String.ofList word = "export" ∧ rest.head? ≠ some '=' then
        match name? rest with
        | none => none
        | some (name, rest) => (afterName name rest).map some
      else (afterName word rest).map some

end Telemetry.Environment
