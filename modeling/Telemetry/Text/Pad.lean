/-!
# Columns

Text brought to a width: cut to at most so many characters, then filled up
on the side away from the text. In the middle, the odd fill goes right.
-/

namespace Telemetry.Text

inductive Align where
  | left
  | right
  | center
  deriving DecidableEq, Repr

/-- How many of `room` fill characters go to the left of the text. -/
def Align.before (align : Align) (room : Nat) : Nat :=
  match align with
  | .left => 0
  | .right => room
  | .center => room / 2

structure Column where
  align : Align := .left
  width : Nat := 0
  fill : Char := ' '
  /-- The most characters of the text that are kept. -/
  most : Option Nat := none

def Column.write (column : Column) (s : String) : String :=
  let cs := match column.most with
    | some n => s.toList.take n
    | none => s.toList
  let room := column.width - cs.length
  let before := column.align.before room
  String.ofList (List.replicate before column.fill ++ cs ++
    List.replicate (room - before) column.fill)

end Telemetry.Text
