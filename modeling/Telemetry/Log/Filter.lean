import Telemetry.Log.Directive

/-!
# Log filters

A filter is a list of directives with commas between them. Of the directives
that concern a message the one that outranks the others counts, and of equal
ones the last.
-/

namespace Telemetry.Log

structure Filter where
  directives : List Directive
  deriving DecidableEq, Repr

namespace Filter

/-- The filter that a text spells. Malformed directives are left out, and a
filter without any lets errors through. There is no filter if a directive
cannot be cut into its parts. -/
def ofString? (s : String) : Option Filter :=
  let parts := ((s.toList.splitOn ',').filter (!·.isEmpty)).map String.ofList
  let read := parts.map Directive.ofString
  if read.any fun | .error fault => fault == .insideCharacter | .ok _ => false then none
  else match read.filterMap Except.toOption with
    | [] => some ⟨[{ level := .error }]⟩
    | directives => some ⟨directives⟩

def directiveFor? (filter : Filter) (message : Message) : Option Directive :=
  match filter.directives.filter (·.concerns message) with
  | [] => none
  | first :: rest => some (rest.foldl (fun a b => if a.outranks b then a else b) first)

def lets (filter : Filter) (message : Message) : Bool :=
  (filter.directiveFor? message).any (message.level.rank ≤ ·.level.rank)

end Filter

end Telemetry.Log
