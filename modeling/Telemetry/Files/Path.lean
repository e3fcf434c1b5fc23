import Telemetry.Text.Blank

/-!
# Paths

A path as a person types it may start at the home folder, written `~`, or at
the working folder. Expanding it never looks at the disk: dots, doubled
slashes and links stay as they are.
-/

namespace Telemetry.Files

def isAbsolute (path : String) : Bool :=
  path.toList.head? == some '/'

/-- The path `rest` taken from a folder; an absolute path forgets the folder. -/
def join (folder rest : String) : String :=
  if isAbsolute rest then rest
  else if folder.isEmpty || folder.toList.getLast? == some '/' then folder ++ rest
  else folder ++ "/" ++ rest

def afterTilde? : List Char → Option (List Char)
  | '~' :: c :: rest => if c = '/' ∨ c = '\\' then some rest else none
  | _ => none

/-- The path with a leading tilde replaced by the home folder, if that is
known. -/
def replaceTilde (home : Option String) (path : String) : String :=
  match home with
  | none => path
  | some home =>
    if path = "~" then home
    else match afterTilde? path.toList with
      | some rest => join home (String.ofList rest)
      | none => path

def expand (home : Option String) (working : String) (path : String) : String :=
  join working (replaceTilde home (Text.trim path))

end Telemetry.Files
