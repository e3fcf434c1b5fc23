import Telemetry.Entries
import Telemetry.Files.Host
import Telemetry.Files.Path

/-!
# Files as a value

A tree of files, each under its full list of names. A folder is there if it
was made or if a file lies in it. Looking up a path walks it name by name,
and every step but the last must end in a folder.
-/

namespace Telemetry.Files

structure Tree where
  files : List (List String × List UInt8) := []
  folders : List (List String) := []

def pieces (path : String) : List String :=
  (path.toList.splitOn '/').map String.ofList

/-- The names of an absolute path that has no dots in it. -/
def names (path : String) : List String :=
  (pieces path).filter fun name => !name.isEmpty && name != "."

namespace Tree

def isFolder (tree : Tree) (place : List String) : Bool :=
  place.isEmpty || tree.folders.any place.isPrefixOf ||
    tree.files.any fun entry => place.isPrefixOf entry.1 && place != entry.1

def folderSize : Nat := 4096

def entryAt (tree : Tree) (place : List String) : Entry :=
  match Entries.get? tree.files place with
  | some bytes => .file bytes
  | none => if tree.isFolder place then .closed folderSize else .missing

/-- What is found by the pieces of a path, from a place given last name first. -/
def walk (tree : Tree) (place : List String) : List String → Entry
  | [] => tree.entryAt place.reverse
  | name :: rest =>
    if !tree.isFolder place.reverse then .missing
    else if name.isEmpty || name == "." then tree.walk place rest
    else if name == ".." then tree.walk place.tail rest
    else tree.walk (name :: place) rest

def look (tree : Tree) (working path : String) : Entry :=
  if path.isEmpty then .missing else tree.walk [] (pieces (join working path))

end Tree

end Telemetry.Files
