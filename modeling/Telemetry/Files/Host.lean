/-!
# The machine a program runs on

A program looks at files and variables and at nothing else. The functions
are in a monad, so that the same program runs on the real machine and on one
that is given as a value.
-/

namespace Telemetry.Files

inductive Entry where
  | missing
  | file (bytes : List UInt8)
  /-- Something that has a size but cannot be read, such as a folder. -/
  | closed (size : Nat)
  deriving DecidableEq, Repr

def Entry.isMissing : Entry → Bool
  | .missing => true
  | _ => false

structure Host (m : Type → Type) where
  look : String → m Entry
  environment : String → m (Option String)
  /-- The home folder, if there is one. -/
  home : Option String
  /-- The working folder, where relative paths start. -/
  working : String

end Telemetry.Files
