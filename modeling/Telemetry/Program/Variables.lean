import Telemetry.CommandLine.Parameter
import Telemetry.Entries
import Telemetry.Environment.Assignment
import Telemetry.Environment.Lines
import Telemetry.Files.Host
import Telemetry.Files.Path

/-!
# Variables of a program

A program's variables are those of its host and, behind them, those of the
nearest file named `.env` in the working folder or a folder above it. A value
in that file may use variables of the host and variables set before it. The
first assignment of a name counts, and a line that is none ends the file. A
value that counts cannot hold the NUL character.
-/

namespace Telemetry.Program

open Environment (Assignment Piece)
open Files (Entry Host)

abbrev Variables := List (String × String)

inductive Obstacle where
  /-- A variable with a value that holds NUL. -/
  | nulIn (name : String)
  /-- A log filter that would be cut inside a character. -/
  | brokenFilter
  deriving DecidableEq, Repr

def Obstacle.message : Obstacle → String
  | .nulIn name => "The variable " ++ name ++ " cannot hold NUL"
  | .brokenFilter => "The log filter cannot be cut inside a character"

def variablesFileName : String := ".env"

/-- The folder and every folder above it, given by the characters of its path
last first. -/
def foldersAbove : List Char → List String
  | [] => []
  | c :: rest =>
    if c = '/' then
      (if rest.isEmpty then ["/"] else [String.ofList rest.reverse]) ++ foldersAbove rest
    else foldersAbove rest

def folders (working : String) : List String :=
  working :: foldersAbove working.toList.reverse

section
variable {m : Type → Type} [Monad m]

/-- The value of a variable, the host's before the file's. A name with an
equals sign in it goes on into the value: if `A` is `b=c` then `A=b` is `c`. -/
def lookUpVariable (host : Host m) (known : Variables) (name : String) : m (Option String) := do
  let first := String.ofList (name.toList.takeWhile (· != '='))
  if first.isEmpty then return none
  let value := (← host.environment first).or (Entries.get? known first)
  match name.toList.dropWhile (· != '=') with
  | [] => return value
  | _ :: further =>
    return value.bind fun text =>
      ((further ++ ['=']).isPrefixOf? text.toList).map String.ofList

/-- The text of a value. A variable that is not set is empty. -/
def expandPieces (host : Host m) (known : Variables) : List Piece → m (List Char)
  | [] => return []
  | .char c :: rest => return c :: (← expandPieces host known rest)
  | .variable name :: rest => do
    return ((← lookUpVariable host known name).getD "").toList ++ (← expandPieces host known rest)

/-- The variables with those of the lines behind them. -/
def assignAll (host : Host m) (known : Variables) :
    List (Option (List Char)) → m (Except Obstacle Variables)
  | [] => return .ok known
  | none :: _ => return .ok known
  | some line :: rest =>
    match Environment.assignment line with
    | none => return .ok known
    | some none => assignAll host known rest
    | some (some set) => do
      let value ← expandPieces host known set.value
      match ← lookUpVariable host known set.name with
      | some _ => assignAll host known rest
      | none =>
        if value.contains '\x00' then return .error (.nulIn set.name)
        else assignAll host (Entries.put known set.name (String.ofList value)) rest

/-- The variables of the first of these folders that has a file of them. -/
def variablesIn (host : Host m) : List String → m (Except Obstacle Variables)
  | [] => return .ok []
  | folder :: rest => do
    match ← host.look (Files.join folder variablesFileName) with
    | .file bytes => assignAll host [] (Environment.lines bytes)
    | _ => variablesIn host rest

def collect (host : Host m) (known : Variables) : List String → m Variables
  | [] => return []
  | name :: rest => do
    let others ← collect host known rest
    match ← lookUpVariable host known name with
    | some value => return (name, value) :: others
    | none => return others

/-- The variables that give the log filter, the first that is set. -/
def filterNames : List String :=
  ["FIELDSCOPE_LOG", "RUST_LOG"]

def askedNames : List String :=
  CommandLine.shared.filterMap (·.variableName?) ++ filterNames

def gather (host : Host m) : m (Except Obstacle Variables) := do
  match ← variablesIn host (folders host.working) with
  | .ok known => return .ok (← collect host known askedNames)
  | .error obstacle => return .error obstacle

end

end Telemetry.Program
