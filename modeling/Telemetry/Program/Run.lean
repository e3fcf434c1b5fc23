import Telemetry.Log.Filter
import Telemetry.Program.Commands
import Telemetry.Program.Variables

/-!
# Running the program

A run ends in one of four ways: it breaks off before it reads its command line,
its command line is not carried out, the command fails, or the command is done.
The way decides the exit code; asking for help or for the version is no fault.
-/

namespace Telemetry.Program

open CommandLine (Usage)
open Files (Host)

inductive Ending where
  | brokenOff (obstacle : Obstacle)
  | usage (usage : Usage)
  | failed (problem : Problem)
  | done
  deriving DecidableEq, Repr

structure Outcome where
  ending : Ending
  report : Report := {}
  deriving DecidableEq, Repr

def Ending.exitCode : Ending → Nat
  | .brokenOff _ => 101
  | .usage .help | .usage .version => 0
  | .usage _ => 2
  | .failed _ => 1
  | .done => 0

def versionLine : String :=
  "fieldscope 0.4.0"

def helpLines : List String := [
  "Telemetry attribute extraction for opaque API calls",
  "",
  "Usage: fieldscope [OPTIONS] <COMMAND>",
  "",
  "Commands:",
  "  categories  List request categories and their attribute mappings",
  "  resolve     Resolve one payload attribute from a JSON body file",
  "  invoke      Run model-invocation extraction over request/response body files",
  "  help        Print this message or the help of the given subcommand(s)"]

def Outcome.output (outcome : Outcome) : List String :=
  match outcome.ending with
  | .usage .help => helpLines
  | .usage .version => [versionLine]
  | .usage _ | .brokenOff _ => []
  | _ => outcome.report.lines

def defaultFilter : String :=
  "warn,fieldscope=info"

/-- The message about keys of a settings file that mean nothing. -/
def unknownKeysMessage : Log.Message where
  channel := "fieldscope::core::config"
  fields := ["message", "fields"]
  level := .warn

def filterOf (known : Variables) : String :=
  (filterNames.findSome? (Entries.get? known)).getD defaultFilter

def Report.logged (report : Report) (filter : Log.Filter) : Report :=
  if filter.lets unknownKeysMessage then report else { report with unknownKeys := [] }

def prepare {m : Type → Type} [Monad m] (host : Host m) :
    m (Except Obstacle (Variables × Log.Filter)) := do
  match ← gather host with
  | .error obstacle => return .error obstacle
  | .ok known =>
    match Log.Filter.ofString? (filterOf known) with
    | none => return .error .brokenFilter
    | some filter => return .ok (known, filter)

/-- Carries a command line out on a host. -/
def run {m : Type → Type} [Monad m] (host : Host m) (args : List String)
    (rankings : Nat → Payload.Ranking := fun _ => .level) : m Outcome := do
  match ← prepare host with
  | .error obstacle => return { ending := .brokenOff obstacle }
  | .ok (known, filter) =>
    match CommandLine.parse (Entries.get? known) args with
    | .error usage => return { ending := .usage usage }
    | .ok invocation =>
      let (result, report) ← (execute host invocation rankings).run.run {}
      let report := report.logged filter
      match result with
      | .ok _ => return { ending := .done, report }
      | .error problem => return { ending := .failed problem, report }

end Telemetry.Program
