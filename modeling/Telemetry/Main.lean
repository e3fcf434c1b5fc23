import Telemetry.Program.Run

/-!
# The command line program
-/

namespace Telemetry.Program

open Files (Entry Host)

def lookUp (path : String) : IO Entry := do
  try
    return .file (← IO.FS.readBinFile path).data.toList
  catch _ =>
    try
      let found ← (← IO.FS.realPath path).metadata
      return .closed found.byteSize.toNat
    catch _ => return .missing

def thisMachine : IO (Host IO) := do
  let home ← IO.getEnv "HOME"
  return {
    look := lookUp
    environment := fun name => IO.getEnv name
    home := home.filter (!·.isEmpty)
    working := toString (← IO.currentDir) }

def write (outcome : Outcome) : IO Unit := do
  for line in outcome.output do
    IO.println line
  for keys in outcome.report.unknownKeys do
    IO.eprintln ("Unknown fields in config file (possible typos): " ++ ", ".intercalate keys)
  match outcome.ending with
  | .brokenOff obstacle => IO.eprintln obstacle.message
  | .failed problem => IO.eprintln ("\nError: " ++ problem.message ++ "\n")
  | .usage .help | .usage .version | .done => return
  | .usage _ => helpLines.forM IO.eprintln

end Telemetry.Program

def main (args : List String) : IO UInt32 := do
  let outcome ← Telemetry.Program.run (← Telemetry.Program.thisMachine) args
  Telemetry.Program.write outcome
  return UInt32.ofNat outcome.ending.exitCode
