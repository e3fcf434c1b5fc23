import Telemetry.Program.Session

/-!
# Sessions on a host given as a value

A host that is given as a value answers without effects, so a session on it is
a function from the report before it to its result and the report after it.
One law for each action says which function.
-/

namespace Telemetry.Program

open Files (Entry Host)

variable {α β : Type}

def Session.ran (session : Session Id α) (report : Report) : Except Problem α × Report :=
  session.run.run report

@[simp] theorem pure_ran (a : α) (report : Report) :
    (pure a : Session Id α).ran report = (.ok a, report) := rfl

@[simp] theorem throw_ran (problem : Problem) (report : Report) :
    (throw problem : Session Id α).ran report = (.error problem, report) := rfl

theorem bind_ran (session : Session Id α) (next : α → Session Id β) (report : Report) :
    (session >>= next).ran report = match session.ran report with
      | (.ok a, report) => (next a).ran report
      | (.error problem, report) => (.error problem, report) := by
  simp only [Session.ran, ExceptT.run_bind, StateT.run_bind]
  rcases session.run.run report with ⟨problem | a, report⟩ <;> rfl

theorem bind_ran_ok {session : Session Id α} {next : α → Session Id β} {report : Report} {b : β} :
    ((session >>= next).ran report).1 = .ok b ↔
      ∃ a, (session.ran report).1 = .ok a ∧ ((next a).ran (session.ran report).2).1 = .ok b := by
  rw [bind_ran]
  rcases session.ran report with ⟨problem | a, later⟩
  · simp
  · simp

@[simp] theorem look_ran (host : Host Id) (path : String) (report : Report) :
    (look host path).ran report = (.ok (host.look path), report) := rfl

@[simp] theorem print_ran (line : String) (report : Report) :
    (print line : Session Id Unit).ran report =
      (.ok (), { report with lines := report.lines ++ [line] }) := rfl

@[simp] theorem warnUnknown_ran (keys : List String) (report : Report) :
    ((warnUnknown keys : Session Id Unit).ran report).1 = .ok () := by
  unfold warnUnknown
  split <;> rfl

theorem readPayload_ran {host : Host Id} {path : String} {bytes : List UInt8}
    (there : host.look path = .file bytes) (limit : Nat) (report : Report) :
    (readPayload host path limit).ran report =
      if limit < bytes.length then (.error (.payloadTooLarge path bytes.length limit), report)
      else (.ok bytes, report) := by
  simp only [readPayload, bind_ran, look_ran, there]
  split <;> rfl

end Telemetry.Program
