import BrokerCli.CommandLine

/-!
# Running a command line

* `App.parse` -- a command line read, and no more;
* `App.run` -- a command line read and its command run. Afterwards the settings are written back if
  they changed. That they cannot be written is reported, but it is no failure of the run;
* `App.execute` -- the same with the outcome in the log, as an exit code.
-/

namespace BrokerCli

/-- Why a run fails. -/
inductive RunError where
  | parse (e : ParseError)
  | noAction (chain : String)
  | action (f : Fault)
deriving DecidableEq, Repr

/-- The fault of a failed run. -/
def RunError.fault : RunError → Fault
  | parse e => e.fault.wrap "Run" 1
  | noAction chain => .raise "Run" 3 (chain ++ ": action not found")
  | action f => f

namespace App

/-- Reads a command line. -/
def parse (app : App) (argv : List String) : Run Fault (Option Prepared) :=
  ExceptT.adapt (fun e => e.fault.wrap "Parse" 1) (CommandLine.read app argv)

/-- Does what the command does. -/
def act (p : Prepared) : Run RunError Unit :=
  match p.command.action with
  | some action => ExceptT.adapt .action (action p.invocation)
  | none => throw (.noAction p.invocation.chainText)

/-- Writes the settings back if they changed, and reports it if that fails. -/
def flush : Effect Unit := do
  let saved ← ExceptT.run Session.saveUpdated
  match saved with
  | .ok () => pure ()
  | .error e =>
    Effect.log .warn ("previous args not saved: " ++ e.fault.tagged)
    Effect.complain (Report.tagged ⟨⟨"Run", 2⟩, e.fault.message⟩ ++ "\n")

/-- Runs a command that was read. A group is not run; its help page is printed. -/
def dispatch (p : Prepared) : Run RunError Unit := do
  if p.command.isGroup then CommandLine.printCommandHelp p.command p.category p.invocation
  else
    let result ← Run.attempt (act p)
    flush
    match result with
    | .ok () => pure ()
    | .error e => throw e

/-- Runs a command line. One at whose end a shell asks for completions never fails to be read. -/
def run (app : App) (argv : List String) : Run RunError Unit := do
  let line ← Run.attempt (CommandLine.read app argv)
  match line with
  | .error e => if argv.getLast? = some Completion.trigger then pure () else throw (.parse e)
  | .ok none => pure ()
  | .ok (some p) => dispatch p

/-- The causes of a fault, in the log. -/
def logCauses : List Cause → Effect Unit
  | [] => pure ()
  | c :: cs => do
    Effect.log .info c.text
    logCauses cs

/-- Runs a command line and says in the log how it ended; the result is the exit code. -/
def execute (app : App) (argv : List String) : Effect UInt32 := do
  let outcome ← ExceptT.run (run app argv)
  match outcome with
  | .ok () =>
    Effect.log .info "normal termination"
    return 0
  | .error e =>
    Effect.log .error e.fault.tagged
    logCauses e.fault.causes
    Effect.log .info "abnormal termination"
    return 1

end App

end BrokerCli
