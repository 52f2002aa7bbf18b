import BrokerCli.Check
import BrokerCli.Connect
import BrokerCli.Descent
import BrokerCli.Globals
import BrokerCli.Help
import BrokerCli.Setup
import BrokerCli.Memory
import BrokerCli.Text.Basic
import BrokerCli.Version

/-!
# Reading a command line

From the arguments of a program to a command that is ready to run. The stages, in their order:

1. the program's name, and a question for the version right behind it;
2. the tool's own options (`Globals`), from which the session is set up (`Setup`);
3. the command with its subcommands, options and arguments (`Descent`);
4. what is required, filled from the memory where it may be, and the other checks (`Check`);
5. the clients (`Connect`).

A command line may be dealt with on the way: if it asks for help, for the version or for completions,
the answer is printed and there is nothing left to run.
-/

namespace BrokerCli

/-- Why there is no command to run behind the tool's options. -/
inductive CommandError where
  | descent (e : DescentError)
  | unknownCommand (name : String)
deriving DecidableEq, Repr

/-- The fault of a command line without a command to run. -/
def CommandError.fault : CommandError → Fault
  | descent e => e.fault.wrap "runCmd" 1
  | unknownCommand name => .raise "runCmd" 2 (name ++ " not found")

/-- Why a command line cannot be run. -/
inductive ParseError where
  | noProgram
  | globals (e : OptionError)
  | setup (e : SetupError)
  | command (e : CommandError)
  | connect (e : ConnectError)
deriving DecidableEq, Repr

/-- The fault of a command line that cannot be run. -/
def ParseError.fault : ParseError → Fault
  | noProgram => .raise "ngsiRun" 1 "command name error"
  | globals e => (Globals.fault e).wrap "ngsiRun" 2
  | setup e => e.fault.wrap "ngsiRun" 3
  | command e => e.fault.wrap "ngsiRun" 4
  | connect e => e.fault.wrap "ngsiRun" 5

/-- A command that is ready to run. -/
structure Prepared where
  command : Command
  /-- The category of the first command of the chain. -/
  category : String
  invocation : Invocation
deriving Inhabited

namespace CommandLine

/-! ## 1. Help -/

/-- Prints the page of the tool. -/
def printAppHelp (app : App) (program : String) (globals : FlagList) : Effect Unit := do
  Effect.print (Help.appPage app program globals (← Effect.session).settings)

/-- Prints the page of a command. -/
def printCommandHelp (command : Command) (category : String) (i : Invocation) : Effect Unit := do
  Effect.print (Help.commandPage i.program i.chainText category command i.flags i.globals
    (← Effect.session).settings)

/-! ## 2. Checks -/

/-- Shows complaints, in order. -/
def complainAll : List Complaint → Effect Unit
  | [] => pure ()
  | c :: cs => do
    Effect.complain c.line
    complainAll cs

/-- Fills the flags from server and memory, and refreshes the memory. -/
def remember (fs : FlagList) : Effect FlagList := do
  let s ← Effect.session
  let r := Memory.reconcile fs s.settings s.servers
  match r.switched with
  | some (before, after) => Effect.log .debug ("host switch: " ++ before ++ " -> " ++ after)
  | none => pure ()
  Effect.modifySession fun s => { s with settings := r.settings, updated := s.updated || r.refreshed }
  return r.flags

/-- Takes what is required by name, by position or from the memory: the flags and arguments that are then
    there, and whether anything is missing. -/
def provide (d : Descent) : Effect (Descent × Bool) := do
  let byPosition := Check.byPosition d.flags d.required d.args
  let (fs, misplaced) := if byPosition then Check.place d.flags (d.required.zip d.args) else (d.flags, [])
  let args := if byPosition then [] else d.args
  complainAll misplaced
  let fs ← remember fs
  let leftOver := !d.required.isEmpty && !args.isEmpty
  let missing := (if byPosition then [] else Check.notGiven fs d.required) ++ Check.ownDemands fs
  complainAll missing
  return ({ d with flags := fs, args := args }, leftOver || !misplaced.isEmpty || !missing.isEmpty)

/-- Checks that everything required is there. -/
def require (d : Descent) : Run DescentError Descent := do
  let (d, missing) ← provide d
  if missing then throw .missing
  return d

/-- Shows complaints, and fails if there are any. -/
def refuseIfAny (complaints : List Complaint) (e : DescentError) : Run DescentError Unit := do
  complainAll complaints
  if !complaints.isEmpty then throw e

/-- All checks, in order: what is required, empty values, the command's rule, choices. -/
def check (d : Descent) : Run DescentError Descent := do
  let d ← require d
  refuseIfAny (Check.emptyValues d.flags) .emptyValues
  match d.command.rule.bind (·.violation? d.flags) with
  | some e => throw (.rule e)
  | none => refuseIfAny (Check.missedChoices d.flags) .missedChoices
  return d

/-! ## 3. Commands -/

/-- The farthest that a name may be from the one that is suggested for it. -/
def nearness : Nat := 2

/-- The nearer of a suggestion so far and a name. -/
def nearer (asked : String) (best : Option (String × Nat)) (name : String) : Option (String × Nat) :=
  let d := Text.distance asked (Text.lower name)
  if d ≤ nearness && best.all (d < ·.2) then some (name, d) else best

/-- The command that is suggested for a name that is none: the first of the nearest. -/
def suggestion? (name : String) (commands : List Command) : Option String :=
  ((commands.filter fun c => !c.hidden).foldl (fun best c => nearer (Text.lower name) best c.name)
    none).map Prod.fst

/-- Says in the log which subcommands were walked into. -/
def logWalk : List String → Effect Unit
  | [] => pure ()
  | name :: names => do
    Effect.log .debug ("subcommand " ++ name)
    logWalk names

/-- What has been read as an invocation. -/
def invocation (program : String) (globals : FlagList) (d : Descent) : Invocation where
  program
  chain := d.chain
  flags := d.flags
  globals
  required := d.required
  args := d.args

/-- Reads a command, unless that already deals with the command line. -/
def readCommand (program : String) (globals : FlagList) (command : Command) (c : Cursor) :
    Run DescentError (Option Descent) := do
  let (d, landing) := Descent.read command c
  logWalk d.chain.tail
  match landing with
  | .failed e => throw e
  | .hints text =>
    Effect.print text
    return none
  | .help =>
    printCommandHelp d.command d.category (invocation program globals d)
    return none
  | .complete => return some (← check d)

/-- Finds the command of a name and reads it. -/
def findCommand (app : App) (program : String) (globals : FlagList) (name : String)
    (c : Cursor) : Run CommandError (Option Descent) := do
  match Command.find? app.commands name with
  | some command => ExceptT.adapt .descent (readCommand program globals command c)
  | none =>
    match suggestion? name app.commands with
    | some other => Effect.log .info ("did you mean '" ++ other ++ "'?")
    | none => pure ()
    throw (.unknownCommand name)

/-- The command that was read, with its clients. -/
def connect (program : String) (globals : FlagList) (d : Descent) : Run ConnectError Prepared := do
  let i ← Connect.run { invocation program globals d with serverList := d.command.serverList }
  return { command := d.command, category := d.category, invocation := i }

/-! ## 4. The whole line -/

/-- Whether an argument in the place of a command asks for the help page. -/
def asksHelp (arg : String) : Bool := arg = "help" || arg = "h"

/-- The globals without those that only the tool itself has. -/
def belowTool (globals : FlagList) : FlagList := (globals.without "help").without "version"

/-- Reads what stands behind the tool's options, with the session set up. -/
def readBehindGlobals (app : App) (program : String) (globals : FlagList) (c : Cursor) :
    Run ParseError (Option Prepared) :=
  match c.next with
  | (none, _) => do
    printAppHelp app program globals
    return none
  | (some name, c) => do
    if asksHelp name then
      printAppHelp app program globals
      return none
    else if name = Completion.trigger then
      Effect.print (Completion.ofCommands app.commands)
      return none
    else
      let globals := belowTool globals
      match ← ExceptT.adapt .command (findCommand app program globals name c) with
      | none => return none
      | some d => return some (← ExceptT.adapt .connect (connect program globals d))

/-- Reads what stands behind the program's name. -/
def readArguments (app : App) (program : String) (c : Cursor) :
    Run ParseError (Option Prepared) := do
  match Globals.read (Globals.flags app) c with
  | (_, .failed e) => throw (.globals e)
  | (_, .hints text) =>
    Effect.print text
    return none
  | (globals, .reached c) =>
    ExceptT.adapt .setup (Setup.run app.version globals)
    readBehindGlobals app program globals c

/-- Reads a command line, the program's name first. -/
def read (app : App) (argv : List String) : Run ParseError (Option Prepared) := do
  match (Cursor.mk argv 0).next with
  | (none, _) => throw .noProgram
  | (some program, c) =>
    if c.peek? = some Completion.trigger then
      Effect.print (Completion.ofCommands app.commands)
      return none
    else match Version.answerNext app.version c with
      | (some text, _) =>
        Effect.print text
        return none
      | (none, c) => readArguments app program c

end CommandLine

end BrokerCli
