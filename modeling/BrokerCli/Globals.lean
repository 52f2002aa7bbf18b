import BrokerCli.Completion
import BrokerCli.Flag.Shared
import BrokerCli.Flag.Option

/-!
# Options before the command

Behind the program's name stand the options of the tool itself, up to the first argument that is no
option: that one is the command. They are read in one pass over the arguments.
-/

namespace BrokerCli.Globals

/-- How the reading of the tool's options ends. -/
inductive Ending where
  /-- At an argument that is no option, which is still to come, or at the end. -/
  | reached (c : Cursor)
  /-- At an option that a shell asks to complete. -/
  | hints (text : String)
  /-- At an option that cannot be given. -/
  | failed (e : OptionError)
deriving DecidableEq, Repr

/-- The fault of an option that cannot be given. -/
def fault (e : OptionError) : Fault := e.fault.wrap "parseGlobalFlag" 1

/-- The flags that stand before the command: the tool's own, help and version. -/
def flags (app : App) : FlagList := app.flags.reset ++ [.help, .version]

/-- Reads options into the flags. -/
def read (fs : FlagList) (c : Cursor) : FlagList × Ending :=
  match _ : c.next with
  | (none, behind) => (fs, .reached behind)
  | (some arg, behind) =>
    if arg = Completion.trigger then (fs, .reached behind.back.2)
    else if behind.peek? = some Completion.trigger ∧ Text.beginsWith "-" arg = true then
      (fs, .hints (Completion.ofFlags fs arg))
    else match OptionToken.ofArgument? arg with
      | none => (fs, .reached behind.back.2)
      | some o => match _ : fs.apply o behind with
        | .error e => (fs, .failed e)
        | .ok (gs, c') => read gs c'
termination_by c.unread.length
decreasing_by exact FlagList.unread_lt_of_apply ‹c.next = _› ‹fs.apply _ _ = _›

end BrokerCli.Globals
