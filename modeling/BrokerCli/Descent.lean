import BrokerCli.Completion
import BrokerCli.Flag.Shared
import BrokerCli.Flag.Option

/-!
# The way down to a command

Behind the name of a command stand its options, names of subcommands, and arguments. They are read in
one pass; each name of a subcommand leads one level DOWN, and the flags of all levels add up:

* an option is given to the first flag that answers to it among those of the levels walked so far;
* any other argument of a group is the name of a subcommand, and of any other command an argument.

A `Descent` is what has been read so far, a `Landing` how the reading ends.
-/

namespace BrokerCli

/-- Why a command line does not lead to a command that can be run. -/
inductive DescentError where
  | option (e : OptionError)
  | unknownSubcommand (name : String)
  | missing
  | emptyValues
  | rule (e : RuleError)
  | missedChoices
deriving DecidableEq, Repr

/-- The fault of a command line that leads nowhere. -/
def DescentError.fault : DescentError → Fault
  | option e => e.fault.wrap "parseCmdFlag" 1
  | unknownSubcommand name => .raise "parseCmdFlag" 2 (name ++ " not found")
  | missing => .raise "parseCmdFlag" 3 "missing required options"
  | emptyValues => .raise "parseCmdFlag" 4 "option values are empty"
  | rule e => e.fault.wrap "parseCmdFlag" 5
  | missedChoices => .raise "parseCmdFlag" 6 "option values error"

/-- What has been read on the way down. -/
structure Descent where
  /-- The command reached. -/
  command : Command
  /-- The category of the first command of the chain. -/
  category : String
  /-- The names of the commands walked through. -/
  chain : List String
  flags : FlagList
  required : List String
  args : List String

/-- How the way down ends. -/
inductive Landing where
  /-- Everything is read. -/
  | complete
  /-- The user asks for the help page of the command reached. -/
  | help
  /-- A shell asks for completions. -/
  | hints (text : String)
  | failed (e : DescentError)
deriving DecidableEq, Repr

namespace Descent

/-- The flags that a command adds: its own, and help. -/
def flagsOf (c : Command) : FlagList := c.flags.reset ++ [.help]

/-- At a command of the tool. -/
def start (c : Command) : Descent where
  command := c
  category := c.category
  chain := [c.name]
  flags := flagsOf c
  required := c.required
  args := []

/-- One level further down. -/
def down (d : Descent) (c : Command) : Descent where
  command := c
  category := d.category
  chain := d.chain ++ [c.name]
  flags := d.flags.without "help" ++ flagsOf c
  required := d.required ++ c.required
  args := d.args

/-- Reads arguments. -/
def walk (d : Descent) (c : Cursor) : Descent × Landing :=
  match _ : c.next with
  | (none, _) => (d, .complete)
  | (some arg, behind) =>
    if arg = Completion.trigger then (d, .hints (Completion.ofCommands d.command.subcommands))
    else if behind.peek? = some Completion.trigger ∧ Text.beginsWith "-" arg = true then
      (d, .hints (Completion.ofFlags d.flags arg))
    else match OptionToken.ofArgument? arg with
      | some o => match _ : d.flags.apply o behind with
        | .error e => (d, .failed (.option e))
        | .ok (fs, c') =>
          if fs.isSet "help" then ({ d with flags := fs }, .help) else walk { d with flags := fs } c'
      | none =>
        if d.command.isGroup then
          match Command.find? d.command.subcommands arg with
          | some sub => walk (d.down sub) behind
          | none => (d, .failed (.unknownSubcommand arg))
        else walk { d with args := d.args ++ [arg] } behind
termination_by c.unread.length
decreasing_by
  · exact FlagList.unread_lt_of_apply ‹c.next = _› ‹d.flags.apply _ _ = _›
  · exact Cursor.unread_lt_of_next ‹c.next = _›
  · exact Cursor.unread_lt_of_next ‹c.next = _›

/-- Whether what comes behind a command asks for its help page without naming an option. -/
def asksHelp : Option String → Bool
  | none => true
  | some arg => arg = "help" || arg = "h"

/-- Reads the arguments behind the name of a command of the tool. -/
def read (command : Command) (c : Cursor) : Descent × Landing :=
  if asksHelp c.peek? && command.isGroup then (start command, .help) else walk (start command) c

end Descent

end BrokerCli
