import BrokerCli.Flag.List
import BrokerCli.Execution

/-!
# Invocations

What a command is run with: the program's name, the chain of commands that led to it, the flags and
arguments of the command line, and the clients that were made for it.
-/

namespace BrokerCli

/-- What a command is run with. -/
structure Invocation where
  /-- The name under which the program was called. -/
  program : String := ""
  /-- The names of the commands walked through, the last one being run. -/
  chain : List String := []
  /-- The flags of all commands of the chain. -/
  flags : FlagList := []
  /-- The flags that stand before the command. -/
  globals : FlagList := []
  /-- The names of the flags that may be given by position. -/
  required : List String := []
  /-- The arguments that are no options. -/
  args : List String := []
  /-- The kinds of servers that the command works with; none for any. -/
  serverList : Option (List String) := none
  client : Option Client := none
  destination : Option Client := none
deriving DecidableEq, Inhabited

namespace Invocation

/-- The chain as it is written on a command line. -/
def chainText (i : Invocation) : String := " ".intercalate i.chain

end Invocation

/-- What a command does. -/
abbrev Action := Invocation → Run Fault Unit

end BrokerCli
