import BrokerCli.Invocation
import BrokerCli.Rule

/-!
# Commands

Commands form a tree. Flags, names of required flags, rules and kinds of servers are declared at
each command; only a command without subcommands does something. The tree is a declaration: running
a command changes nothing in it.
-/

namespace BrokerCli

/-- A command with its subcommands. -/
structure Command where
  name : String
  usage : String := ""
  category : String := ""
  subcommands : List Command := []
  flags : FlagList := []
  /-- The flags that must be given, and may be given by position in this order. -/
  required : List String := []
  rule : Option Rule := none
  serverList : Option (List String) := none
  hidden : Bool := false
  action : Option Action := none
deriving Inhabited

namespace Command

/-- Whether the command is a group of others. -/
def isGroup (c : Command) : Bool := !c.subcommands.isEmpty

/-- The command of a name among others: the first one. -/
def find? (cs : List Command) (name : String) : Option Command := cs.find? (·.name = name)

theorem name_of_find? {cs : List Command} {name : String} {c : Command}
    (h : find? cs name = some c) : c.name = name :=
  of_decide_eq_true (List.find?_some (p := fun c : Command => decide (c.name = name)) h)

end Command

/-- A tool: the flags before the command, and the commands. -/
structure App where
  name : String := ""
  usage : String := ""
  version : String := ""
  flags : FlagList := []
  commands : List Command := []
deriving Inhabited

end BrokerCli
