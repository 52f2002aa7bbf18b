import BrokerCli.Command

/-!
# Completion

A shell asks how a command line may go on by putting the `trigger` at its end. The answer is a list
of candidates, one a line:

* `Completion.ofCommands` -- the names of commands;
* `Completion.ofFlags` -- the flags that an option which has been begun may become: those that are
  neither given nor hidden, the long names first, then the aliases unless the option already begins
  with two dashes. An option that is complete has no candidates at all.
-/

namespace BrokerCli.Completion

/-- The argument by which a shell asks. -/
def trigger : String := "--generate-bash-completion"

/-- Candidates, one a line. -/
def lines (candidates : List String) : String := String.join (candidates.map (· ++ "\n"))

/-- The names of commands. -/
def ofCommands (cs : List Command) : String := lines (cs.map (·.name))

/-- The flags that may still be suggested. -/
def suggested (fs : FlagList) : FlagList := fs.filter fun f => !f.isSet && !f.hidden

/-- The long forms of flags. -/
def longForms (fs : FlagList) : List String := fs.map fun f => "--" ++ f.name

/-- The forms of flags by their aliases. -/
def shortForms (fs : FlagList) : List String := fs.flatMap fun f => f.aliases.map ("-" ++ ·)

/-- All forms in which flags can complete an option that has been begun. -/
def forms (fs : FlagList) (begun : String) : List String :=
  longForms fs ++ if Text.beginsWith "--" begun then [] else shortForms fs

/-- The flags that an option which has been begun may become. -/
def ofFlags (fs : FlagList) (begun : String) : String :=
  let candidates := forms (suggested fs) begun
  if candidates.contains begun then ""
  else lines (candidates.filter (Text.beginsWith begun ·))

end BrokerCli.Completion
