import BrokerCli.Command
import BrokerCli.Text.Column

/-!
# Help pages

A help page is a text of sections. Commands and flags stand in tables of two columns; what is hidden
does not appear, and does not count for the width of a column either.

* `Help.table` -- rows whose right column begins at one offset;
* `Help.commandList` -- the commands of the tool, grouped by category. The categories are in the
  order of their capitals, and the category `lastCategory` comes last;
* `Help.subcommandList` -- the subcommands of a command: first those that do something, then groups;
* `Help.flagList`, `Help.memory` -- the flags, and what is remembered;
* `Help.appPage`, `Help.commandPage` -- the whole pages.
-/

namespace BrokerCli.Help

/-! ## 1. Tables -/

/-- A row with its left column filled up to a width. -/
def row (indent : String) (width : Nat) (entry : String × String) : String :=
  indent ++ Text.pad width entry.1 ++ "  " ++ entry.2 ++ "\n"

/-- Rows with one width for all left columns. -/
def table (indent : String) (entries : List (String × String)) : String :=
  String.join (entries.map (row indent (Text.width (entries.map Prod.fst))))

/-! ## 2. Commands -/

/-- The row that help itself has among commands. -/
def helpEntry : String × String := ("help, h", "Shows a list of commands or help for one command")

/-- The row of a command. -/
def entry (c : Command) : String × String := (c.name, c.usage)

/-- The commands that are shown. -/
def visible (cs : List Command) : List Command := cs.filter fun c => !c.hidden

/-- The category that comes after all others. -/
def lastCategory : String := "MANAGEMENT"

/-- Whether one category may come before another: capitals in order, `lastCategory` at the end. -/
def categoryLe (a b : String) : Bool :=
  if b = lastCategory then true
  else if a = lastCategory then false
  else Text.upper a ≤ Text.upper b

/-- The categories of commands, each once; those with the same capitals in the order of their text. -/
def categories (cs : List Command) : List String :=
  (Dictionary.ofList (cs.map fun c => (c.category, ()))).keys.mergeSort categoryLe

/-- The commands of one category under its heading. -/
def categoryBlock (cs : List Command) (category : String) : String :=
  "   " ++ category ++ ":\n" ++
    table "     " ((cs.filter fun c => c.category = category).map entry)

/-- The section on the commands of the tool. -/
def commandList (commands : List Command) : String :=
  let shown := visible commands
  "COMMANDS:\n" ++ row "   " 0 helpEntry ++
    String.join ((categories shown).map (categoryBlock shown)) ++ "\n"

/-- Rows of groups, with a heading wherever the category is another than before. -/
def groupRows (width : Nat) : Option String → List Command → String
  | _, [] => ""
  | before, c :: cs =>
    (if before = some c.category then "" else "   " ++ c.category ++ ":\n") ++
      row "     " width (entry c) ++ groupRows width (some c.category) cs

/-- The section on the subcommands of a command; empty if it has none. -/
def subcommandList (command : Command) : String :=
  if !command.isGroup then ""
  else
    let shown := visible command.subcommands
    let groups := shown.filter Command.isGroup
    "COMMANDS:\n" ++
      table "   " ((shown.filter fun c => !c.isGroup).map entry ++ [helpEntry]) ++
      groupRows (Text.width (groups.map (·.name))) none groups ++ "\n"

/-! ## 3. Flags and memory -/

/-- The section on flags under a title; empty if there are none. -/
def flagList (title : String) (fs : FlagList) : String :=
  if fs.isEmpty then ""
  else
    title ++ ":\n" ++
      table "   " ((fs.filter fun f => !f.hidden).map fun f => (f.column, f.description)) ++ "\n"

/-- The section on what is remembered. -/
def memory (s : Settings) : String :=
  "PREVIOUS ARGS:\n" ++
    if !s.usePrevious then "   off\n   (To enable it, run 'ngsi settings previousArgs --on')\n"
    else if s.givenItems.isEmpty then "   None\n"
    else table "   " s.givenItems ++ "   (To clear args, run 'ngsi settings clear')\n"

/-! ## 4. Pages -/

/-- The page of the tool. -/
def appPage (app : App) (program : String) (globals : FlagList) (s : Settings) : String :=
  "NAME:\n   ngsi - " ++ app.usage ++ "\n\n" ++
    "USAGE:\n   " ++ program ++ " [global options] command [options] [arguments...]\n\n" ++
    "VERSION:\n   ngsi version " ++ app.version ++ "\n\n" ++
    commandList app.commands ++ flagList "GLOBAL OPTIONS" globals ++ memory s

/-- The page of a command, which was reached through `chain` and belongs to a category. -/
def commandPage (program chain category : String) (command : Command) (fs globals : FlagList)
    (s : Settings) : String :=
  "NAME:\n   ngsi " ++ chain ++ " - " ++ command.usage ++ "\n\n" ++
    "USAGE:\n   " ++ program ++ " [global options] " ++ chain ++
    (if command.isGroup then " [options] [command] [arguments...]\n\n"
      else " [options] [arguments...]\n\n") ++
    "CATEGORY:\n   " ++ category ++ "\n\n" ++
    subcommandList command ++ flagList "OPTIONS" fs ++ flagList "GLOBAL OPTIONS" globals ++ memory s

end BrokerCli.Help
