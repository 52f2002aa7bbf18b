import BrokerCli.Command
import BrokerCli.Flag.Shared

/-!
# The commands on what is remembered

* `settings list` -- what is remembered;
* `settings delete` -- forgets items. If one of them is unknown, nothing is forgotten;
* `settings clear` -- forgets everything;
* `settings previousArgs` -- turns the memory on or off, and forgets everything.

A command that changes the settings writes them at once, so that nothing is left to be written at
the end of the run.
-/

namespace BrokerCli.Tool.Remembered

/-- Writes the configuration at once; a failure is reported by the command. -/
def saveNow (activity : String) (number : Nat) : Run Fault Unit := do
  ExceptT.adapt (fun e => e.fault.wrap activity number) Session.save
  Effect.modifySession fun s => { s with updated := false }

/-! ## 1. Showing -/

/-- What is shown of the settings; with `all` also what is empty. -/
def description (all : Bool) (s : Settings) : String :=
  (if s.usePrevious then "" else "PreviousArgs off\n") ++
    String.join ((if all then s.items else s.givenItems).map fun item =>
      item.1 ++ ": " ++ item.2 ++ "\n")

/-- Shows what is remembered. -/
def list : Action := fun i => do
  Effect.print (description (i.flags.truth "all") (← Effect.session).settings)

/-! ## 2. Forgetting -/

/-- The settings with all named items forgotten, or the first name that is unknown. -/
def forgetAll (s : Settings) : List String → Except String Settings
  | [] => .ok s
  | name :: names => match s.forgetNamed? name with
    | some s => forgetAll s names
    | none => .error name

/-- Forgets the items of a list with commas. -/
def delete : Action := fun i => do
  match forgetAll (← Effect.session).settings (Text.split ',' (i.flags.text "items")) with
  | .error name => throw (.raise "settingsDelete" 2 (Text.lower name ++ " not found"))
  | .ok settings =>
    Effect.modifySettings fun _ => settings
    saveNow "settingsDelete" 3

/-- Forgets everything. -/
def clear : Action := fun _ => do
  Effect.modifySettings Settings.cleared
  saveNow "settingsClear" 1

/-- Turns the memory on or off. -/
def setMode : Action := fun i => do
  let on := i.flags.truth "on"
  Effect.modifySettings fun s => { s with usePrevious := on }.cleared
  saveNow "settingsPreviousArgs" 2

/-! ## 3. The commands -/

/-- The commands. -/
def command : Command where
  name := "settings"
  category := "MANAGEMENT"
  usage := "manage settings"
  subcommands :=
    [{ name := "list", usage := "List settings", flags := [.ofTruth "all" "all items" []],
       action := some list },
     { name := "delete", usage := "Delete setting",
       flags := [.ofText "items" "setting \x60ITEMS\x60 (comma separated)" ["i"] {}],
       required := ["items"], action := some delete },
     { name := "clear", usage := "Clear settings", action := some clear },
     { name := "previousArgs", usage := "Set PreviousArgs mode",
       flags := [.ofTruth "off" "off (disable)" ["d"], .ofTruth "on" "on (enable)" ["e"]],
       rule := some (.exactlyOne "on" "off"), action := some setMode }]

end BrokerCli.Tool.Remembered
