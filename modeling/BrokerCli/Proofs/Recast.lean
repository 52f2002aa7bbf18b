import BrokerCli.CommandLine
import BrokerCli.Proofs.Verdict

/-!
# Reading does not look at actions

A tool is RECAST when its commands are given other actions, or none, or one where there was none.
Everything else about the commands stays:

* `Command.recast`, `App.recast` -- the recast commands, at all levels;
* `Help.appPage_recast`, `Help.commandPage_recast` -- the help pages are the same;
* `Descent.read_recast` -- the way down leads to the same command, recast;
* `CommandLine.read_recast` -- reading a command line is the same, up to the command that it leads to.
  So whatever becomes of a line that leads to no command, no action has to do with it.
-/

namespace BrokerCli

variable {f : Option Action → Option Action}

/-! ## 1. Commands -/

mutual

/-- The command with other actions, at all levels. -/
def Command.recast (f : Option Action → Option Action) : Command → Command
  | ⟨name, usage, category, subcommands, flags, required, rule, serverList, hidden, action⟩ =>
    ⟨name, usage, category, recastAll f subcommands, flags, required, rule, serverList, hidden,
      f action⟩

/-- Commands with other actions. -/
def Command.recastAll (f : Option Action → Option Action) : List Command → List Command
  | [] => []
  | c :: cs => c.recast f :: recastAll f cs

end

/-- The tool with other actions. -/
def App.recast (f : Option Action → Option Action) (app : App) : App :=
  { app with commands := app.commands.map (Command.recast f) }

namespace Command

theorem recastAll_eq_map (cs : List Command) : recastAll f cs = cs.map (recast f) := by
  induction cs with
  | nil => rw [recastAll, List.map_nil]
  | cons c cs ih => rw [recastAll, List.map_cons, ih]

theorem recast_eq (c : Command) : c.recast f =
    { c with subcommands := c.subcommands.map (recast f), action := f c.action } := by
  cases c
  rw [recast, recastAll_eq_map]

section

variable (c : Command)

@[simp] theorem name_recast : (c.recast f).name = c.name := by rw [recast_eq]

@[simp] theorem usage_recast : (c.recast f).usage = c.usage := by rw [recast_eq]

@[simp] theorem category_recast : (c.recast f).category = c.category := by rw [recast_eq]

@[simp] theorem hidden_recast : (c.recast f).hidden = c.hidden := by rw [recast_eq]

@[simp] theorem flags_recast : (c.recast f).flags = c.flags := by rw [recast_eq]

@[simp] theorem required_recast : (c.recast f).required = c.required := by rw [recast_eq]

@[simp] theorem rule_recast : (c.recast f).rule = c.rule := by rw [recast_eq]

@[simp] theorem serverList_recast : (c.recast f).serverList = c.serverList := by rw [recast_eq]

@[simp] theorem subcommands_recast :
    (c.recast f).subcommands = c.subcommands.map (recast f) := by rw [recast_eq]

@[simp] theorem isGroup_recast : (c.recast f).isGroup = c.isGroup := by
  simp only [isGroup, subcommands_recast, List.isEmpty_map]

end

theorem find?_recast (cs : List Command) (name : String) :
    find? (cs.map (recast f)) name = (find? cs name).map (recast f) := by
  unfold find?
  rw [List.find?_map]
  simp only [Function.comp_def, name_recast]

end Command

/-! ## 2. What is shown of commands -/

theorem Completion.ofCommands_recast (cs : List Command) :
    ofCommands (cs.map (Command.recast f)) = ofCommands cs := by
  simp only [ofCommands, List.map_map, Function.comp_def, Command.name_recast]

namespace Help

theorem visible_recast (cs : List Command) :
    visible (cs.map (Command.recast f)) = (visible cs).map (Command.recast f) := by
  simp only [visible, List.filter_map, Function.comp_def, Command.hidden_recast]

theorem map_entry_recast (cs : List Command) :
    (cs.map (Command.recast f)).map entry = cs.map entry := by
  have hentry : entry ∘ Command.recast f = entry := by
    funext c
    simp only [Function.comp_apply, entry, Command.name_recast, Command.usage_recast]
  rw [List.map_map, hentry]

theorem categoryBlock_recast (cs : List Command) (category : String) :
    categoryBlock (cs.map (Command.recast f)) category = categoryBlock cs category := by
  simp only [categoryBlock, List.filter_map, Function.comp_def, Command.category_recast,
    map_entry_recast]

theorem commandList_recast (cs : List Command) :
    commandList (cs.map (Command.recast f)) = commandList cs := by
  have hcategories (cs : List Command) :
      categories (cs.map (Command.recast f)) = categories cs := by
    simp only [categories, List.map_map, Function.comp_def, Command.category_recast]
  have hblocks (cs : List Command) :
      categoryBlock (cs.map (Command.recast f)) = categoryBlock cs :=
    funext fun category => categoryBlock_recast cs category
  simp only [commandList, visible_recast, hcategories, hblocks]

theorem groupRows_recast (width : Nat) (before : Option String) (cs : List Command) :
    groupRows width before (cs.map (Command.recast f)) = groupRows width before cs := by
  induction cs generalizing before with
  | nil => rfl
  | cons c cs ih =>
    simp only [List.map_cons, groupRows, ih, entry, Command.category_recast, Command.name_recast,
      Command.usage_recast]

theorem subcommandList_recast (c : Command) :
    subcommandList (c.recast f) = subcommandList c := by
  have hnames (cs : List Command) :
      (cs.map (Command.recast f)).map (·.name) = cs.map (·.name) := by
    simp only [List.map_map, Function.comp_def, Command.name_recast]
  simp only [subcommandList, Command.isGroup_recast, Command.subcommands_recast, visible_recast,
    List.filter_map, Function.comp_def, map_entry_recast, hnames, groupRows_recast]

theorem appPage_recast (app : App) (program : String) (globals : FlagList) (s : Settings) :
    appPage (app.recast f) program globals s = appPage app program globals s := by
  have hcommands : commandList (app.recast f).commands = commandList app.commands :=
    commandList_recast app.commands
  have husage : (app.recast f).usage = app.usage := rfl
  have hversion : (app.recast f).version = app.version := rfl
  unfold appPage
  rw [hcommands, husage, hversion]

theorem commandPage_recast (program chain category : String) (c : Command) (fs globals : FlagList)
    (s : Settings) : commandPage program chain category (c.recast f) fs globals s =
      commandPage program chain category c fs globals s := by
  unfold commandPage
  rw [Command.usage_recast, Command.isGroup_recast, subcommandList_recast]

end Help

theorem CommandLine.suggestion?_recast (name : String) (cs : List Command) :
    suggestion? name (cs.map (Command.recast f)) = suggestion? name cs := by
  simp only [suggestion?, List.filter_map, List.foldl_map, Function.comp_def, Command.hidden_recast,
    Command.name_recast]

/-! ## 3. The way down -/

namespace Descent

/-- What has been read on the way down, with the command reached recast. -/
def recast (f : Option Action → Option Action) (d : Descent) : Descent :=
  { d with command := d.command.recast f }

theorem start_recast (c : Command) : start (c.recast f) = (start c).recast f := by
  simp only [start, recast, flagsOf, Command.category_recast, Command.name_recast,
    Command.flags_recast, Command.required_recast]

theorem down_recast (d : Descent) (c : Command) : (d.recast f).down (c.recast f) = (d.down c).recast f := by
  simp only [down, recast, flagsOf, Command.name_recast, Command.flags_recast,
    Command.required_recast]

/-- One step of the way down. -/
theorem walk_eq (d : Descent) (c : Cursor) : walk d c = match c.next with
    | (none, _) => (d, .complete)
    | (some arg, behind) =>
      if arg = Completion.trigger then (d, .hints (Completion.ofCommands d.command.subcommands))
      else if behind.peek? = some Completion.trigger ∧ Text.beginsWith "-" arg = true then
        (d, .hints (Completion.ofFlags d.flags arg))
      else match OptionToken.ofArgument? arg with
        | some o => match d.flags.apply o behind with
          | .error e => (d, .failed (.option e))
          | .ok (fs, c') =>
            if fs.isSet "help" then ({ d with flags := fs }, .help) else walk { d with flags := fs } c'
        | none =>
          if d.command.isGroup then
            match Command.find? d.command.subcommands arg with
            | some sub => walk (d.down sub) behind
            | none => (d, .failed (.unknownSubcommand arg))
          else walk { d with args := d.args ++ [arg] } behind := by
  rw [walk]
  split
  · rename_i hn
    rw [hn]
  · rename_i hn
    simp only [hn]
    split
    · rfl
    split
    · rfl
    cases OptionToken.ofArgument? _ with
    | none => rfl
    | some o =>
      dsimp only
      split
      · rename_i ha
        rw [ha]
      · rename_i ha
        rw [ha]

/-- The way down leads to the same command, recast, and ends in the same way. -/
theorem walk_recast (d : Descent) (c : Cursor) :
    walk (d.recast f) c = ((walk d c).1.recast f, (walk d c).2) := by
  have hflags (d : Descent) : (d.recast f).flags = d.flags := rfl
  have hcommand (d : Descent) : (d.recast f).command = d.command.recast f := rfl
  fun_induction walk d c with
  | case1 d c behind hn => rw [walk_eq, hn]
  | case2 d c behind hn =>
    rw [walk_eq, hn]
    simp only [if_true, hcommand, Command.subcommands_recast, Completion.ofCommands_recast]
  | case3 d c arg behind hn harg hhint =>
    rw [walk_eq, hn]
    dsimp only
    rw [if_neg harg, if_pos hhint, hflags]
  | case4 d c arg behind hn harg hhint o ho e ha =>
    rw [walk_eq, hn]
    dsimp only
    rw [if_neg harg, if_neg hhint, ho]
    dsimp only
    rw [hflags, ha]
  | case5 d c arg behind hn harg hhint o ho fs c' ha hhelp =>
    rw [walk_eq, hn]
    dsimp only
    rw [if_neg harg, if_neg hhint, ho]
    dsimp only
    rw [hflags, ha]
    dsimp only
    rw [if_pos hhelp]
    rfl
  | case6 d c arg behind hn harg hhint o ho fs c' ha hhelp ih =>
    rw [walk_eq, hn]
    dsimp only
    rw [if_neg harg, if_neg hhint, ho]
    dsimp only
    rw [hflags, ha]
    dsimp only
    rw [if_neg hhelp]
    exact ih
  | case7 d c arg behind hn harg hhint ho hg sub hs ih =>
    rw [walk_eq, hn]
    dsimp only
    rw [if_neg harg, if_neg hhint, ho]
    dsimp only
    rw [hcommand, Command.isGroup_recast, if_pos hg, Command.subcommands_recast,
      Command.find?_recast, hs, Option.map_some]
    dsimp only
    rw [down_recast]
    exact ih
  | case8 d c arg behind hn harg hhint ho hg hs =>
    rw [walk_eq, hn]
    dsimp only
    rw [if_neg harg, if_neg hhint, ho]
    dsimp only
    rw [hcommand, Command.isGroup_recast, if_pos hg, Command.subcommands_recast,
      Command.find?_recast, hs, Option.map_none]
  | case9 d c arg behind hn harg hhint ho hg ih =>
    rw [walk_eq, hn]
    dsimp only
    rw [if_neg harg, if_neg hhint, ho]
    dsimp only
    rw [hcommand, Command.isGroup_recast, if_neg hg]
    exact ih

theorem read_recast (command : Command) (c : Cursor) :
    read (command.recast f) c = ((read command c).1.recast f, (read command c).2) := by
  unfold read
  rw [Command.isGroup_recast, start_recast]
  split
  · rfl
  · exact walk_recast _ _

end Descent

/-! ## 4. Command lines -/

/-- A command that is ready to run, recast. -/
def Prepared.recast (f : Option Action → Option Action) (p : Prepared) : Prepared :=
  { p with command := p.command.recast f }

section

variable {ε ε' α β : Type}

/-- Actions that come to the same everywhere are the same. -/
theorem Run.ext {r r' : Run ε α} (h : ∀ p, r.perform p = r'.perform p) : r = r' := funext h

theorem Run.adapt_map (e : ε → ε') (g : α → β) (r : Run ε α) :
    (ExceptT.adapt e (g <$> r) : Run ε' β) = g <$> ExceptT.adapt e r := by
  refine ext fun p => ?_
  rw [perform_adapt, perform_map, perform_map, perform_adapt]
  cases (r.perform p).1 <;> rfl

end

namespace CommandLine

theorem require_recast (d : Descent) : require (d.recast f) = Descent.recast f <$> require d := by
  rw [require_eq, require_eq]
  simp only [map_bind]
  refine bind_congr fun _ => bind_congr fun fs => bind_congr fun _ => ?_
  have hshort : (d.recast f).isShort fs = d.isShort fs := rfl
  rw [hshort]
  split
  · rfl
  · rfl

theorem check_recast (d : Descent) : check (d.recast f) = Descent.recast f <$> check d := by
  unfold check
  rw [require_recast, map_bind, bind_map_left]
  refine bind_congr fun d => ?_
  have hflags : (d.recast f).flags = d.flags := rfl
  have hrule : (d.recast f).command.rule = d.command.rule := Command.rule_recast d.command
  rw [hflags, hrule, map_bind]
  refine bind_congr fun _ => ?_
  cases d.command.rule.bind (·.violation? d.flags) with
  | some e => rfl
  | none =>
    dsimp only
    rw [map_bind]
    rfl

theorem readCommand_recast (program : String) (globals : FlagList) (command : Command) (c : Cursor) :
    readCommand program globals (command.recast f) c =
      Option.map (Descent.recast f) <$> readCommand program globals command c := by
  unfold readCommand
  rw [Descent.read_recast]
  rcases Descent.read command c with ⟨d, landing⟩
  dsimp only
  rw [map_bind]
  refine bind_congr fun _ => ?_
  cases landing with
  | failed e => rfl
  | hints text => rfl
  | help =>
    have hpage : printCommandHelp (d.recast f).command (d.recast f).category
        (invocation program globals (d.recast f)) =
        printCommandHelp d.command d.category (invocation program globals d) := by
      unfold printCommandHelp
      refine bind_congr fun s => ?_
      exact congrArg Effect.print (Help.commandPage_recast _ _ _ d.command _ _ _)
    dsimp only
    rw [hpage, map_bind]
    rfl
  | complete =>
    dsimp only
    rw [check_recast, map_bind, bind_map_left]
    rfl

theorem findCommand_recast (app : App) (program : String) (globals : FlagList) (name : String)
    (c : Cursor) : findCommand (app.recast f) program globals name c =
      Option.map (Descent.recast f) <$> findCommand app program globals name c := by
  have hcommands : (app.recast f).commands = app.commands.map (Command.recast f) := rfl
  unfold findCommand
  rw [hcommands, Command.find?_recast, suggestion?_recast]
  cases Command.find? app.commands name with
  | some command =>
    dsimp only [Option.map_some]
    rw [readCommand_recast, Run.adapt_map]
  | none =>
    dsimp only [Option.map_none]
    cases suggestion? name app.commands <;> rfl

theorem connect_recast (program : String) (globals : FlagList) (d : Descent) :
    connect program globals (d.recast f) = Prepared.recast f <$> connect program globals d := by
  have hservers : (d.recast f).command.serverList = d.command.serverList :=
    Command.serverList_recast d.command
  unfold connect
  rw [hservers, map_bind]
  rfl

theorem readBehindGlobals_recast (app : App) (program : String) (globals : FlagList) (c : Cursor) :
    readBehindGlobals (app.recast f) program globals c =
      Option.map (Prepared.recast f) <$> readBehindGlobals app program globals c := by
  have hhelp : printAppHelp (app.recast f) program globals = printAppHelp app program globals := by
    unfold printAppHelp
    exact bind_congr fun s =>
      congrArg Effect.print (Help.appPage_recast app program globals s.settings)
  have hcommands : (app.recast f).commands = app.commands.map (Command.recast f) := rfl
  unfold readBehindGlobals
  rw [hhelp, hcommands, Completion.ofCommands_recast]
  split
  · rfl
  rename_i name c' _
  split
  · rfl
  split
  · rfl
  dsimp only
  rw [findCommand_recast, Run.adapt_map, map_bind, bind_map_left]
  refine bind_congr fun d => ?_
  cases d with
  | none => rfl
  | some d =>
    dsimp only [Option.map_some]
    rw [connect_recast, Run.adapt_map, map_bind, bind_map_left]
    rfl

/-- **Reading a command line does not look at actions**: with other actions it is the same, up to the
    command that the line leads to. -/
theorem read_recast (app : App) (argv : List String) :
    read (app.recast f) argv = Option.map (Prepared.recast f) <$> read app argv := by
  have hcommands : (app.recast f).commands = app.commands.map (Command.recast f) := rfl
  have hversion : (app.recast f).version = app.version := rfl
  have hflags : Globals.flags (app.recast f) = Globals.flags app := rfl
  unfold read
  rw [hcommands, hversion, Completion.ofCommands_recast]
  split
  · rfl
  split
  · rfl
  split
  · rfl
  unfold readArguments
  rw [hversion, hflags]
  split
  · rfl
  · rfl
  · rw [map_bind]
    exact bind_congr fun _ => readBehindGlobals_recast app _ _ _

end CommandLine

end BrokerCli
