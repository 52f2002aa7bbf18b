import BrokerCli.Proofs.Grouping

/-!
# The right column begins at one offset

A column of a help page is as wide as its longest entry has BYTES, and an entry is filled up by
CHARACTERS. That never falls short: a character takes a byte at least. So

* `Help.stacked_groupRows` -- the rows of groups are at one offset, whatever headings stand between them;
  of tables (`stacked_table`) and of the blocks of commands (`stacked_blocks`) that is known already;
* `Help.commandList_congr` and its like -- only what is shown has a part in the text;
* `Help.columns_aligned` -- all tables of commands and flags.
-/

namespace BrokerCli.Help

variable {width : Nat}

/-! ## 1. Groups -/

/-- The row of a group, with or without the heading of its category before it. -/
def IsGroupRow (offset : Nat) (c : Command) (text : String) : Prop :=
  ∃ heading line, text = heading ++ line ∧ (heading = "" ∨ heading = "   " ++ c.category ++ ":\n") ∧
    IsRow "     " offset (entry c) line

/-- The rows of groups have their right entries at one offset, whatever headings there are. -/
theorem stacked_groupRows {cs : List Command} (h : ∀ c ∈ cs, c.name.length ≤ width)
    (before : Option String) :
    Stacked (IsGroupRow ("     ".length + width + 2)) cs (groupRows width before cs) := by
  induction cs generalizing before with
  | nil => exact .nil
  | cons c cs ih =>
    obtain ⟨hc, hcs⟩ := List.forall_mem_cons.1 h
    refine .cons ⟨_, _, rfl, ?_, isRow_row "     " hc⟩ (ih hcs (some c.category))
    split
    · exact .inl rfl
    · exact .inr rfl

/-! ## 2. Commands -/

/-- The list of commands is made of aligned blocks. -/
theorem aligned_commandList (commands : List Command) :
    ∃ blocks body, Grouping (visible commands) blocks ∧ Stacked IsBlock blocks body ∧
      commandList commands = "COMMANDS:\n" ++ row "   " 0 helpEntry ++ body ++ "\n" :=
  ⟨blocks (visible commands), _, grouping_blocks _, stacked_blocks _, rfl⟩

/-- The rows of the subcommands that do something, and of help. -/
def leafEntries (shown : List Command) : List (String × String) :=
  (shown.filter fun c => !c.isGroup).map entry ++ [helpEntry]

/-- The list of subcommands is made of two aligned parts. -/
theorem stacked_subcommandList {command : Command} (h : command.isGroup = true) :
    let leaves := leafEntries (visible command.subcommands)
    let groups := (visible command.subcommands).filter Command.isGroup
    ∃ above below, Stacked (IsRow "   " (rightOffset "   " leaves)) leaves above ∧
      Stacked (IsGroupRow (rightOffset "     " (groups.map entry))) groups below ∧
      subcommandList command = "COMMANDS:\n" ++ above ++ below ++ "\n" := by
  intro leaves groups
  have hwidth : Text.width ((groups.map entry).map Prod.fst) = Text.width (groups.map (·.name)) := by
    rw [List.map_map]
    rfl
  refine ⟨_, _, stacked_table "   " leaves, ?_, by rw [subcommandList, h]; rfl⟩
  rw [rightOffset, hwidth]
  exact stacked_groupRows (fun c hc => Text.length_le_width (List.mem_map_of_mem hc)) none

/-! ## 3. Flags -/

/-- The rows of flags. -/
def flagEntries (fs : FlagList) : List (String × String) :=
  (fs.filter fun f => !f.hidden).map fun f => (f.column, f.description)

/-- The list of flags is an aligned table. -/
theorem stacked_flagList (title : String) {fs : FlagList} (h : fs ≠ []) :
    ∃ rows, Stacked (IsRow "   " (rightOffset "   " (flagEntries fs))) (flagEntries fs) rows ∧
      flagList title fs = title ++ ":\n" ++ rows ++ "\n" := by
  refine ⟨_, stacked_table "   " (flagEntries fs), ?_⟩
  rw [flagList, List.isEmpty_eq_false_iff.2 h]
  rfl

/-! ## 4. What is hidden -/

/-- Commands that are hidden play no part. -/
theorem commandList_congr {cs cs' : List Command} (h : visible cs' = visible cs) :
    commandList cs' = commandList cs := by
  rw [commandList, commandList, h]

theorem subcommandList_congr {command command' : Command} (hgroup : command'.isGroup = command.isGroup)
    (h : visible command'.subcommands = visible command.subcommands) :
    subcommandList command' = subcommandList command := by
  unfold subcommandList
  rw [hgroup, h]

theorem flagList_congr (title : String) {fs fs' : FlagList} (hempty : fs'.isEmpty = fs.isEmpty)
    (h : (fs'.filter fun f => !f.hidden) = fs.filter fun f => !f.hidden) :
    flagList title fs' = flagList title fs := by
  unfold flagList
  rw [hempty, h]

/-! ## 5. All tables -/

/-- **The right column of a table begins at one offset.**

    Take any commands or flags, with whatever characters in their names, aliases and descriptions. In each
    block of the list of commands, in both parts of the list of subcommands (with the row for help, and
    across the headings between groups), and in the list of flags, all rows have their right entry at the
    same offset, in characters, and two blanks at least behind their left entry. The offset is that of the
    entries that are shown, and at least two characters behind the longest of them; and what is hidden
    changes nothing in the text at all, except that there is a list as soon as there is something to
    hide. -/
theorem columns_aligned :
    (∀ indent entries, ∀ e ∈ entries, indent.length + e.1.length + 2 ≤ rightOffset indent entries) ∧
    (∀ commands, ∃ blocks body, Grouping (visible commands) blocks ∧ Stacked IsBlock blocks body ∧
      commandList commands = "COMMANDS:\n" ++ row "   " 0 helpEntry ++ body ++ "\n") ∧
    (∀ command : Command, command.isGroup = true →
      let leaves := leafEntries (visible command.subcommands)
      let groups := (visible command.subcommands).filter Command.isGroup
      ∃ above below, Stacked (IsRow "   " (rightOffset "   " leaves)) leaves above ∧
        Stacked (IsGroupRow (rightOffset "     " (groups.map entry))) groups below ∧
        subcommandList command = "COMMANDS:\n" ++ above ++ below ++ "\n") ∧
    (∀ title (fs : FlagList), fs ≠ [] →
      ∃ rows, Stacked (IsRow "   " (rightOffset "   " (flagEntries fs))) (flagEntries fs) rows ∧
        flagList title fs = title ++ ":\n" ++ rows ++ "\n") ∧
    (∀ cs cs', visible cs' = visible cs → commandList cs' = commandList cs) ∧
    (∀ command command' : Command, command'.isGroup = command.isGroup →
      visible command'.subcommands = visible command.subcommands →
      subcommandList command' = subcommandList command) ∧
    (∀ title (fs fs' : FlagList), fs'.isEmpty = fs.isEmpty →
      ((fs'.filter fun f => !f.hidden) = fs.filter fun f => !f.hidden) →
      flagList title fs' = flagList title fs) :=
  ⟨fun _ _ _ => le_rightOffset, aligned_commandList, fun _ => stacked_subcommandList,
    fun title _ => stacked_flagList title, fun _ _ => commandList_congr, fun _ _ => subcommandList_congr,
    fun title _ _ => flagList_congr title⟩

/-- A group with a short name of many bytes, a long name that is hidden, and a group below it. -/
def cities : Command where
  name := "cities"
  subcommands :=
    [{ name := "東京", usage := "the capital" },
     { name := "a-name-that-is-not-shown", hidden := true },
     { name := "münchen", usage := "and around", category := "BY", subcommands := [{ name := "list" }] }]

/-- A flag with characters of several bytes, and one that is hidden. -/
def sizes : FlagList :=
  [{ name := "größe", aliases := ["g"], usage := "in `ÄPFELN`", content := .number 3 },
   { name := "a-name-that-is-not-shown", hidden := true, content := .truth false }]

/-- The row for help is the longest above, what is hidden does not count, and the offset of flags is one of
    bytes. -/
theorem columns_aligned_cities :
    cities.isGroup = true ∧ sizes ≠ [] ∧
    (∃ above below, Stacked (IsRow "   " 12) [("東京", "the capital"), helpEntry] above ∧
      Stacked (IsGroupRow 15) (cities.subcommands.drop 2) below ∧
      subcommandList cities = "COMMANDS:\n" ++ above ++ below ++ "\n") ∧
    (∃ rows, Stacked (IsRow "   " 34) [("--größe ÄPFELN, -g ÄPFELN", "in ÄPFELN")] rows ∧
      flagList "OPTIONS" sizes = "OPTIONS" ++ ":\n" ++ rows ++ "\n") ∧
    subcommandList { cities with subcommands := cities.subcommands.eraseIdx 1 } = subcommandList cities := by
  obtain ⟨_, _, hsubcommands, hflags, _, hsame, _⟩ := columns_aligned
  have hentries : flagEntries sizes = [("--größe ÄPFELN, -g ÄPFELN", "in ÄPFELN")] := by decide +kernel
  have hoffset : rightOffset "   " (flagEntries sizes) = 34 := by decide +kernel
  have hrows := hflags "OPTIONS" sizes (List.cons_ne_nil _ _)
  rw [hoffset, hentries] at hrows
  exact ⟨rfl, List.cons_ne_nil _ _, hsubcommands cities rfl, hrows, hsame _ _ rfl rfl⟩

end BrokerCli.Help
