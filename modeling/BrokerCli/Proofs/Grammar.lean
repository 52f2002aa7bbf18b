import BrokerCli.CommandLine

/-!
# The grammar of command lines

A command line, read from left to right as a list of PARTS. The loops of the reader
(`Globals.read`, `Descent.walk`) work on a cursor that can put an argument back; the grammar knows
no cursor, only lists:

* `Segment`, `Part` -- the parts, each with the arguments that it is (`Part.arguments`);
* `Entry`, `Ledger` -- a declared flag with everything that a command line gives it. The flag itself
  is the reset declaration with the contents given one after the other, so that the LAST one counts
  (`Entry.flag_eq`);
* `Takes` -- which value a flag takes, and what it becomes;
* `Enters`, `EntersAll` -- an option is entered at the FIRST flag that answers to it;
* `Walked`, `Walks` -- the commands of the chain with the ledger of all their flags;
* `Split`, `Split.Reads` -- a whole command line in its parts.
-/

namespace BrokerCli.Grammar

/-! ## 1. Parts -/

/-- An option: the argument that names it, and the argument that is its value, if it has one. -/
structure Segment where
  arg : String
  value : Option String
deriving DecidableEq, Repr

/-- The arguments of an option. -/
def Segment.arguments (s : Segment) : List String := s.arg :: s.value.toList

/-- A part of what stands behind a command of the tool. -/
inductive Part where
  | option (s : Segment)
  | subcommand (name : String)
  | argument (text : String)
deriving DecidableEq, Repr

namespace Part

/-- The arguments of a part. -/
def arguments : Part → List String
  | option s => s.arguments
  | subcommand name => [name]
  | argument text => [text]

/-- The name of a part that is a subcommand. -/
def subcommand? : Part → Option String
  | subcommand name => some name
  | _ => none

/-- The text of a part that is an argument. -/
def argument? : Part → Option String
  | argument text => some text
  | _ => none

end Part

/-! ## 2. Ledgers -/

/-- A declared flag with the contents that a command line gives it, in order. -/
structure Entry where
  blueprint : Flag
  given : List FlagContent := []
deriving DecidableEq

namespace Entry

/-- The flag that comes of the declaration: its reset copy, given the contents in order. -/
def flag (e : Entry) : Flag := e.given.foldl Flag.setTo e.blueprint.reset

theorem foldl_setTo_eq (f : Flag) (cs : List FlagContent) :
    cs.foldl Flag.setTo f = (cs.getLast?).elim f f.setTo := by
  induction cs generalizing f with
  | nil => rfl
  | cons c cs ih =>
    rw [List.foldl_cons, ih]
    cases h : cs.getLast? with
    | none =>
      rw [List.getLast?_eq_none_iff] at h
      subst h
      rfl
    | some last =>
      have hl : (c :: cs).getLast? = some last := by
        rw [List.getLast?_cons, h]
        rfl
      rw [hl]
      rfl

/-- **Of all contents that a flag is given the last one counts.** -/
theorem flag_eq (e : Entry) :
    e.flag = (e.given.getLast?).elim e.blueprint.reset e.blueprint.reset.setTo :=
  foldl_setTo_eq _ _

@[simp] theorem name_flag (e : Entry) : e.flag.name = e.blueprint.name := by
  rw [flag_eq]
  cases e.given.getLast? <;> rfl

theorem flag_snoc (e : Entry) (c : FlagContent) :
    Entry.flag { e with given := e.given ++ [c] } = e.flag.setTo c := by
  simp [flag, List.foldl_append]

end Entry

/-- The declared flags, each with what it is given. -/
abbrev Ledger := List Entry

namespace Ledger

/-- The flags of a ledger. -/
def flags (l : Ledger) : FlagList := l.map Entry.flag

/-- Flags that are declared and given nothing yet. -/
def declare (fs : FlagList) : Ledger := fs.map fun f => { blueprint := f }

/-- The ledger with one more content at the first flag that answers to an option. -/
def record (o : OptionToken) (c : FlagContent) : Ledger → Ledger
  | [] => []
  | e :: es =>
    if e.flag.answers o then { e with given := e.given ++ [c] } :: es else e :: record o c es

/-- The ledger without the flags of a name. -/
def without (l : Ledger) (name : String) : Ledger := l.filter fun e => e.blueprint.name ≠ name

@[simp] theorem flags_append (l m : Ledger) : flags (l ++ m) = l.flags ++ m.flags :=
  List.map_append

@[simp] theorem flags_declare (fs : FlagList) : flags (declare fs) = fs.reset := by
  simp only [flags, declare, FlagList.reset, List.map_map]
  rfl

@[simp] theorem flags_without (l : Ledger) (name : String) :
    flags (l.without name) = l.flags.without name := by
  unfold flags without FlagList.without
  rw [List.filter_map]
  congr 1
  refine List.filter_congr fun e _ => ?_
  simp only [Function.comp, Entry.name_flag]

/-- What is recorded is an exchange of the first flag that answers. -/
theorem flags_record {l : Ledger} {o : OptionToken} {f : Flag} (c : FlagContent)
    (hf : l.flags.find? (·.answers o) = some f) :
    (l.record o c).flags = FlagList.replace (·.answers o) (f.setTo c) l.flags := by
  induction l with
  | nil => rfl
  | cons e es ih =>
    by_cases he : e.flag.answers o = true
    · have hef : e.flag = f := by simpa [flags, List.find?, he] using hf
      rw [record, if_pos he, flags, flags, List.map_cons, List.map_cons, Entry.flag_snoc, hef,
        FlagList.replace, if_pos (hef ▸ he)]
    · have hes : List.find? (·.answers o) (flags es) = some f := by
        simpa [flags, List.find?, he] using hf
      rw [record, if_neg he, flags, flags, List.map_cons, List.map_cons, FlagList.replace,
        if_neg he]
      exact congrArg _ (ih hes)

/-- What is recorded changes no declaration. -/
@[simp] theorem blueprints_record (o : OptionToken) (c : FlagContent) (l : Ledger) :
    (l.record o c).map Entry.blueprint = l.map Entry.blueprint := by
  induction l with
  | nil => rfl
  | cons e es ih =>
    unfold record
    split
    · rfl
    · rw [List.map_cons, List.map_cons, ih]

end Ledger

/-! ## 3. Options -/

/-- The value that a flag takes where `rest` follows, and the content that it gets:
    a flag for texts or numbers takes one argument, a flag for truth values takes one that names a
    truth value, and no other. -/
inductive Takes (f : Flag) : Option String → List String → FlagContent → Prop where
  | text {old : String} {features : TextFeatures} {s : String} {rest : List String}
      (hf : f.content = .text old features) : Takes f (some s) rest (.text s features)
  | number {old n : Int64} {s : String} {rest : List String} (hf : f.content = .number old)
      (hs : Text.readInt64? s = some n) : Takes f (some s) rest (.number n)
  | word {old b : Bool} {s : String} {rest : List String} (hf : f.content = .truth old)
      (hs : Flag.truthWord? s = some b) : Takes f (some s) rest (.truth b)
  | bare {old : Bool} {rest : List String} (hf : f.content = .truth old)
      (hr : rest.head?.bind Flag.truthWord? = none) : Takes f none rest (.truth true)

/-- An option before `rest` is entered in a ledger: at the first flag that answers to it. -/
inductive Enters (l : Ledger) (s : Segment) (rest : List String) : Ledger → Prop where
  | intro {o : OptionToken} {f : Flag} {c : FlagContent}
      (ho : OptionToken.ofArgument? s.arg = some o) (hf : l.flags.find? (·.answers o) = some f)
      (hc : Takes f s.value rest c) : Enters l s rest (l.record o c)

/-- Options before `rest` are entered in a ledger, one after the other. -/
inductive EntersAll : Ledger → List Segment → List String → Ledger → Prop where
  | nil (l : Ledger) (rest : List String) : EntersAll l [] rest l
  | cons {l l' l'' : Ledger} {s : Segment} {ss : List Segment} {rest : List String}
      (hs : Enters l s (ss.flatMap Segment.arguments ++ rest) l') (hss : EntersAll l' ss rest l'') :
      EntersAll l (s :: ss) rest l''

theorem Enters.blueprints {l l' : Ledger} {s : Segment} {rest : List String}
    (h : Enters l s rest l') : l'.map Entry.blueprint = l.map Entry.blueprint := by
  cases h
  exact Ledger.blueprints_record _ _ _

/-! ## 4. Commands -/

/-- The commands that were walked through, with the ledger of their flags and the arguments read. -/
structure Walked where
  /-- The command of the tool. -/
  first : Command
  /-- The subcommands below it, in the order of the walk. -/
  below : List Command
  ledger : Ledger
  args : List String

namespace Walked

/-- All commands of the walk. -/
def levels (w : Walked) : List Command := w.first :: w.below

/-- The command reached. -/
def command (w : Walked) : Command := w.below.getLastD w.first

/-- The flags that a command declares, with help behind them. -/
def declared (c : Command) : FlagList := c.flags ++ [.help]

/-- At a command of the tool. -/
def start (c : Command) : Walked where
  first := c
  below := []
  ledger := .declare (declared c)
  args := []

/-- One level further down: the flags of help begin anew, those of the command join the others. -/
def down (w : Walked) (c : Command) : Walked where
  first := w.first
  below := w.below ++ [c]
  ledger := w.ledger.without "help" ++ .declare (declared c)
  args := w.args

/-- What the walk comes to for the reader. -/
def descent (w : Walked) : Descent where
  command := w.command
  category := w.first.category
  chain := w.levels.map (·.name)
  flags := w.ledger.flags
  required := w.levels.flatMap (·.required)
  args := w.args

@[simp] theorem levels_down (w : Walked) (c : Command) : (w.down c).levels = w.levels ++ [c] := rfl

@[simp] theorem command_down (w : Walked) (c : Command) : (w.down c).command = c := by
  simp [command, down]

theorem flags_declared (c : Command) : FlagList.reset (declared c) = Descent.flagsOf c := by
  simp only [declared, FlagList.reset, List.map_append, Descent.flagsOf]
  rfl

@[simp] theorem descent_start (c : Command) : (start c).descent = Descent.start c := by
  simp only [descent, start, levels, command, Descent.start, Ledger.flags_declare, flags_declared,
    List.getLastD_nil, List.map_cons, List.map_nil, List.flatMap_cons, List.flatMap_nil,
    List.append_nil]

@[simp] theorem descent_down (w : Walked) (c : Command) :
    (w.down c).descent = w.descent.down c := by
  simp only [descent, Descent.down, levels_down, command_down, List.map_append, List.map_cons,
    List.map_nil, List.flatMap_append, List.flatMap_cons, List.flatMap_nil, List.append_nil]
  simp only [down, Ledger.flags_append, Ledger.flags_without, Ledger.flags_declare, flags_declared]

/-- The flags that commands declare on the way down, as they add up. -/
def accumulated : List Command → FlagList
  | [] => []
  | c :: cs => cs.foldl (fun fs c => FlagList.without fs "help" ++ declared c) (declared c)

theorem accumulated_down (w : Walked) (c : Command) :
    accumulated (w.down c).levels =
      FlagList.without (accumulated w.levels) "help" ++ declared c := by
  rw [levels_down]
  simp only [levels, accumulated, List.cons_append, List.foldl_append, List.foldl_cons,
    List.foldl_nil]

end Walked

/-- The way from one walk to another along parts. -/
inductive Walks : Walked → List Part → Walked → Prop where
  | done (w : Walked) : Walks w [] w
  | option {w w' : Walked} {l : Ledger} {s : Segment} {parts : List Part}
      (hs : Enters w.ledger s (parts.flatMap Part.arguments) l) (hh : l.flags.isSet "help" = false)
      (rest : Walks { w with ledger := l } parts w') : Walks w (.option s :: parts) w'
  | subcommand {w w' : Walked} {c : Command} {name : String} {parts : List Part}
      (hn : OptionToken.ofArgument? name = none) (hg : w.command.isGroup = true)
      (hc : Command.find? w.command.subcommands name = some c)
      (rest : Walks (w.down c) parts w') : Walks w (.subcommand name :: parts) w'
  | argument {w w' : Walked} {text : String} {parts : List Part}
      (hn : OptionToken.ofArgument? text = none) (hg : w.command.isGroup = false)
      (rest : Walks { w with args := w.args ++ [text] } parts w') :
      Walks w (.argument text :: parts) w'

namespace Walks

variable {w w' : Walked} {parts : List Part}

/-- The chain is the subcommands in order. -/
theorem names (h : Walks w parts w') :
    w'.levels.map (·.name) = w.levels.map (·.name) ++ parts.filterMap Part.subcommand? := by
  induction h with
  | done => simp
  | option _ _ _ ih => exact ih
  | @subcommand w _ c name _ _ _ hc _ ih =>
    rw [ih, Walked.levels_down]
    simp [Part.subcommand?, Command.name_of_find? hc]
  | argument _ _ _ ih => exact ih

/-- The arguments are those of the parts, in order. -/
theorem args (h : Walks w parts w') : w'.args = w.args ++ parts.filterMap Part.argument? := by
  induction h with
  | done => simp
  | option _ _ _ ih => exact ih
  | subcommand _ _ _ _ ih => exact ih
  | argument _ _ _ ih =>
    rw [ih]
    simp [Part.argument?]

/-- The ledger holds the declarations of all commands walked through, and no other. -/
theorem blueprints (h : Walks w parts w')
    (hw : w.ledger.map Entry.blueprint = Walked.accumulated w.levels) :
    w'.ledger.map Entry.blueprint = Walked.accumulated w'.levels := by
  induction h with
  | done => exact hw
  | option hs _ _ ih => exact ih (hs.blueprints.trans hw)
  | @subcommand w _ c _ _ _ _ _ _ ih =>
    refine ih ?_
    have hf : (w.ledger.without "help").map Entry.blueprint =
        FlagList.without (Walked.accumulated w.levels) "help" := by
      rw [← hw]
      simp only [Ledger.without, FlagList.without, List.filter_map]
      rfl
    have hd (fs : FlagList) : (Ledger.declare fs).map Entry.blueprint = fs := by
      simp only [Ledger.declare, List.map_map]
      exact List.map_id fs
    rw [Walked.accumulated_down]
    simp only [Walked.down, List.map_append, hf, hd]
  | argument _ _ _ ih => exact ih hw

end Walks

/-! ## 5. Whole command lines -/

/-- A command line in its parts. -/
structure Split where
  program : String
  /-- The options of the tool. -/
  globals : List Segment
  /-- The command of the tool. -/
  command : Command
  parts : List Part

namespace Split

/-- What stands behind the command of the tool. -/
def behind (s : Split) : List String := s.parts.flatMap Part.arguments

/-- What stands behind the program's name. -/
def body (s : Split) : List String :=
  s.globals.flatMap Segment.arguments ++ s.command.name :: s.behind

/-- The whole command line. -/
def arguments (s : Split) : List String := s.program :: s.body

/-- The split is one that the tool reads, with the ledgers that come of it. -/
structure Reads (app : App) (s : Split) (globals : Ledger) (w : Walked) : Prop where
  /-- The trigger of completion does not occur. -/
  untriggered : Completion.trigger ∉ s.body
  /-- The first argument does not ask for the version. -/
  unasked : Version.answer? app.version s.body.head? = none
  entered : EntersAll (.declare (app.flags ++ [.help, .version])) s.globals
    (s.command.name :: s.behind) globals
  noOption : OptionToken.ofArgument? s.command.name = none
  noHelp : CommandLine.asksHelp s.command.name = false
  found : Command.find? app.commands s.command.name = some s.command
  noGroupHelp : s.command.isGroup = true → Descent.asksHelp s.behind.head? = false
  walked : Walks (.start s.command) s.parts w

end Split

end BrokerCli.Grammar
