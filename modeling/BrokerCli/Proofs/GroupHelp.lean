import BrokerCli.Proofs.HelpOption

/-!
# Asking a group for help

A group of commands does nothing itself, and so a command line that ends at a group asks for its page; and so
does one that goes on with a single word for help. The reader looks for this once, behind the first command
and before it walks further down. A group below it is read like a command that is to be run:

* `IsName` -- an argument that is read as a name;
* `Descent.Leads` -- names lead down from a command (`walk_of_leads`, by induction on the names);
* `CommandLine.AsksGroup` -- a command line that is names leading to a group, and nothing or one word for help
  behind them;
* `App.run_of_group` -- a group of the tool shows its page, and nothing else happens. A group below it shows its
  page only when the checks have passed and the clients are made; and behind it a word for help is looked up
  like any other name;
* `App.group_help_unknown` -- so it is not at every depth that a group shows its page.
-/

namespace BrokerCli

/-! ## 1. Names -/

/-- The argument is read as a name: it is no option. -/
abbrev IsName (arg : String) : Prop := OptionToken.ofArgument? arg = none

namespace IsName

variable {arg : String}

theorem ne_trigger (h : IsName arg) : arg ≠ Completion.trigger := by
  rintro rfl
  exact absurd h (by decide)

/-- No name asks for the version. -/
theorem answer?_eq_none (h : IsName arg) (version : String) :
    Version.answer? version (some arg) = none := by
  unfold Version.answer?
  split
  · rename_i hv
    exact absurd (Option.some.inj hv ▸ h) (by decide)
  · rename_i hv
    exact absurd (Option.some.inj hv ▸ h) (by decide)
  · rename_i hv
    exact absurd (Option.some.inj hv ▸ h) (by decide)
  · rfl

/-- A word that asks for help is a name. -/
theorem of_asksHelp (h : CommandLine.asksHelp arg = true) : IsName arg := by
  rcases Bool.or_eq_true_iff.1 h with h | h
  · rw [of_decide_eq_true h]
    decide
  · rw [of_decide_eq_true h]
    decide

end IsName

/-! ## 2. The way down by names -/

/-- Names lead down from a command, each to a subcommand of the one before. -/
inductive Descent.Leads : Descent → List String → Descent → Prop where
  | here (d : Descent) : Leads d [] d
  | down {d e : Descent} {sub : Command} {name : String} {names : List String} (hname : IsName name)
      (hs : Command.find? d.command.subcommands name = some sub) (h : Leads (d.down sub) names e) :
      Leads d (name :: names) e

namespace Descent

variable {d e : Descent} {sub : Command} {c : Cursor} {name : String} {names rest : List String}

theorem isGroup_of_find? (h : Command.find? d.command.subcommands name = some sub) :
    d.command.isGroup = true := by
  unfold Command.isGroup
  cases hs : d.command.subcommands with
  | nil =>
    rw [hs] at h
    cases h
  | cons _ _ => rfl

/-- Names add themselves to the chain, and nothing to the arguments. -/
theorem Leads.frame (h : d.Leads names e) : e.chain = d.chain ++ names ∧ e.category = d.category ∧
    e.args = d.args := by
  induction h with
  | here d => exact ⟨(List.append_nil _).symm, rfl, rfl⟩
  | @down d e sub name names hname hs h ih =>
    obtain ⟨hchain, hcategory, hargs⟩ := ih
    refine ⟨?_, hcategory, hargs⟩
    have hdown : (d.down sub).chain = d.chain ++ [name] := by
      rw [← Command.name_of_find? hs]
      rfl
    rw [hchain, hdown, List.append_assoc]
    rfl

theorem Leads.isName (h : d.Leads names e) : ∀ n ∈ names, IsName n := by
  induction h with
  | here d => exact fun _ hn => nomatch hn
  | down hname _ _ ih => exact List.forall_mem_cons.2 ⟨hname, ih⟩

/-- **Names are walked along**, whatever stands behind them. -/
theorem walk_of_leads (h : d.Leads names e) (hc : c.unread = names ++ rest)
    (ht : Completion.trigger ∉ c.unread) :
    ∃ behind, behind.unread = rest ∧ walk d c = walk e behind := by
  induction h generalizing c with
  | here d => exact ⟨c, hc, rfl⟩
  | @down d e sub name names hname hs h ih =>
    obtain ⟨behind, hn, hbehind⟩ := Cursor.next_of_unread hc
    have hdown : walk d c = walk (d.down sub) behind := by
      rw [walk_of_noOption hn ht hname, if_pos (isGroup_of_find? hs), hs]
    have htriggerless : Completion.trigger ∉ behind.unread := by
      intro hmem
      rw [Cursor.unread_of_next hn] at ht
      exact ht (List.mem_cons_of_mem _ hmem)
    obtain ⟨last, hlast, hwalk⟩ := ih hbehind htriggerless
    exact ⟨last, hlast, hdown.trans hwalk⟩

/-- In a group a name that is none of its subcommands leads nowhere. -/
theorem walk_of_unknown (hc : c.unread = [name]) (hname : IsName name) (hg : d.command.isGroup = true)
    (hs : Command.find? d.command.subcommands name = none) :
    walk d c = (d, .failed (.unknownSubcommand name)) := by
  obtain ⟨behind, hn, _⟩ := Cursor.next_of_unread hc
  have ht : Completion.trigger ∉ c.unread := by
    rw [hc, List.mem_singleton]
    exact hname.ne_trigger.symm
  rw [walk_of_noOption hn ht hname, if_pos hg, hs]

end Descent

/-! ## 3. Command lines of names -/

namespace CommandLine

/-- The arguments behind the program's name are names that lead to a group, and behind them is nothing or one
    word that asks for help. -/
structure AsksGroup (app : App) (name : String) (names tail : List String) (top : Command) (d : Descent) :
    Prop where
  found : Command.find? app.commands name = some top
  leads : (Descent.start top).Leads names d
  group : d.command.isGroup = true
  isName : IsName name
  /-- None of the names itself asks for help. -/
  named : ∀ n ∈ name :: names, asksHelp n = false
  tail : tail = [] ∨ ∃ word, tail = [word] ∧ asksHelp word = true

/-- What is read of the tool's options where there are none. -/
def nameOpening (app : App) (program : String) (arguments : List String) : Opening :=
  ⟨program, Globals.flags app, ⟨program :: arguments, 1⟩⟩

namespace AsksGroup

variable {app : App} {name : String} {names tail : List String} {top : Command} {d : Descent}

theorem untriggered (h : AsksGroup app name names tail top d) :
    Completion.trigger ∉ name :: (names ++ tail) := by
  have htail : ∀ arg ∈ tail, IsName arg := by
    intro arg harg
    rcases h.tail with hnone | ⟨word, hword, hasks⟩
    · rw [hnone] at harg
      cases harg
    · rw [hword, List.mem_singleton] at harg
      exact .of_asksHelp (harg ▸ hasks)
  intro hmem
  rcases List.mem_cons.1 hmem with rfl | hmem
  · exact h.isName.ne_trigger rfl
  rcases List.mem_append.1 hmem with hmem | hmem
  · exact (h.leads.isName _ hmem).ne_trigger rfl
  · exact (htail _ hmem).ne_trigger rfl

/-- The line has no option of the tool. -/
theorem opening?_eq (h : AsksGroup app name names tail top d) (program : String) :
    opening? app (program :: name :: (names ++ tail)) =
      some (nameOpening app program (name :: (names ++ tail))) := by
  have ht := h.untriggered
  have hread : Globals.read (Globals.flags app) ⟨program :: name :: (names ++ tail), 1⟩ =
      (Globals.flags app, .reached ⟨program :: name :: (names ++ tail), 1⟩) :=
    Globals.read_of_noOption (c := ⟨program :: name :: (names ++ tail), 1⟩) rfl ht h.isName
  have hcursor : (Cursor.mk (program :: name :: (names ++ tail)) 0).next =
      (some program, ⟨program :: name :: (names ++ tail), 1⟩) := rfl
  have hpeek : (Cursor.mk (program :: name :: (names ++ tail)) 1).peek? = some name := rfl
  unfold opening?
  rw [hcursor]
  dsimp only
  rw [hpeek, if_neg fun h' => h.isName.ne_trigger (Option.some.inj h'), answerNext_behind,
    List.head?_cons, h.isName.answer?_eq_none]
  dsimp only
  rw [hread]
  rfl

/-- Behind a group of the tool the reader finds that its page is asked for. -/
theorem read_first (h : AsksGroup app name [] tail top d) {c : Cursor} (hc : c.unread = tail) :
    Descent.read top c = (d, .help) := by
  have hstart : d = Descent.start top := by
    cases h.leads
    rfl
  have hasks : Descent.asksHelp c.peek? = true := by
    rw [Cursor.peek?_eq_head?_unread, hc]
    rcases h.tail with rfl | ⟨word, rfl, hword⟩
    · rfl
    · exact hword
  have hgroup : top.isGroup = true := by
    have hd := h.group
    rw [hstart] at hd
    exact hd
  rw [Descent.read, hasks, hgroup, hstart]
  rfl

/-- Where a name follows, the reader walks down. -/
theorem read_deeper (h : AsksGroup app name names tail top d) (hnames : names ≠ []) {c : Cursor}
    (hc : c.unread = names ++ tail) :
    ∃ behind, behind.unread = tail ∧ Descent.read top c = Descent.walk d behind := by
  obtain ⟨behind, hbehind, hwalk⟩ := Descent.walk_of_leads h.leads hc fun hmem =>
    h.untriggered (List.mem_cons_of_mem _ (hc ▸ hmem))
  have hasks : Descent.asksHelp c.peek? = false := by
    rw [Cursor.peek?_eq_head?_unread, hc]
    cases names with
    | nil => exact absurd rfl hnames
    | cons first names => exact h.named first (List.mem_cons_of_mem _ List.mem_cons_self)
  refine ⟨behind, hbehind, ?_⟩
  rw [Descent.read, hasks, Bool.false_and, if_neg Bool.false_ne_true, hwalk]

theorem tail_chain (h : AsksGroup app name names tail top d) : d.chain.tail = names := by
  rw [h.leads.frame.1]
  rfl

theorem isName_word {word : String} (h : AsksGroup app name names [word] top d) : IsName word := by
  rcases h.tail with hnone | ⟨_, hword, hasks⟩
  · cases hnone
  · cases hword
    exact .of_asksHelp hasks

/-! ## 4. What is read behind the tool's options -/

variable {program : String} {globals : FlagList} {c behind : Cursor}

/-- A group of the tool shows its page at once. -/
theorem readBehindGlobals_first (h : AsksGroup app name [] tail top d) (hc : c.unread = name :: tail)
    (q : Execution) :
    (readBehindGlobals app program globals c).perform q = (.ok none,
      q.emit (.printed (pageOf ⟨program, globals, c⟩ d q.session.settings))) := by
  obtain ⟨behind, hn, hbehind⟩ := Cursor.next_of_unread hc
  have hhelp : asksHelp name = false := h.named name List.mem_cons_self
  have hread := h.read_first hbehind
  have hwalked := h.tail_chain
  unfold readBehindGlobals
  simp only [hn, hhelp, h.isName.ne_trigger, Bool.false_eq_true, if_false, findCommand, h.found,
    readCommand, hread, hwalked, logWalk, Run.perform_bind, Run.perform_adapt, Run.perform_lift,
    Run.perform_pure, Run.mapError_ok]
  rfl

/-- A group below it, with nothing behind it, is a command that was read to its end. -/
theorem lineBehindGlobals?_deeper (h : AsksGroup app name names [] top d) (hnames : names ≠ [])
    (hc : c.unread = name :: names) :
    lineBehindGlobals? app program globals c = some ⟨program, globals, d⟩ := by
  obtain ⟨behind, hn, hbehind⟩ := Cursor.next_of_unread hc
  obtain ⟨last, hlast, hread⟩ := h.read_deeper hnames (hbehind.trans (List.append_nil names).symm)
  have hhelp : asksHelp name = false := h.named name List.mem_cons_self
  unfold lineBehindGlobals?
  simp only [hn, hhelp, h.isName.ne_trigger, Bool.false_eq_true, or_self, if_false, h.found, hread,
    Descent.walk_of_unread_nil hlast]

/-- A word that asks for help is looked up there like any other name. -/
theorem readBehindGlobals_word {word : String} (h : AsksGroup app name names [word] top d)
    (hnames : names ≠ []) (hc : c.unread = name :: (names ++ [word]))
    (hs : Command.find? d.command.subcommands word = none) (q : Execution) :
    (readBehindGlobals app program globals c).perform q =
      (.error (.command (.descent (.unknownSubcommand word))), ((logWalk names).perform q).2) := by
  obtain ⟨behind, hn, hbehind⟩ := Cursor.next_of_unread hc
  obtain ⟨last, hlast, hread⟩ := h.read_deeper hnames hbehind
  have hhelp : asksHelp name = false := h.named name List.mem_cons_self
  have hfailed := Descent.walk_of_unknown hlast h.isName_word h.group hs
  have hwalked := h.tail_chain
  unfold readBehindGlobals
  simp only [hn, hhelp, h.isName.ne_trigger, Bool.false_eq_true, if_false, findCommand, h.found,
    readCommand, hread, hfailed, hwalked, Run.perform_bind, Run.perform_adapt, Run.perform_lift,
    Run.perform_throw]
  rfl

/-- Where there is a subcommand of that name, the word leads down to it. -/
theorem lineBehindGlobals?_word {word : String} {sub : Command}
    (h : AsksGroup app name names [word] top d) (hnames : names ≠ [])
    (hc : c.unread = name :: (names ++ [word]))
    (hs : Command.find? d.command.subcommands word = some sub) :
    lineBehindGlobals? app program globals c = some ⟨program, globals, d.down sub⟩ := by
  obtain ⟨behind, hn, hbehind⟩ := Cursor.next_of_unread hc
  obtain ⟨last, hlast, hread⟩ := h.read_deeper hnames hbehind
  have hhelp : asksHelp name = false := h.named name List.mem_cons_self
  have ht : Completion.trigger ∉ last.unread := by
    rw [hlast, List.mem_singleton]
    exact h.isName_word.ne_trigger.symm
  obtain ⟨last', hlast', hwalk⟩ := Descent.walk_of_leads (.down h.isName_word hs (.here _))
    (hlast.trans (List.append_nil _).symm) ht
  unfold lineBehindGlobals?
  simp only [hn, hhelp, h.isName.ne_trigger, Bool.false_eq_true, or_self, if_false, h.found, hread, hwalk,
    Descent.walk_of_unread_nil hlast']

end AsksGroup

end CommandLine

/-! ## 5. What becomes of them -/

namespace App

open CommandLine

variable {app : App} {name : String} {names tail : List String} {top : Command} {d : Descent}

theorem getLast?_ne_trigger (h : AsksGroup app name names tail top d) (program : String) :
    (program :: name :: (names ++ tail)).getLast? ≠ some Completion.trigger := by
  rw [List.getLast?_cons_cons]
  exact fun hlast => h.untriggered (List.mem_of_getLast? hlast)

/-- A line at whose end no completions are asked for fails as its reading does. -/
theorem perform_conclude_error {argv : List String} (hlast : argv.getLast? ≠ some Completion.trigger)
    (e : ParseError) (q : Execution) : (conclude argv (.error e)).perform q = (.error (.parse e), q) := by
  show (if argv.getLast? = some Completion.trigger then pure () else throw (.parse e) :
    Run RunError Unit).perform q = _
  rw [if_neg hlast]
  rfl

/-- The page of a command that is ready is that of the way down to it. -/
theorem perform_dispatch_of_connect {o : Opening} {checked : Descent} {prepared : Prepared}
    {p q : Execution} (hgroup : checked.command.isGroup = true)
    (h : (connect o.program (belowTool o.globals) checked).perform p = (.ok prepared, q)) :
    (dispatch prepared).perform q = (.ok (), q.emit (.printed (pageOf o checked q.session.settings))) := by
  obtain ⟨hcommand, hprogram, hglobals, hchain, _, hflags, _⟩ := prepared_of_connect h
  have hcategory : prepared.category = checked.category := by
    unfold connect at h
    rw [Run.perform_bind] at h
    split at h
    · cases h
      rfl
    · cases h
  have hchainText : prepared.invocation.chainText =
      (invocation o.program (belowTool o.globals) checked).chainText := by
    unfold Invocation.chainText
    rw [hchain]
    rfl
  have hprinted : (printCommandHelp prepared.command prepared.category prepared.invocation).perform q =
      ((), q.emit (.printed (Help.commandPage prepared.invocation.program prepared.invocation.chainText
        prepared.category prepared.command prepared.invocation.flags prepared.invocation.globals
        q.session.settings))) := rfl
  unfold dispatch
  rw [Run.perform_ite, hcommand, if_pos hgroup, ← hcommand, Run.perform_lift, hprinted, hcommand,
    hprogram, hglobals, hflags, hcategory, hchainText]
  rfl

/-- A group that was read to its end shows its page once the checks and the clients are done. -/
theorem perform_conclude_of_finish (o : Opening) (hgroup : d.command.isGroup = true)
    {argv : List String} (hlast : argv.getLast? ≠ some Completion.trigger) (q : Execution) :
    let read := (finish ⟨o.program, o.globals, d⟩).perform q
    (conclude argv (read.1.map some)).perform read.2 =
      match (check d).perform ((logWalk d.chain.tail).perform q).2 with
      | (.error e, r) => (.error (.parse (.command (.descent e))), r)
      | (.ok checked, r) => match (connect o.program (belowTool o.globals) checked).perform r with
        | (.error e, t) => (.error (.parse (.connect e)), t)
        | (.ok _, t) => (.ok (), t.emit (.printed (pageOf o checked t.session.settings))) := by
  simp only [finish, Run.perform_bind, Run.perform_adapt, Run.perform_lift]
  generalize ((logWalk d.chain.tail).perform q).2 = m
  have hverdict := (perform_check m d).1
  rcases hc : (check d).perform m with ⟨e | checked, r⟩
  · exact perform_conclude_error hlast _ r
  rw [hc] at hverdict
  have hsame : checked.command.isGroup = true := by
    rw [Descent.eq_of_verdict hverdict.symm]
    exact hgroup
  simp only [Run.mapError_ok]
  rcases hi : (connect o.program (belowTool o.globals) checked).perform r with ⟨e | prepared, t⟩
  · exact perform_conclude_error hlast _ t
  · exact perform_dispatch_of_connect hsame hi

/-- **What becomes of a command line that asks for a group.**

    If the session cannot be set up, that is all. Otherwise a group of the tool shows its page, and nothing
    else happens. But a group below it, with nothing behind it, goes through the checks and has its clients
    made as if it were to be run, and fails if they fail; only then is its page shown. And a word for help
    behind it is taken for the name of a subcommand: the run fails if there is none, and otherwise that is the
    command that was read. -/
theorem run_of_group (h : AsksGroup app name names tail top d) (program : String) (p : Execution) :
    let argv := program :: name :: (names ++ tail)
    let o := nameOpening app program (name :: (names ++ tail))
    (∀ e q, (Setup.run app.version o.globals).perform p = (.error e, q) →
      (run app argv).perform p = (.error (.parse (.setup e)), q)) ∧
    ∀ q, (Setup.run app.version o.globals).perform p = (.ok (), q) →
      let walked := ((logWalk names).perform q).2
      (names = [] →
        (run app argv).perform p = (.ok (), q.emit (.printed (pageOf o d q.session.settings)))) ∧
      (names ≠ [] → tail = [] → (run app argv).perform p =
        match (check d).perform walked with
        | (.error e, r) => (.error (.parse (.command (.descent e))), r)
        | (.ok checked, r) => match (connect program (belowTool o.globals) checked).perform r with
          | (.error e, t) => (.error (.parse (.connect e)), t)
          | (.ok _, t) => (.ok (), t.emit (.printed (pageOf o checked t.session.settings)))) ∧
      ∀ word, names ≠ [] → tail = [word] →
        (Command.find? d.command.subcommands word = none →
          (run app argv).perform p =
            (.error (.parse (.command (.descent (.unknownSubcommand word)))), walked)) ∧
        ∀ sub, Command.find? d.command.subcommands word = some sub →
          lineBehindGlobals? app program o.globals o.behind = some ⟨program, o.globals, d.down sub⟩ := by
  intro argv o
  have hread := perform_read_set_up (h.opening?_eq program) p
  have hlast := getLast?_ne_trigger h program
  refine ⟨fun e q hsetup => ?_, fun q hsetup => ?_⟩
  · rw [hsetup] at hread
    rw [perform_run, hread]
    exact perform_conclude_error hlast _ q
  have hread : (read app argv).perform p =
      (readBehindGlobals app program o.globals o.behind).perform q := by
    rw [hsetup] at hread
    exact hread
  intro walked
  refine ⟨fun hnames => ?_, fun hnames htail => ?_, fun word hnames htail => ⟨fun hs => ?_, fun sub hs => ?_⟩⟩
  · subst hnames
    rw [perform_run, hread, h.readBehindGlobals_first rfl]
    rfl
  · subst htail
    have hline : lineBehindGlobals? app program o.globals o.behind = some ⟨program, o.globals, d⟩ :=
      h.lineBehindGlobals?_deeper hnames (congrArg (name :: ·) (List.append_nil names))
    have hfinish := (perform_readBehindGlobals hline q).2.2
    have hconclude := perform_conclude_of_finish o h.group hlast q
    rw [h.tail_chain] at hconclude
    rw [perform_run, hread, hfinish]
    exact hconclude
  · subst htail
    rw [perform_run, hread, h.readBehindGlobals_word hnames rfl hs]
    exact perform_conclude_error hlast _ walked
  · subst htail
    exact h.lineBehindGlobals?_word hnames rfl hs

/-- A group. -/
def innerGroup : Command := { name := "inner", subcommands := [{ name := "leaf" }] }

/-- A group with a group inside. -/
def outerGroup : Command := { name := "outer", subcommands := [innerGroup] }

/-- A tool with a group inside a group. -/
def nested : App := { name := "ngsi", commands := [outerGroup] }

/-- The outer group, which is a group of the tool, shows its page. -/
theorem run_of_group_outer :
    let p : Execution := { session := { store := some (.inMemory {}) } }
    ∃ q, (Setup.run nested.version (Globals.flags nested)).perform p = (.ok (), q) ∧
      ∃ page, (run nested ["ngsi", "outer", "help"]).perform p = (.ok (), q.emit (.printed page)) := by
  intro p
  have hasks : AsksGroup nested "outer" [] ["help"] outerGroup (Descent.start outerGroup) :=
    ⟨rfl, .here _, rfl, by decide, by decide, .inr ⟨"help", rfl, by decide⟩⟩
  have hsetup : ((Setup.run nested.version (Globals.flags nested)).perform p).1 = .ok () := by
    decide +kernel
  rcases hq : (Setup.run nested.version (Globals.flags nested)).perform p with ⟨result, q⟩
  rw [hq] at hsetup
  obtain rfl : result = .ok () := hsetup
  exact ⟨q, rfl, _, ((run_of_group hasks "ngsi" p).2 q hq).1 rfl⟩

/-- **Not at every depth does a group show its page**: behind the inner group a word for help is unknown. -/
theorem group_help_unknown : ¬ ∀ (app : App) (name : String) (names tail : List String) (top : Command)
    (d : Descent) (program : String) (p q : Execution), AsksGroup app name names tail top d →
      (Setup.run app.version (Globals.flags app)).perform p = (.ok (), q) →
      ((run app (program :: name :: (names ++ tail))).perform p).1 = .ok () := by
  intro h
  let p : Execution := { session := { store := some (.inMemory {}) } }
  have hleads : (Descent.start outerGroup).Leads ["inner"] ((Descent.start outerGroup).down innerGroup) :=
    .down (by decide) rfl (.here _)
  have hasks : AsksGroup nested "outer" ["inner"] ["help"] outerGroup
      ((Descent.start outerGroup).down innerGroup) :=
    ⟨rfl, hleads, rfl, by decide, by decide, .inr ⟨"help", rfl, by decide⟩⟩
  have hsetup : ((Setup.run nested.version (Globals.flags nested)).perform p).1 = .ok () := by
    decide +kernel
  rcases hq : (Setup.run nested.version (Globals.flags nested)).perform p with ⟨result, q⟩
  rw [hq] at hsetup
  obtain rfl : result = .ok () := hsetup
  have hok := h nested "outer" ["inner"] ["help"] _ _ "ngsi" p q hasks hq
  have hfails : ((run nested ("ngsi" :: "outer" :: (["inner"] ++ ["help"]))).perform p).1 =
      .error (.parse (.command (.descent (.unknownSubcommand "help")))) := by decide +kernel
  rw [hfails] at hok
  cases hok

end App

end BrokerCli
