import BrokerCli.Proofs.Extension
import BrokerCli.Proofs.Hints

/-!
# Asking for help by an option

Behind a command, the option `--help` ends the reading: the page of the command is shown, and nothing is
run. Before the command it is an option of the tool like any other, and nothing looks at it; what is shown
or run is decided by what stands behind the options:

* `FlagList.Reads` -- an option is read;
* `Globals.Reaches`, `Descent.Reaches` -- how far the two loops of the reader come. Both go on from there
  as if they had begun there (`read_of_reaches`, `walk_of_reaches`);
* `CommandLine.HelpBehind`, `CommandLine.HelpBefore` -- the option is read behind a command, or before it;
* `App.Idle` -- no action is run, whatever the commands do, and nothing is written;
* `App.Answers` -- a page is shown and nothing else;
* `App.run_of_help` -- what the option does in the one place, and in the other;
* `App.help_passed_over` -- in the other one it does not keep the command from being run.
-/

namespace BrokerCli

/-! ## 1. Options that are read -/

/-- An option is read: the argument that names it, and as much of a value as it takes. -/
inductive FlagList.Reads (fs : FlagList) (c : Cursor) (arg : String) : FlagList → Cursor → Prop where
  | intro {gs : FlagList} {behind c' : Cursor} {o : OptionToken} (hn : c.next = (some arg, behind))
      (harg : arg ≠ Completion.trigger) (hpeek : behind.peek? ≠ some Completion.trigger)
      (ho : OptionToken.ofArgument? arg = some o) (ha : fs.apply o behind = .ok (gs, c')) :
      Reads fs c arg gs c'

namespace FlagList

variable {fs gs : FlagList} {c c' : Cursor} {arg name : String}

/-- What was given before an option is read is given behind it. -/
theorem isSet_of_reads (h : fs.Reads c arg gs c') (hs : fs.isSet name = true) :
    gs.isSet name = true := by
  obtain ⟨-, -, -, -, ha⟩ := h
  unfold apply at ha
  split at ha
  · cases ha
  rename_i f hf
  split at ha
  · rename_i hg
    cases ha
    obtain ⟨content, value, ht, rfl, _⟩ := Flag.takes_of_give hg
    refine (extends_replace fun g hg' => ?_).isSet hs
    cases hf.symm.trans hg'
    exact Flag.extends_of_takes ht
  · cases ha

/-- A flag that is named by an option is given. -/
theorem isSet_of_reads_name (hname : name ≠ "")
    (ho : OptionToken.ofArgument? arg = some ⟨name, ""⟩) (h : fs.Reads c arg gs c') :
    gs.isSet name = true := by
  have hnamed : name.isEmpty = false := Bool.eq_false_iff.2 (mt String.isEmpty_iff.1 hname)
  have hshort : "".isEmpty = true := rfl
  have hanswers : Flag.answers ⟨name, ""⟩ = fun f => decide (f.name = name) := by
    funext f
    simp [Flag.answers, Flag.answersTo, hnamed, hshort, beq_eq_decide]
  obtain ⟨-, -, -, ho', ha⟩ := h
  cases ho.symm.trans ho'
  unfold apply at ha
  split at ha
  · cases ha
  rename_i f hf
  split at ha
  · rename_i hg
    cases ha
    obtain ⟨content, rfl⟩ := Flag.setTo_of_give hg
    rw [hanswers] at hf ⊢
    have hhas : fs.has name = true := by
      rw [has, get?, hf]
      rfl
    have hn : f.name = name := FlagList.name_of_get? hf
    rw [isSet, get?_replace ((f.name_setTo content).trans hn) hhas]
    rfl
  · cases ha

end FlagList

/-! ## 2. How far the reader comes -/

/-- How far the reading of the tool's options comes. -/
inductive Globals.Reaches (fs : FlagList) (c : Cursor) : FlagList → Cursor → Prop where
  | here : Reaches fs c fs c
  | option {gs hs : FlagList} {c' c'' : Cursor} {arg : String} (h : Reaches fs c gs c')
      (hr : gs.Reads c' arg hs c'') : Reaches fs c hs c''

/-- How far the way down to a command comes. -/
inductive Descent.Reaches (d : Descent) (c : Cursor) : Descent → Cursor → Prop where
  | here : Reaches d c d c
  | option {e : Descent} {fs : FlagList} {c' c'' : Cursor} {arg : String} (h : Reaches d c e c')
      (hr : e.flags.Reads c' arg fs c'') (hh : fs.isSet "help" = false) :
      Reaches d c { e with flags := fs } c''
  | subcommand {e : Descent} {sub : Command} {c' behind : Cursor} {name : String}
      (h : Reaches d c e c') (hn : c'.next = (some name, behind)) (harg : name ≠ Completion.trigger)
      (hpeek : ¬ (behind.peek? = some Completion.trigger ∧ Text.beginsWith "-" name = true))
      (ho : OptionToken.ofArgument? name = none) (hg : e.command.isGroup = true)
      (hs : Command.find? e.command.subcommands name = some sub) : Reaches d c (e.down sub) behind
  | argument {e : Descent} {c' behind : Cursor} {arg : String} (h : Reaches d c e c')
      (hn : c'.next = (some arg, behind)) (harg : arg ≠ Completion.trigger)
      (hpeek : ¬ (behind.peek? = some Completion.trigger ∧ Text.beginsWith "-" arg = true))
      (ho : OptionToken.ofArgument? arg = none) (hg : e.command.isGroup = false) :
      Reaches d c { e with args := e.args ++ [arg] } behind

namespace Globals

variable {fs gs : FlagList} {c c' : Cursor} {arg name : String}

/-- Where an option is read, the reading goes on behind it. -/
theorem read_of_reads (h : fs.Reads c arg gs c') : read fs c = read gs c' := by
  obtain ⟨hn, harg, hpeek, ho, ha⟩ := h
  rw [read]
  split
  · rename_i hn'
    cases hn.symm.trans hn'
  · rename_i hn'
    cases hn.symm.trans hn'
    rw [if_neg harg, if_neg fun h => hpeek h.1, ho]
    dsimp only
    split
    · rename_i ha'
      cases ha.symm.trans ha'
    · rename_i ha'
      cases ha.symm.trans ha'
      rfl

/-- **The reading of options goes on from wherever it comes.** -/
theorem read_of_reaches (h : Reaches fs c gs c') : read fs c = read gs c' := by
  induction h with
  | here => rfl
  | option _ hr ih => exact ih.trans (read_of_reads hr)

/-- What is given when options are read stays given. -/
theorem isSet_of_read (c : Cursor) (hs : fs.isSet name = true) :
    (read fs c).1.isSet name = true := by
  fun_induction read fs c with
  | case6 fs c arg behind hn harg hhint o ho gs' c' ha ih =>
    have hpeek : behind.peek? ≠ some Completion.trigger := fun h =>
      hhint ⟨h, OptionToken.beginsWith_of_ofArgument? ho⟩
    exact ih (FlagList.isSet_of_reads (.intro hn harg hpeek ho ha) hs)
  | _ => exact hs

end Globals

namespace Descent

variable {d e : Descent} {fs : FlagList} {c c' : Cursor} {arg : String}

/-- Behind an option the way down ends if help is asked for, and goes on otherwise. -/
theorem walk_of_reads (h : d.flags.Reads c arg fs c') :
    walk d c = if fs.isSet "help" then ({ d with flags := fs }, .help)
      else walk { d with flags := fs } c' := by
  obtain ⟨hn, harg, hpeek, ho, ha⟩ := h
  rw [walk_eq, hn]
  dsimp only
  rw [if_neg harg, if_neg fun h => hpeek h.1, ho]
  dsimp only
  rw [ha]

/-- **The way down goes on from wherever it comes.** -/
theorem walk_of_reaches (h : Reaches d c e c') : walk d c = walk e c' := by
  induction h with
  | here => rfl
  | option _ hr hh ih =>
    rw [ih, walk_of_reads hr, hh]
    rfl
  | subcommand _ hn harg hpeek ho hg hs ih =>
    rw [ih, walk_eq, hn]
    dsimp only
    rw [if_neg harg, if_neg hpeek, ho]
    dsimp only
    rw [if_pos hg, hs]
  | argument _ hn harg hpeek ho hg ih =>
    rw [ih, walk_eq, hn]
    dsimp only
    rw [if_neg harg, if_neg hpeek, ho]
    dsimp only
    rw [if_neg (Bool.eq_false_iff.1 hg)]

end Descent

/-! ## 3. What is shown -/

/-- Nothing was shown but log records. -/
structure Execution.Silent (p q : Execution) : Prop where
  output : q.output = p.output
  complaints : q.complaints = p.complaints

instance : IsPreorder Execution Execution.Silent where
  refl _ := ⟨rfl, rfl⟩
  trans _ _ _ h h' := ⟨h'.output.trans h.output, h'.complaints.trans h.complaints⟩

theorem Effect.silent_log (severity : Severity) (message : String) :
    (log severity message).Respects Execution.Silent :=
  fun p => ⟨p.output_note severity message, p.complaints_note severity message⟩

theorem Setup.silent_run (version : String) (fs : FlagList) :
    (run version fs).Respects Execution.Silent := by
  refine respects_run (fun p q hshown => ⟨?_, ?_⟩) Effect.silent_log version fs
  · rw [Execution.output, hshown, Execution.output]
  · rw [Execution.complaints, hshown, Execution.complaints]

theorem CommandLine.silent_logWalk (names : List String) :
    (logWalk names).Respects Execution.Silent := by
  induction names with
  | nil => exact .pure ()
  | cons name names ih => exact .bind (Effect.silent_log _ _) fun _ => ih

namespace App

/-- **The run comes to no action**: its command line leads to no command, it would be the same if the commands
    did something else, and nothing is written. -/
structure Idle (app : App) (argv : List String) (p : Execution) : Prop where
  unled : ∀ prepared, ((CommandLine.read app argv).perform p).1 ≠ .ok (some prepared)
  recast : ∀ f, (run (app.recast f) argv).perform p = (run app argv).perform p
  spares : p.Spares ((run app argv).perform p).2

/-- The run succeeds and shows a text, and nothing else but log records. -/
structure Answers (app : App) (argv : List String) (p : Execution) (text : String) : Prop where
  result : ((run app argv).perform p).1 = .ok ()
  output : ((run app argv).perform p).2.output = p.output ++ text
  complaints : ((run app argv).perform p).2.complaints = p.complaints

variable {app : App} {argv : List String} {p q : Execution}

/-- A command line that leads to no command comes to no action. -/
theorem idle_of_unled
    (h : ∀ prepared, ((CommandLine.read app argv).perform p).1 ≠ .ok (some prepared)) :
    Idle app argv p := by
  have hrecast (f : Option Action → Option Action) :
      (CommandLine.read (app.recast f) argv).perform p = (CommandLine.read app argv).perform p := by
    rw [CommandLine.read_recast, Run.perform_map]
    rcases hr : (CommandLine.read app argv).perform p with ⟨e | _ | prepared, q⟩
    · rfl
    · rfl
    · exact absurd (congrArg Prod.fst hr) (h prepared)
  refine ⟨h, fun f => ?_, ?_⟩
  · rw [perform_run, hrecast, ← perform_run]
  · obtain ⟨result, hend, _⟩ := conclude_of_none argv h
    rw [perform_run, hend]
    exact CommandLine.spares_read app argv p

/-- A page that is shown when the session is set up is the answer. -/
theorem answers_of_read {m : Execution} {text : String} (hsilent : p.Silent m)
    (h : (CommandLine.read app argv).perform p = (.ok none, m.emit (.printed text))) :
    Answers app argv p text := by
  have hrun : (run app argv).perform p = (.ok (), m.emit (.printed text)) := by
    rw [perform_run, h]
    rfl
  refine ⟨?_, ?_, ?_⟩ <;> rw [hrun]
  · rw [Execution.output_emit, hsilent.output]
    rfl
  · rw [Execution.complaints_emit, hsilent.complaints]
    exact String.append_empty

end App

/-! ## 4. Whole command lines -/

namespace CommandLine

/-- The option is read behind a command of the tool; with the tool's options before it, and with what was
    read on the way down by then. -/
inductive HelpBehind (app : App) (argv : List String) (o : Opening) : Descent → Prop where
  | intro {name : String} {c c' c'' : Cursor} {command : Command} {d : Descent} {fs : FlagList}
      (ho : opening? app argv = some o) (hn : o.behind.next = (some name, c))
      (hhelp : asksHelp name = false) (htrigger : name ≠ Completion.trigger)
      (hfound : Command.find? app.commands name = some command)
      (hgroup : (Descent.asksHelp c.peek? && command.isGroup) = false)
      (hreached : (Descent.start command).Reaches c d c') (hread : d.flags.Reads c' "--help" fs c'') :
      HelpBehind app argv o { d with flags := fs }

/-- The option is read before the command. -/
inductive HelpBefore (app : App) : List String → Prop where
  | intro {program : String} {rest : List String} {fs gs : FlagList} {c c' : Cursor}
      (hasked : Version.answer? app.version rest.head? = none)
      (hreached : Globals.Reaches (Globals.flags app) ⟨program :: rest, 1⟩ fs c)
      (hread : fs.Reads c "--help" gs c') : HelpBefore app (program :: rest)

variable {app : App} {argv : List String} {o : Opening} {d : Descent}

/-- The page that a way down leads to. -/
def pageOf (o : Opening) (d : Descent) (s : Settings) : String :=
  let i := invocation o.program (belowTool o.globals) d
  Help.commandPage i.program i.chainText d.category d.command i.flags i.globals s

theorem ofArgument?_help : OptionToken.ofArgument? "--help" = some ⟨"help", ""⟩ := by decide

theorem isSet_help {fs gs : FlagList} {c c' : Cursor} (h : fs.Reads c "--help" gs c') :
    gs.isSet "help" = true :=
  FlagList.isSet_of_reads_name (by decide) ofArgument?_help h

/-- **Where the option is read behind a command, the page of this command is shown**, when the session is
    set up, and the command line is dealt with. -/
theorem readBehindGlobals_of_helpBehind (h : HelpBehind app argv o d) (q : Execution) :
    ∃ m, q.Silent m ∧ (readBehindGlobals app o.program o.globals o.behind).perform q =
      (.ok none, m.emit (.printed (pageOf o d q.session.settings))) := by
  cases h with
  | @intro name c c' c'' command d fs ho hn hhelp htrigger hfound hgroup hreached hread =>
    have hwalk : Descent.read command c = ({ d with flags := fs }, .help) := by
      rw [Descent.read, hgroup, if_neg Bool.false_ne_true, Descent.walk_of_reaches hreached,
        Descent.walk_of_reads hread, isSet_help hread, if_pos rfl]
    have hsession := (quiet_logWalk d.chain.tail q).session
    refine ⟨_, silent_logWalk d.chain.tail q, ?_⟩
    unfold readBehindGlobals
    simp only [hn, hhelp, htrigger, Bool.false_eq_true, if_false, findCommand, hfound, readCommand,
      hwalk, Run.perform_bind, Run.perform_adapt, Run.perform_lift, Run.perform_pure, Run.mapError_ok]
    rw [← hsession]
    rfl

/-- Behind the tool's options, the end of the line asks for the page of the tool, and so does an argument. -/
theorem readBehindGlobals_of_asked (app : App) {o : Opening} (h : o.behind.peek?.all asksHelp = true)
    (q : Execution) :
    (readBehindGlobals app o.program o.globals o.behind).perform q = (.ok none,
      q.emit (.printed (Help.appPage app o.program o.globals q.session.settings))) := by
  unfold readBehindGlobals
  have hn : o.behind.next.1 = o.behind.peek? := rfl
  rcases hb : o.behind.next with ⟨_ | name, c⟩
  · rfl
  · rw [← hn, hb] at h
    have hhelp : asksHelp name = true := h
    dsimp only
    rw [if_pos hhelp]
    rfl

/-- The tool's options of a command line, where there are some. -/
theorem reading_of_opening? {program : String} {rest : List String}
    (h : opening? app (program :: rest) = some o) :
    Globals.read (Globals.flags app) ⟨program :: rest, 1⟩ = (o.globals, .reached o.behind) := by
  have hcursor : (Cursor.mk (program :: rest) 0).next = (some program, ⟨program :: rest, 1⟩) := rfl
  unfold opening? at h
  rw [hcursor] at h
  dsimp only at h
  split at h
  · cases h
  rw [answerNext_behind] at h
  cases hv : Version.answer? app.version rest.head? with
  | some text =>
    rw [hv] at h
    cases h
  | none =>
    rw [hv] at h
    dsimp only at h
    split at h
    · rename_i hread
      cases h
      exact hread
    · cases h

/-- An option that is read before the command is given when the options are read to their end. -/
theorem isSet_of_helpBefore (h : HelpBefore app argv) (ho : opening? app argv = some o) :
    o.globals.isSet "help" = true := by
  cases h with
  | @intro program rest fs gs c c' hasked hreached hread =>
    have hend := reading_of_opening? ho
    have hset := Globals.isSet_of_read c' (isSet_help hread)
    rw [Globals.read_of_reaches hreached, Globals.read_of_reads hread] at hend
    rw [hend] at hset
    exact hset

end CommandLine

/-! ## 5. An option that nothing looks at -/

namespace FlagList

variable {fs : FlagList} {name other : String}

/-- The flags of other names are found without the flags of a name. -/
theorem get?_without_of_ne (fs : FlagList) (h : other ≠ name) :
    (fs.without name).get? other = fs.get? other := by
  unfold get? without
  rw [List.find?_filter]
  congr 1
  funext f
  by_cases hf : f.name = other
  · simp [hf, h]
  · simp [hf]

end FlagList

/-- **Setting up a session depends on the options that it looks at**, and on no other. -/
theorem Setup.run_without_help (version : String) (fs : FlagList) :
    run version (fs.without "help") = run version fs := by
  have hget {name : String} (h : name ≠ "help") : (fs.without "help").get? name = fs.get? name :=
    fs.get?_without_of_ne h
  have hset {name : String} (h : name ≠ "help") : (fs.without "help").isSet name = fs.isSet name := by
    rw [FlagList.isSet, FlagList.isSet, hget h]
  have htext {name : String} (h : name ≠ "help") :
      (fs.without "help").textIfSet name = fs.textIfSet name := FlagList.textIfSet_congr (hget h)
  have htruth {name : String} (h : name ≠ "help") : (fs.without "help").truth name = fs.truth name := by
    rw [FlagList.truth, FlagList.truth, hget h]
  have hnumber {name : String} (h : name ≠ "help") :
      (fs.without "help").number name = fs.number name := by
    rw [FlagList.number, FlagList.number, hget h]
  have hlimits : withLimits (fs.without "help") = withLimits fs := by
    funext s
    unfold withLimits
    rw [hset (by decide), hset (by decide), hset (by decide), hnumber (by decide), hnumber (by decide),
      hnumber (by decide), htruth (by decide)]
  have hcache : withCache (fs.without "help") = withCache fs := by
    funext s
    unfold withCache
    rw [htext (by decide)]
  have hstderr : setStderrLevel (fs.without "help") = setStderrLevel fs := by
    unfold setStderrLevel levelText
    rw [hset (by decide), htext (by decide)]
  have hsyslog : setSyslogLevel (fs.without "help") = setSyslogLevel fs := by
    unfold setSyslogLevel levelText
    rw [hset (by decide), htext (by decide)]
  have hchoose : chooseStore (fs.without "help") = chooseStore fs := by
    unfold chooseStore
    rw [htext (by decide), htext (by decide)]
  have hconflict : placesConflict (fs.without "help") = placesConflict fs := by
    unfold placesConflict
    rw [hset (by decide), hset (by decide), hset (by decide)]
  unfold run
  rw [hset (by decide), htruth (by decide), hconflict, hchoose, hstderr, hsyslog, hlimits, hcache]

namespace CommandLine

variable {app : App} {argv : List String} {o : Opening}

/-- **Where a name follows, the tool's option for help is passed over**: the line is read as if it had not
    been given. -/
theorem read_without_help {name : String} (ho : opening? app argv = some o)
    (hn : o.behind.peek? = some name) (hhelp : asksHelp name = false) :
    read app argv = (do
      ExceptT.adapt .setup (Setup.run app.version (o.globals.without "help"))
      readBehindGlobals app o.program (o.globals.without "help") o.behind) := by
  have hbelow : belowTool (o.globals.without "help") = belowTool o.globals := by
    simp only [belowTool, FlagList.without, List.filter_filter, Bool.and_self]
  have hbehind : readBehindGlobals app o.program (o.globals.without "help") o.behind =
      readBehindGlobals app o.program o.globals o.behind := by
    have hpeek : o.behind.next.1 = o.behind.peek? := rfl
    unfold readBehindGlobals
    rcases hb : o.behind.next with ⟨_ | name', c⟩
    · rw [hb, hn] at hpeek
      cases hpeek
    · rw [hb, hn] at hpeek
      cases hpeek
      dsimp only
      rw [hhelp, if_neg Bool.false_ne_true, if_neg Bool.false_ne_true, hbelow]
  rw [read_of_opening? ho, Setup.run_without_help, hbehind]

end CommandLine

/-! ## 6. Asking for help -/

/-- What stands behind the tool's options is read if the session can be set up. -/
theorem CommandLine.perform_read_set_up {app : App} {argv : List String} {o : Opening}
    (ho : opening? app argv = some o) (p : Execution) :
    (read app argv).perform p =
      match (Setup.run app.version o.globals).perform p with
      | (.ok (), q) => (readBehindGlobals app o.program o.globals o.behind).perform q
      | (.error e, q) => (.error (.setup e), q) := by
  rw [read_of_opening? ho, Run.perform_bind, Run.perform_adapt]
  rcases (Setup.run app.version o.globals).perform p with ⟨_ | _, q⟩ <;> rfl

namespace App

variable {app : App} {argv : List String} {o : Opening} {p : Execution}

/-- Where what stands behind the tool's options only shows a page, the run comes to no action, and the page
    is its answer if the session is set up. -/
theorem answers_of_page {page : Settings → String} (ho : CommandLine.opening? app argv = some o)
    (h : ∀ q, ∃ m, q.Silent m ∧
      (CommandLine.readBehindGlobals app o.program o.globals o.behind).perform q =
        (.ok none, m.emit (.printed (page q.session.settings)))) :
    Idle app argv p ∧ ∀ q, (Setup.run app.version o.globals).perform p = (.ok (), q) →
      Answers app argv p (page q.session.settings) := by
  have hread := CommandLine.perform_read_set_up ho p
  have hsilent := Setup.silent_run app.version o.globals p
  rcases hs : (Setup.run app.version o.globals).perform p with ⟨e | ⟨⟩, q⟩
  · rw [hs] at hread
    refine ⟨idle_of_unled fun prepared hp => ?_, fun q hq => ?_⟩
    · rw [hread] at hp
      cases hp
    · cases hq
  · obtain ⟨m, hm, hpage⟩ := h q
    rw [hs] at hread hsilent
    dsimp only at hread
    rw [hpage] at hread
    refine ⟨idle_of_unled fun prepared hp => ?_, fun q' hq => ?_⟩
    · rw [hread] at hp
      cases hp
    · cases hq
      exact answers_of_read (trans_of Execution.Silent hsilent hm) hread

/-- **What becomes of a command line that asks for help by an option.**

    Behind a command, at any level: the run comes to no action and writes nothing; and if the session can be
    set up, it succeeds and shows the page of the command that was reached, and nothing else.

    Before the command: the run comes to no action either if an option behind it cannot be read, or if the
    tool's options are followed by nothing or by a word that asks for help; in the latter cases it shows the
    page of the tool, if the session can be set up. But where the name of a command follows, the option is
    passed over: the line is read as if it had not been given, and whatever command it names is run. -/
theorem run_of_help (app : App) (argv : List String) (p : Execution) :
    (∀ o d, CommandLine.HelpBehind app argv o d → Idle app argv p ∧
      ∀ q, (Setup.run app.version o.globals).perform p = (.ok (), q) →
        Answers app argv p (CommandLine.pageOf o d q.session.settings)) ∧
    (CommandLine.HelpBefore app argv →
      (CommandLine.opening? app argv = none → Idle app argv p) ∧
      ∀ o, CommandLine.opening? app argv = some o → o.globals.isSet "help" = true ∧
        (o.behind.peek?.all CommandLine.asksHelp = true → Idle app argv p ∧
          ∀ q, (Setup.run app.version o.globals).perform p = (.ok (), q) →
            Answers app argv p (Help.appPage app o.program o.globals q.session.settings)) ∧
        ∀ name, o.behind.peek? = some name → CommandLine.asksHelp name = false →
          CommandLine.read app argv = (do
            ExceptT.adapt .setup (Setup.run app.version (o.globals.without "help"))
            CommandLine.readBehindGlobals app o.program (o.globals.without "help") o.behind)) := by
  refine ⟨fun o d h => ?_, fun h => ⟨fun hnone => ?_, fun o ho => ?_⟩⟩
  · have ho : CommandLine.opening? app argv = some o := by
      cases h
      assumption
    exact answers_of_page ho (CommandLine.readBehindGlobals_of_helpBehind h)
  · refine idle_of_unled fun prepared hp => ?_
    rcases CommandLine.read_of_no_opening hnone with ⟨e, hread⟩ | ⟨text, hread⟩ <;>
      rw [hread] at hp <;> cases hp
  · refine ⟨CommandLine.isSet_of_helpBefore h ho, fun hasked => ?_, fun name hn hhelp =>
      CommandLine.read_without_help ho hn hhelp⟩
    exact answers_of_page ho fun q =>
      ⟨q, refl_of Execution.Silent q, CommandLine.readBehindGlobals_of_asked app hasked q⟩

/-- The option keeps a command from being run that would forget everything. -/
theorem run_of_help_clear :
    let argv := ["ngsi", "settings", "clear", "--help"]
    let p : Execution := { session := { store := some (.inMemory { settings := { host := "orion" } }) } }
    ∃ o d, CommandLine.HelpBehind Tool.app argv o d ∧ Idle Tool.app argv p ∧
      d.chain = ["settings", "clear"] ∧ p.Spares ((run Tool.app argv).perform p).2 := by
  intro argv p
  have hbehind : (CommandLine.opening? Tool.app argv).map (·.behind) = some ⟨argv, 1⟩ := by
    decide +kernel
  obtain ⟨o, ho, hbehind⟩ := Option.map_eq_some_iff.1 hbehind
  have hn : o.behind.next = (some "settings", ⟨argv, 2⟩) := by
    rw [hbehind]
    rfl
  have hreached := Descent.Reaches.subcommand (.here (d := .start Tool.Remembered.command) (c := ⟨argv, 2⟩))
    rfl (by decide) (by decide) (by decide) rfl rfl
  have h := CommandLine.HelpBehind.intro ho hn (by decide) (by decide) rfl (by decide) hreached
    (.intro rfl (by decide) (by decide) CommandLine.ofArgument?_help rfl)
  have hidle := ((run_of_help Tool.app argv p).1 o _ h).1
  exact ⟨o, _, h, hidle, rfl, hidle.spares⟩

/-- **Asking for help does not always keep a command from being run**: it does not before the command. -/
theorem help_passed_over : ¬ ∀ (app : App) (argv : List String) (p : Execution),
    CommandLine.HelpBefore app argv → Idle app argv p := by
  intro h
  let argv := ["ngsi", "--help", "settings", "clear"]
  let p : Execution := { session := { store := some (.inMemory { settings := { host := "orion" } }) } }
  have hbefore : CommandLine.HelpBefore Tool.app argv :=
    .intro rfl .here (.intro rfl (by decide) (by decide) CommandLine.ofArgument?_help rfl)
  have hstore := (h Tool.app argv p hbefore).spares.store _ rfl
  have hcleared : ((run Tool.app argv).perform p).2.session.store =
      some (.memory {} 1 false) := by decide +kernel
  rw [hcleared] at hstore
  exact absurd hstore (by decide)

end App

end BrokerCli
