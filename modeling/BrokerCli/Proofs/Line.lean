import BrokerCli.Tool.App
import BrokerCli.Proofs.Reading
import BrokerCli.Proofs.Frame

/-!
# Whole command lines

What the loops make of a command line from its first argument to its last, and what becomes of it:

* `CommandLine.line?` -- the line, if all of its arguments are read. These lines are just the splits
  of the grammar (`line?_of_reads`, `reads_of_line?`);
* `CommandLine.settle` -- what is left to do with a line: set up the session, check, connect. A line
  that is read is settled, and nothing else happens (`perform_read_of_line?`);
* `CommandLine.stages_of_read` -- the stages behind a command that is returned;
* `App.parse_splits` -- both together: the command line is read from left to right.
-/

namespace BrokerCli

open Grammar

/-! ## 1. Whole command lines -/

/-- A command line all of whose arguments are read. -/
structure Line where
  program : String
  /-- The tool's own flags. -/
  globals : FlagList
  descent : Descent

namespace CommandLine

/-- What the reader makes of the arguments behind the tool's options, if it reads all of them. -/
def lineBehindGlobals? (app : App) (program : String) (globals : FlagList) (c : Cursor) :
    Option Line :=
  match c.next with
  | (none, _) => none
  | (some name, c) =>
    if asksHelp name ∨ name = Completion.trigger then none
    else match Command.find? app.commands name with
      | none => none
      | some command => match Descent.read command c with
        | (d, .complete) => some ⟨program, globals, d⟩
        | _ => none

/-- What the reader makes of a command line, if it reads all of it. -/
def line? (app : App) (argv : List String) : Option Line :=
  match (Cursor.mk argv 0).next with
  | (none, _) => none
  | (some program, c) =>
    if c.peek? = some Completion.trigger then none
    else match Version.answerNext app.version c with
      | (some _, _) => none
      | (none, c) => match Globals.read (Globals.flags app) c with
        | (globals, .reached c) => lineBehindGlobals? app program globals c
        | _ => none

/-- Behind the program's name, an argument that asks for nothing is put back. -/
theorem answerNext_behind (version program : String) (rest : List String) :
    Version.answerNext version ⟨program :: rest, 1⟩ = match Version.answer? version rest.head? with
      | some text => (some text, (Cursor.mk (program :: rest) 1).next.2)
      | none => (none, ⟨program :: rest, 1⟩) := by
  have hn : (Cursor.mk (program :: rest) 1).next.1 = rest.head? :=
    Cursor.peek?_eq_head?_unread _
  have hb : (Cursor.mk (program :: rest) 1).next.2.back.2 = ⟨program :: rest, 1⟩ := by
    simp only [Cursor.next, List.length_cons, Nat.min_eq_left (Nat.le_add_left 2 rest.length),
      Cursor.back]
  unfold Version.answerNext
  cases hv : Version.answer? version rest.head? with
  | none => simp only [hn, hb, hv]
  | some text => simp only [hn, hv]

theorem line?_cons (app : App) (program : String) (rest : List String) :
    line? app (program :: rest) =
      if rest.head? = some Completion.trigger then none
      else match Version.answer? app.version rest.head? with
        | some _ => none
        | none => match Globals.read (Globals.flags app) ⟨program :: rest, 1⟩ with
          | (globals, .reached c) => lineBehindGlobals? app program globals c
          | _ => none := by
  have hp : (Cursor.mk (program :: rest) 1).peek? = rest.head? := Cursor.peek?_eq_head?_unread _
  unfold line?
  show (if (Cursor.mk (program :: rest) 1).peek? = some Completion.trigger then none
    else match Version.answerNext app.version ⟨program :: rest, 1⟩ with
      | (some _, _) => none
      | (none, c) => match Globals.read (Globals.flags app) c with
        | (globals, .reached c) => lineBehindGlobals? app program globals c
        | _ => none) = _
  rw [hp, answerNext_behind]
  cases Version.answer? app.version rest.head? <;> rfl

/-- The tool's own flags, with nothing given to them yet. -/
theorem flags_declare_globals (app : App) :
    Ledger.flags (.declare (app.flags ++ [.help, .version])) = Globals.flags app := by
  rw [Ledger.flags_declare, FlagList.reset, List.map_append]
  rfl

/-- **A split of the grammar is what the reader makes of its arguments.** -/
theorem line?_of_reads {app : App} {s : Split} {globals : Ledger} {w : Walked}
    (h : s.Reads app globals w) :
    line? app s.arguments = some ⟨s.program, globals.flags, w.descent⟩ := by
  have ht : s.body.head? ≠ some Completion.trigger := fun e =>
    h.untriggered (List.mem_of_head? e)
  obtain ⟨c, hread, hc⟩ := Globals.read_of_entersAll (c := ⟨s.arguments, 1⟩) h.entered h.noOption
    rfl h.untriggered
  rw [flags_declare_globals] at hread
  obtain ⟨c', hn, hc'⟩ := Cursor.next_of_unread hc
  have hmem {a : String} (hm : a ∈ s.command.name :: s.behind) : a ∈ s.body :=
    List.mem_append_right _ hm
  have hname : ¬ (asksHelp s.command.name = true ∨ s.command.name = Completion.trigger) := by
    rintro (e | e)
    · rw [h.noHelp] at e
      cases e
    · exact h.untriggered (hmem (e ▸ List.mem_cons_self))
  have hhelp : (Descent.asksHelp c'.peek? && s.command.isGroup) = false := by
    rw [Cursor.peek?_eq_head?_unread, hc', Bool.and_eq_false_imp]
    intro ha
    refine Bool.eq_false_iff.2 fun hg => ?_
    rw [h.noGroupHelp hg] at ha
    cases ha
  have hwalk : Descent.walk (.start s.command) c' = (w.descent, .complete) := by
    rw [← Walked.descent_start]
    refine Descent.walk_of_walks h.walked hc' fun hm => ?_
    rw [hc'] at hm
    exact h.untriggered (hmem (List.mem_cons_of_mem _ hm))
  rw [Split.arguments, line?_cons, if_neg ht, h.unasked]
  rw [Split.arguments] at hread
  simp only [hread, lineBehindGlobals?, hn, if_neg hname, h.found, Descent.read, hhelp, hwalk,
    Bool.false_eq_true, if_false]

/-- **What the reader makes of a command line is a split of the grammar.** -/
theorem reads_of_line? {app : App} {argv : List String} {line : Line} (h : line? app argv = some line) :
    ∃ s globals w, Split.arguments s = argv ∧ s.Reads app globals w ∧
      line = ⟨s.program, globals.flags, w.descent⟩ := by
  cases argv with
  | nil => cases h
  | cons program rest =>
    rw [line?_cons] at h
    split at h
    · cases h
    split at h
    · cases h
    rename_i ht hasked
    split at h
    · rename_i flags c hread
      rw [← flags_declare_globals] at hread
      obtain ⟨ss, globals, hss, rfl, hu⟩ := Globals.entersAll_of_read hread
      unfold lineBehindGlobals? at h
      split at h
      · cases h
      rename_i name c' hn
      split at h
      · cases h
      rename_i hname
      split at h
      · cases h
      rename_i command hfound
      split at h
      · rename_i d hd
        cases h
        have hname' := not_or.1 hname
        have hu' : c.unread = name :: c'.unread := Cursor.unread_of_next hn
        unfold Descent.read at hd
        split at hd
        · cases hd
        rename_i hhelp
        rw [← Walked.descent_start] at hd
        obtain ⟨parts, w, hw, rfl, hparts, hfree⟩ := Descent.walks_of_walk hd
        have hcn : command.name = name := Command.name_of_find? hfound
        refine ⟨⟨program, ss, command, parts⟩, globals, w, ?_, ?_, rfl⟩
        · rw [Split.arguments, Split.body, Split.behind, hcn, ← hparts, ← hu', ← hu]
          rfl
        · have hbody : rest = Split.body ⟨program, ss, command, parts⟩ := by
            rw [Split.body, Split.behind, hcn, ← hparts, ← hu', ← hu]
            rfl
          refine ⟨?_, ?_, ?_, ?_, ?_, ?_, ?_, hw⟩
          · rw [← hbody]
            intro hm
            have hm' := Globals.trigger_mem_of_read hread hm
            rw [hu'] at hm'
            exact (List.mem_cons.1 hm').elim (fun e => hname'.2 e.symm) hfree
          · rw [← hbody]
            exact hasked
          · rw [Split.behind, hcn, ← hparts, ← hu']
            exact hss
          · rw [hcn]
            exact (Globals.noOption_of_read hread hn).resolve_left hname'.2
          · rw [hcn]
            exact Bool.eq_false_iff.2 hname'.1
          · rw [hcn]
            exact hfound
          · intro hg
            rw [Split.behind, ← hparts, ← Cursor.peek?_eq_head?_unread]
            refine Bool.eq_false_iff.2 fun ha => hhelp ?_
            rw [ha]
            exact hg
      · cases h
    · cases h

/-! ## 2. What becomes of a line -/

/-- What is left to do with a line once the session is set up: its flags and arguments are checked,
    and the clients are made. -/
def finish (line : Line) : Run ParseError Prepared := do
  let d ← ExceptT.adapt .command (ExceptT.adapt .descent do
    logWalk line.descent.chain.tail
    check line.descent)
  ExceptT.adapt .connect (connect line.program (belowTool line.globals) d)

/-- What is left to do with a line that is read. -/
def settle (app : App) (line : Line) : Run ParseError Prepared := do
  ExceptT.adapt .setup (Setup.run app.version line.globals)
  finish line

theorem read_cons (app : App) (program : String) (rest : List String) :
    read app (program :: rest) =
      if rest.head? = some Completion.trigger then do
        Effect.print (Completion.ofCommands app.commands)
        return none
      else match Version.answer? app.version rest.head? with
        | some text => do
          Effect.print text
          return none
        | none => readArguments app program ⟨program :: rest, 1⟩ := by
  have hp : (Cursor.mk (program :: rest) 1).peek? = rest.head? := Cursor.peek?_eq_head?_unread _
  unfold read
  show (if (Cursor.mk (program :: rest) 1).peek? = some Completion.trigger then _
    else match Version.answerNext app.version ⟨program :: rest, 1⟩ with
      | (some text, _) => (do
        Effect.print text
        return none : Run ParseError (Option Prepared))
      | (none, c) => readArguments app program c) = _
  rw [hp, answerNext_behind]
  cases Version.answer? app.version rest.head? <;> rfl

theorem perform_readBehindGlobals {app : App} {program : String} {globals : FlagList} {c : Cursor}
    {line : Line} (h : lineBehindGlobals? app program globals c = some line) (p : Execution) :
    line.program = program ∧ line.globals = globals ∧
      (readBehindGlobals app program globals c).perform p =
        (((finish line).perform p).1.map some, ((finish line).perform p).2) := by
  unfold lineBehindGlobals? at h
  split at h
  · cases h
  rename_i name c' hn
  split at h
  · cases h
  rename_i hname
  split at h
  · cases h
  rename_i command hfound
  split at h
  · rename_i d hd
    cases h
    obtain ⟨hhelp, htrigger⟩ := not_or.1 hname
    refine ⟨rfl, rfl, ?_⟩
    unfold readBehindGlobals
    simp only [hn, hhelp, htrigger, Bool.false_eq_true, if_false, findCommand, hfound, readCommand,
      hd, finish, Run.perform_bind, Run.perform_adapt, Run.perform_lift, Run.perform_pure]
    rcases (check d).perform ((logWalk d.chain.tail).perform p).2 with ⟨_ | d', q⟩
    · rfl
    · simp only [Run.mapError_ok, Run.perform_bind, Run.perform_adapt, Run.perform_pure]
      rcases (connect program (belowTool globals) d').perform q with ⟨_ | prepared, r⟩ <;> rfl
  · cases h

/-- **What becomes of a line that is read**: it is settled, and nothing else happens. -/
theorem perform_read_of_line? {app : App} {argv : List String} {line : Line}
    (h : line? app argv = some line) (p : Execution) :
    (read app argv).perform p =
      (((settle app line).perform p).1.map some, ((settle app line).perform p).2) := by
  cases argv with
  | nil => cases h
  | cons program rest =>
    rw [line?_cons] at h
    rw [read_cons]
    split at h
    · cases h
    rename_i ht
    rw [if_neg ht]
    split at h
    · cases h
    split at h
    · rename_i globals c hread
      obtain ⟨hp, hg, _⟩ := perform_readBehindGlobals h p
      simp only [readArguments, hread, settle, hg, Run.perform_bind, Run.perform_adapt]
      rcases (Setup.run app.version globals).perform p with ⟨_ | _, q⟩
      · rfl
      · exact (perform_readBehindGlobals h q).2.2
    · cases h

/-- A command that is found was read to its end, and is what the checks made of it. -/
theorem descent_of_findCommand {app : App} {program name : String} {globals : FlagList} {c : Cursor}
    {p q : Execution} {d : Descent}
    (h : (findCommand app program globals name c).perform p = (.ok (some d), q)) :
    ∃ command read m, Command.find? app.commands name = some command ∧
      Descent.read command c = (read, .complete) ∧ m.session = p.session ∧
      (check read).perform m = (.ok d, q) := by
  unfold findCommand at h
  cases hf : Command.find? app.commands name with
  | none =>
    rw [hf] at h
    cases hm : suggestion? name app.commands <;> rw [hm] at h <;> cases h
  | some command =>
    rcases hd : Descent.read command c with ⟨read, landing⟩
    simp only [hf, readCommand, hd, Run.perform_adapt, Run.perform_bind, Run.perform_lift] at h
    cases landing with
    | complete =>
      refine ⟨command, read, _, rfl, hd, (quiet_logWalk read.chain.tail p).session, ?_⟩
      rcases hc : (check read).perform ((logWalk read.chain.tail).perform p).2 with ⟨_ | d', t⟩
      · simp only [Run.perform_bind, hc] at h
        cases h
      · simp only [Run.perform_bind, hc] at h
        cases h
        rfl
    | help => cases h
    | hints text => cases h
    | failed e => cases h

theorem line?_of_perform_readBehindGlobals {app : App} {program : String} {globals : FlagList}
    {c : Cursor} {p q : Execution} {prepared : Prepared}
    (h : (readBehindGlobals app program globals c).perform p = (.ok (some prepared), q)) :
    ∃ line, lineBehindGlobals? app program globals c = some line := by
  unfold readBehindGlobals at h
  split at h
  · cases h
  rename_i name c' hn
  rw [Run.perform_ite] at h
  split at h
  · cases h
  rename_i hhelp
  rw [Run.perform_ite] at h
  split at h
  · cases h
  rename_i htrigger
  unfold lineBehindGlobals?
  simp only [hn, hhelp, htrigger, Bool.false_eq_true, or_self, if_false]
  rw [Run.perform_bind, Run.perform_adapt] at h
  rcases hfound : (findCommand app program (belowTool globals) name c').perform p with
    ⟨_ | _ | d, t⟩
  · rw [hfound] at h
    cases h
  · rw [hfound] at h
    cases h
  · obtain ⟨command, read, _, hf, hread, _⟩ := descent_of_findCommand hfound
    exact ⟨⟨program, globals, read⟩, by simp only [hf, hread]⟩

/-- A command line that leads to a command is read to its end. -/
theorem line?_of_perform_read {app : App} {argv : List String} {p q : Execution} {prepared : Prepared}
    (h : (read app argv).perform p = (.ok (some prepared), q)) : ∃ line, line? app argv = some line := by
  cases argv with
  | nil => cases h
  | cons program rest =>
    rw [read_cons] at h
    rw [line?_cons]
    split at h
    · cases h
    rename_i ht
    rw [if_neg ht]
    split at h
    · cases h
    unfold readArguments at h
    split at h
    · cases h
    · cases h
    · rename_i globals c hread
      simp only [hread]
      rw [Run.perform_bind] at h
      split at h
      · exact line?_of_perform_readBehindGlobals h
      · cases h

end CommandLine

/-! ## 3. What is handed on -/

namespace Connect

variable {i j : Invocation} {p q : Execution}

theorem frame_of_source (h : (source i).perform p = (.ok j, q)) : j = { i with client := j.client } := by
  unfold source at h
  split at h
  · cases h
    rfl
  · simp only [Run.perform_bind, Run.perform_lift] at h
    rw [Run.perform_ite] at h
    split at h
    · simp only [Run.perform_bind, Run.perform_lift] at h
      split at h
      · cases h
        rfl
      · cases h
    · cases h
      rfl

/-- The clients are all that is added to an invocation. -/
theorem frame_of_run (h : (run i).perform p = (.ok j, q)) :
    j = { i with client := j.client, destination := j.destination } := by
  unfold run at h
  rw [Run.perform_bind] at h
  split at h
  · rename_i k r hk
    have hi := frame_of_source hk
    unfold destination at h
    split at h
    · cases h
      rw [hi]
    · simp only [Run.perform_bind, Run.perform_lift] at h
      split at h
      · cases h
        rw [hi]
      · cases h
  · cases h

end Connect

namespace CommandLine

/-- A command is connected with what was read and checked. -/
theorem prepared_of_connect {program : String} {globals : FlagList} {d : Descent} {p q : Execution}
    {prepared : Prepared} (h : (connect program globals d).perform p = (.ok prepared, q)) :
    prepared.command = d.command ∧ prepared.invocation.program = program ∧
      prepared.invocation.globals = globals ∧ prepared.invocation.chain = d.chain ∧
      prepared.invocation.required = d.required ∧ prepared.invocation.flags = d.flags ∧
      prepared.invocation.args = d.args := by
  unfold connect at h
  rw [Run.perform_bind] at h
  split at h
  · rename_i i r hi
    have hframe := Connect.frame_of_run hi
    cases h
    rw [hframe]
    exact ⟨rfl, rfl, rfl, rfl, rfl, rfl, rfl⟩
  · cases h

/-- What a line comes to once the session is set up: the error of the checks, or else what the clients
    come to, which are made when the memory has taken part. -/
theorem perform_finish (line : Line) (p : Execution) :
    ∃ t, t.session = remembering line.descent p.session ∧
      (finish line).perform p =
        match line.descent.verdict p.session.settings p.session.servers with
        | .error e => (.error (.command (.descent e)), t)
        | .ok d =>
          let connected := (connect line.program (belowTool line.globals) d).perform t
          (connected.1.mapError .connect, connected.2) := by
  obtain ⟨hverdict, hsession⟩ :=
    perform_check ((logWalk line.descent.chain.tail).perform p).2 line.descent
  rw [(quiet_logWalk line.descent.chain.tail p).session] at hverdict hsession
  refine ⟨_, hsession, ?_⟩
  rw [← hverdict]
  simp only [finish, Run.perform_bind, Run.perform_adapt, Run.perform_lift]
  rcases (check line.descent).perform ((logWalk line.descent.chain.tail).perform p).2 with
    ⟨_ | d, t⟩ <;> rfl

/-- **How a command line comes to a command**: it is read to its end, the session is set up, the
    verdict accepts it, the memory takes part, and the clients are made. -/
theorem stages_of_read {app : App} {argv : List String} {p q : Execution} {prepared : Prepared}
    (h : (read app argv).perform p = (.ok (some prepared), q)) :
    ∃ line r checked t, line? app argv = some line ∧
      (Setup.run app.version line.globals).perform p = (.ok (), r) ∧
      line.descent.verdict r.session.settings r.session.servers = .ok checked ∧
      t.session = remembering line.descent r.session ∧
      (connect line.program (belowTool line.globals) checked).perform t = (.ok prepared, q) := by
  obtain ⟨line, hline⟩ := line?_of_perform_read h
  rw [perform_read_of_line? hline] at h
  unfold settle at h
  rw [Run.perform_bind, Run.perform_adapt] at h
  rcases hs : (Setup.run app.version line.globals).perform p with ⟨_ | u, r⟩
  · rw [hs] at h
    cases h
  rw [hs] at h
  obtain ⟨t, ht, hfinish⟩ := perform_finish line r
  simp only [Run.mapError_ok, hfinish] at h
  cases hverdict : line.descent.verdict r.session.settings r.session.servers with
  | error e =>
    rw [hverdict] at h
    cases h
  | ok checked =>
    rw [hverdict] at h
    rcases hc : (connect line.program (belowTool line.globals) checked).perform t with
      ⟨_ | prepared', q'⟩
    · simp only [hc] at h
      cases h
    · simp only [hc] at h
      cases h
      exact ⟨line, r, checked, t, hline, hs, hverdict, ht, hc⟩

end CommandLine

/-- What is read comes from reading: `App.parse` only has its own way of reporting failures. -/
theorem App.read_of_parse {app : App} {argv : List String} {p q : Execution} {prepared : Prepared}
    (h : (app.parse argv).perform p = (.ok (some prepared), q)) :
    (CommandLine.read app argv).perform p = (.ok (some prepared), q) := by
  unfold parse at h
  rw [Run.perform_adapt] at h
  rcases hr : (CommandLine.read app argv).perform p with ⟨_ | line, q'⟩
  · rw [hr] at h
    cases h
  · rw [hr] at h
    cases h
    rfl

/-! ## 4. Left to right -/

/-- **A command line is read from left to right, and nothing of it is skipped, read twice or moved.**

    A line that leads to a command splits into the program's name, options of the tool, the name of a
    command, and options, names of subcommands and arguments behind it; each option has just the value
    that the first flag which answers to it takes. The chain is the names of the commands, and what is
    handed to the checks is the arguments in order, and the declared flags of all commands of the
    chain, each reset and then given the LAST of what the line gives it.

    Conversely a line that splits so is handed to the checks as the split says: all that can still go
    wrong is the setting up of the session, the checks themselves, and the clients. And the reading
    always ends: each round of its loops leaves fewer arguments to come, whatever was put back. -/
theorem App.parse_splits (app : App) (argv : List String) :
    (∀ p q prepared, (app.parse argv).perform p = (.ok (some prepared), q) →
      ∃ (s : Split) (globals : Ledger) (w : Walked), s.arguments = argv ∧ s.Reads app globals w ∧
        w.descent.command = prepared.command ∧ w.descent.chain = prepared.invocation.chain ∧
        w.descent.chain = s.command.name :: s.parts.filterMap Part.subcommand? ∧
        w.descent.args = s.parts.filterMap Part.argument? ∧
        w.ledger.map Entry.blueprint = Walked.accumulated w.levels ∧
        w.descent.flags = w.ledger.map (fun e =>
          (e.given.getLast?).elim e.blueprint.reset e.blueprint.reset.setTo) ∧
        ∃ r r' checked, (Setup.run app.version globals.flags).perform p = (.ok (), r) ∧
          (CommandLine.check w.descent).perform r = (.ok checked, r') ∧
          prepared.invocation.flags = checked.flags ∧ prepared.invocation.args = checked.args) ∧
    (∀ (s : Split) (globals : Ledger) (w : Walked), s.arguments = argv → s.Reads app globals w →
      ∀ p, (app.parse argv).perform p =
        let settled := (CommandLine.settle app ⟨s.program, globals.flags, w.descent⟩).perform p
        ((settled.1.map some).mapError fun e => e.fault.wrap "Parse" 1, settled.2)) ∧
    (∀ (fs gs : FlagList) (o : OptionToken) (arg : String) (c behind c' : Cursor),
      c.next = (some arg, behind) → fs.apply o behind = .ok (gs, c') →
        c'.unread.length < c.unread.length) := by
  refine ⟨fun p q prepared h => ?_, fun s globals w ha hr p => ?_, fun _ _ _ _ _ _ _ hn ha => ?_⟩
  · obtain ⟨line, r, checked, t, hline, hsetup, hverdict, _, hconnect⟩ :=
      CommandLine.stages_of_read (read_of_parse h)
    obtain ⟨s, globals, w, hargs, hreads, rfl⟩ := CommandLine.reads_of_line? hline
    obtain ⟨hcommand, _, _, hchain, _, hflags, harg⟩ := CommandLine.prepared_of_connect hconnect
    have hchecked := Descent.eq_of_verdict hverdict
    have hnames := hreads.walked.names
    have hwargs := hreads.walked.args
    refine ⟨s, globals, w, hargs, hreads, ?_, ?_, hnames, hwargs, ?_, ?_, r,
      ((CommandLine.check w.descent).perform r).2, checked, hsetup, ?_, hflags, harg⟩
    · rw [hcommand, hchecked]
    · rw [hchain, hchecked]
    · refine hreads.walked.blueprints ?_
      simp only [Walked.start, Ledger.declare, List.map_map, Walked.levels, Walked.accumulated,
        List.foldl_nil]
      exact List.map_id _
    · exact List.map_congr_left fun e _ => e.flag_eq
    · exact Prod.ext ((CommandLine.perform_check r w.descent).1.trans hverdict) rfl
  · rw [parse, Run.perform_adapt, ← ha, CommandLine.perform_read_of_line? (CommandLine.line?_of_reads hr)]
  · exact FlagList.unread_lt_of_apply hn ha

/-- A line with options of the tool, an argument among the options of the command, and a flag that is
    given twice. -/
theorem App.parse_splits_resolve :
    let argv := ["ngsi", "--batch", "ON", "resolve", "-h", "http://localhost", "here",
      "--service", "a", "--service", "b"]
    let p : Execution := { session := { store := some (.inMemory {}) } }
    (∃ (s : Split) (globals : Ledger) (w : Walked), s.arguments = argv ∧
      s.Reads Tool.app globals w ∧ w.descent.chain = ["resolve"] ∧
      (Tool.app.parse argv).perform p =
        let settled := (CommandLine.settle Tool.app ⟨s.program, globals.flags, w.descent⟩).perform p
        ((settled.1.map some).mapError fun e => e.fault.wrap "Parse" 1, settled.2)) ∧
      (Cursor.mk argv 3).unread.length < (Cursor.mk argv 1).unread.length := by
  intro argv p
  have hchain : ((Tool.app.parse argv).perform p).1.toOption.join.map (·.invocation.chain) =
      some ["resolve"] := by decide +kernel
  obtain ⟨hsplit, hsettle, hfewer⟩ := App.parse_splits Tool.app argv
  refine ⟨?_, ?_⟩
  · rcases hp : (Tool.app.parse argv).perform p with ⟨_ | _ | prepared, q⟩
    · simp [hp, Except.toOption] at hchain
    · simp [hp, Except.toOption] at hchain
    · obtain ⟨s, globals, w, hs, hr, _, hw, _⟩ := hsplit p q prepared hp
      rw [hp] at hchain
      exact ⟨s, globals, w, hs, hr, hw.trans (Option.some.inj hchain),
        hp ▸ hsettle s globals w hs hr p⟩
  · have hn : (Cursor.mk argv 1).next = (some "--batch", ⟨argv, 2⟩) := by decide
    have ha : (Globals.flags Tool.app).apply ⟨"batch", ""⟩ ⟨argv, 2⟩ =
        .ok ((Globals.flags Tool.app).map fun f =>
          if f.name = "batch" then f.setTo (.truth true) else f, ⟨argv, 3⟩) := rfl
    exact hfewer _ _ _ _ _ _ _ hn ha

end BrokerCli
