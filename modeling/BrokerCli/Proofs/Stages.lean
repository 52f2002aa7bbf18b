import BrokerCli.Proofs.Exchange
import BrokerCli.Proofs.Line

/-!
# The stages of a run

A run reads the tool's own options, sets the session up from them, reads what stands behind them, and
then does what the command does. The statements about whole runs are put together of statements about
these stages:

* `CommandLine.opening?` -- the tool's own options, if they are read to their end; what is behind them
  is read in a session that is set up (`read_of_opening?`), and without them nothing is set up at all
  (`read_of_no_opening`);
* `Setup.place?` -- where the configuration is kept: in the store of the session, or in the file that the
  options choose; `Setup.perform_run` -- the setting up, with its first choice made;
* `App.conclude` -- what becomes of a command line that was read, or was not; and
  `CommandLine.phases_of_read` -- the phases behind a command that is ready;
* `App.Has`, `App.Acts` -- the commands of a tool, at all levels, and what their actions have in
  common. A command line leads to no other command (`App.has_of_read`);
* `Execution.Spares` -- nothing is written. Reading a command line spares files and store
  (`CommandLine.spares_read`).
-/

namespace BrokerCli

open Grammar

/-! ## 1. The tool's own options -/

/-- The tool's own options as they were read, with what stands around them. -/
structure Opening where
  program : String
  globals : FlagList
  behind : Cursor

namespace CommandLine

/-- The tool's own options of a command line, if they are read to their end. -/
def opening? (app : App) (argv : List String) : Option Opening :=
  match (Cursor.mk argv 0).next with
  | (none, _) => none
  | (some program, c) =>
    if c.peek? = some Completion.trigger then none
    else match Version.answerNext app.version c with
      | (some _, _) => none
      | (none, c) => match Globals.read (Globals.flags app) c with
        | (globals, .reached c) => some ⟨program, globals, c⟩
        | _ => none

variable {app : App} {argv : List String} {o : Opening}

/-- The steps that lead behind the tool's options. -/
theorem steps_of_opening? (h : opening? app argv = some o) :
    ∃ c c', (Cursor.mk argv 0).next = (some o.program, c) ∧ c.peek? ≠ some Completion.trigger ∧
      Version.answerNext app.version c = (none, c') ∧
      Globals.read (Globals.flags app) c' = (o.globals, .reached o.behind) := by
  unfold opening? at h
  split at h
  · cases h
  rename_i program c hn
  split at h
  · cases h
  rename_i ht
  split at h
  · cases h
  rename_i c' ha
  split at h
  · rename_i globals behind hread
    cases h
    exact ⟨c, c', hn, ht, ha, hread⟩
  · cases h

/-- What stands behind the tool's options is read when the session is set up from them. -/
theorem read_of_opening? (h : opening? app argv = some o) : read app argv = (do
    ExceptT.adapt .setup (Setup.run app.version o.globals)
    readBehindGlobals app o.program o.globals o.behind) := by
  obtain ⟨c, c', hn, ht, ha, hread⟩ := steps_of_opening? h
  unfold read
  simp only [hn, if_neg ht, ha, readArguments, hread]

/-- A line is read to its end if the tool's options are, and what stands behind them. -/
theorem line?_eq_bind (app : App) (argv : List String) : line? app argv =
    (opening? app argv).bind fun o => lineBehindGlobals? app o.program o.globals o.behind := by
  unfold line? opening?
  rcases (Cursor.mk argv 0).next with ⟨_ | program, c⟩
  · rfl
  dsimp only
  by_cases ht : c.peek? = some Completion.trigger
  · rw [if_pos ht, if_pos ht]
    rfl
  rw [if_neg ht, if_neg ht]
  rcases Version.answerNext app.version c with ⟨_ | text, c'⟩
  · dsimp only
    rcases Globals.read (Globals.flags app) c' with ⟨globals, _ | _ | _⟩ <;> rfl
  · rfl

/-- A command line whose options are not read to their end fails or is answered at once. -/
theorem read_of_no_opening (h : opening? app argv = none) :
    (∃ e, read app argv = throw e) ∨
      ∃ text, read app argv = (do
        Effect.print text
        return none : Run ParseError (Option Prepared)) := by
  unfold opening? at h
  unfold read
  split
  · exact .inl ⟨_, rfl⟩
  rename_i program c hn
  simp only [hn] at h
  split
  · exact .inr ⟨_, rfl⟩
  rename_i ht
  rw [if_neg ht] at h
  split
  · exact .inr ⟨_, rfl⟩
  rename_i c' ha
  simp only [ha] at h
  unfold readArguments
  split
  · exact .inl ⟨_, rfl⟩
  · exact .inr ⟨_, rfl⟩
  · rename_i hread
    simp only [hread] at h
    cases h

end CommandLine

/-! ## 2. Setting up -/

namespace Setup

/-- Where a run with these options keeps its configuration: in the store of its session, or else in the
    file that the options choose. -/
def place? (fs : FlagList) (p : Execution) : Option Place :=
  match p.session.store with
  | some store => some ⟨store, p.files⟩
  | none =>
    match p.environment.configurationPath (fs.textIfSet "config") (fs.textIfSet "configDir") with
    | .ok path => some ⟨.file path, p.files⟩
    | .error _ => none

/-- The execution in which the options have chosen between a batch run and another one. -/
def choosing (fs : FlagList) (p : Execution) : Execution :=
  if fs.isSet "batch" then { p with session := { p.session with batch := fs.truth "batch" } } else p

/-- The setting up, once it is clear that the options do not contradict each other. -/
def settle (version : String) (fs : FlagList) : Run SetupError Unit := do
  chooseStore fs
  loadConfiguration
  setStderrLevel fs
  setSyslogLevel fs
  Effect.modifySession (withLimits fs)
  Effect.log .info version
  Effect.modifySession (withCache fs)

theorem place?_choosing (fs : FlagList) (p : Execution) : place? fs (choosing fs p) = place? fs p := by
  unfold choosing
  split <;> rfl

/-- **The setting up of a session**: the choice of batch runs comes first, whatever comes then. -/
theorem perform_run (version : String) (fs : FlagList) (p : Execution) :
    (run version fs).perform p =
      if placesConflict fs then (.error .conflictingPlaces, choosing fs p)
      else (settle version fs).perform (choosing fs p) := by
  unfold run choosing
  dsimp only
  by_cases hb : fs.isSet "batch" = true
  · rw [if_pos hb, if_pos hb, Run.perform_bind, Run.perform_lift, Effect.perform_modifySession]
    dsimp only
    split <;> rfl
  · rw [if_neg hb, if_neg hb]
    split <;> rfl

/-- The store of the session is kept; without one, the options choose a file, or there is no place. -/
theorem perform_chooseStore_of_place? (fs : FlagList) (p : Execution) :
    (chooseStore fs).perform p = match place? fs p with
      | some b => (.ok (), { p with session := { p.session with store := some b.store } })
      | none => (.error (.noPlace .noDirectory), p) := by
  unfold place?
  cases hs : p.session.store with
  | some store =>
    have hat : p.At ⟨store, p.files⟩ := ⟨hs, rfl⟩
    have hp : { p with session := { p.session with store := some store } } = p := by rw [← hs]
    rw [perform_chooseStore hat]
    dsimp only
    rw [hp]
  | none =>
    unfold chooseStore
    rw [Run.perform_bind, Run.perform_get]
    simp only [hs, Option.isNone_none, if_true]
    cases p.environment.configurationPath (fs.textIfSet "config") (fs.textIfSet "configDir") with
    | ok path => rfl
    | error e =>
      cases e
      rfl

/-- The settings that a configuration comes with, in a batch run or in another one. -/
def settingsIn (batch : Bool) (c : Configuration) : Settings := if batch then .batch else c.settings

/-- What reading the configuration comes to, at a place where it is found. -/
theorem perform_loadConfiguration {p : Execution} {b : Place} {c : Configuration}
    {remark : Option String} (hb : p.At b) (hc : b.store.load b.files = .ok (c, remark)) :
    loadConfiguration.perform p =
      let q := ((Effect.remark remark).perform p).2
      (.ok (), { q with session := { q.session with
        settings := settingsIn p.session.batch c, servers := c.servers, extra := c.extra } }) := by
  have hsession := (Effect.quiet_remark remark p).session
  unfold loadConfiguration
  rw [Run.perform_bind, Run.perform_adapt, Session.perform_load hb hc]
  generalize ((Effect.remark remark).perform p).2 = q at hsession
  rw [← hsession]
  simp only [Run.mapError_ok, Run.perform_lift, Effect.perform_modifySession, settingsIn]
  by_cases hon : q.session.batch = true
  · have hon' : (q.session.withConfiguration c).batch = true := hon
    rw [if_pos hon, if_pos hon']
    rfl
  · have hon' : (q.session.withConfiguration c).batch ≠ true := hon
    rw [if_neg hon, if_neg hon']
    rfl

/-- What it comes to at a place from which nothing can be read. -/
theorem perform_loadConfiguration_of_error {p : Execution} {b : Place} {e : StoreError} (hb : p.At b)
    (hc : b.store.load b.files = .error e) : loadConfiguration.perform p = (.error (.store e), p) := by
  unfold loadConfiguration Session.load
  rw [Run.perform_bind, Run.perform_adapt, Run.perform_bind, Run.perform_get]
  simp only [hb.store, hb.files, hc]
  rfl

/-- **The settings of a session that is set up** are those that the configuration comes with, but for
    the levels of the log and the file of the cache. -/
theorem settings_of_run {version : String} {fs : FlagList} {p r : Execution} {b : Place}
    {c : Configuration} (hb : p.At b) (hc : b.held? = some c)
    (h : (run version fs).perform p = (.ok (), r)) :
    ∃ stderr syslog cacheFile, r.session.settings =
      { settingsIn r.session.batch c with stderr, syslog, cacheFile } := by
  obtain ⟨remark, hc⟩ := Place.held?_eq_some_iff.1 hc
  have hchosen : (choosing fs p).At b := by
    unfold choosing
    split
    · exact ⟨hb.store, hb.files⟩
    · exact hb
  rw [perform_run] at h
  split at h
  · cases h
  generalize choosing fs p = p' at hchosen h
  unfold settle at h
  rw [Run.perform_bind, perform_chooseStore hchosen] at h
  dsimp only at h
  rw [Run.perform_bind, perform_loadConfiguration hchosen hc] at h
  dsimp only at h
  have htunes := congrArg Prod.snd h ▸ tunes_rest version fs _
  obtain ⟨stderr, syslog, cacheFile, hsettings⟩ := htunes.settings
  have hremark : ((Effect.remark remark).perform p').2.session.batch = p'.session.batch :=
    congrArg Session.batch (Effect.quiet_remark remark p').session
  have hmode : r.session.batch = p'.session.batch := htunes.batch.trans hremark
  exact ⟨stderr, syslog, cacheFile, by rw [hsettings, hmode]⟩

section

variable {R : Execution → Execution → Prop} [IsPreorder Execution R]
  (hsame : ∀ p q : Execution, q.transcript = p.transcript → R p q)
  (hlog : ∀ severity message, (Effect.log severity message).Respects R)
include hsame hlog

theorem respects_loadConfiguration : loadConfiguration.Respects R := by
  have hremark (text : Option String) : (Effect.remark text).Respects R := by
    cases text with
    | none => exact .pure ()
    | some text => exact hlog .debug text
  have hload : Session.load.Respects R := by
    intro p
    unfold Session.load
    rw [Run.perform_bind, Run.perform_get]
    dsimp only
    cases p.session.store with
    | none => exact refl_of R p
    | some store =>
      dsimp only
      cases store.load p.files with
      | error e => exact refl_of R p
      | ok found =>
        exact Run.Respects.bind (.lift (hremark found.2)) (fun _ => .lift fun q => hsame _ _ rfl) p
  exact .bind (.adapt hload) fun _ => .lift fun p => hsame _ _ rfl

/-- **Setting up a session shows nothing but log records**: it moves an execution along every relation that
    looks only at what was shown, if log records do. -/
theorem respects_run (version : String) (fs : FlagList) : (run version fs).Respects R := by
  have hchosen : (chooseStore fs).Respects R := by
    intro p
    rw [perform_chooseStore_of_place?]
    split <;> exact hsame _ _ rfl
  have hsession (f : Session → Session) : (Effect.modifySession f).Respects R :=
    fun p => hsame _ _ rfl
  have htuning : Tuning (Run.Respects R) :=
    .along hlog (fun _ => hsession _) (fun _ => hsession _) (fun _ _ => hsame _ _ rfl)
      (fun _ => hsession _) (fun _ => hsession _) fun _ => hsession _
  have hsettle : (settle version fs).Respects R :=
    .bind hchosen fun _ => .bind (respects_loadConfiguration hsame hlog) fun _ =>
      htuning.rest version fs
  intro p
  have hchoosing : R p (choosing fs p) := by
    unfold choosing
    split
    · exact hsame _ _ rfl
    · exact refl_of R p
  rw [perform_run]
  split
  · exact hchoosing
  · exact trans_of R hchoosing (hsettle _)

end

end Setup

/-- What is read behind the tool's options, once the options have chosen the mode of the run. -/
theorem CommandLine.perform_read_of_opening? {app : App} {argv : List String} {o : Opening}
    (h : opening? app argv = some o) (p : Execution) :
    (read app argv).perform p =
      if Setup.placesConflict o.globals then
        (.error (.setup .conflictingPlaces), Setup.choosing o.globals p)
      else
        (do ExceptT.adapt .setup (Setup.settle app.version o.globals)
            readBehindGlobals app o.program o.globals o.behind : Run ParseError _).perform
          (Setup.choosing o.globals p) := by
  rw [read_of_opening? h, Run.perform_bind, Run.perform_adapt, Setup.perform_run]
  by_cases hconflict : Setup.placesConflict o.globals = true
  · simp only [hconflict, if_true]
    rfl
  · simp only [hconflict, Bool.false_eq_true, if_false]
    rw [Run.perform_bind, Run.perform_adapt]

/-! ## 3. What becomes of a command line -/

/-- What becomes of a command line that was read, or was not. -/
def App.conclude (argv : List String) : Except ParseError (Option Prepared) → Run RunError Unit
  | .error e => if argv.getLast? = some Completion.trigger then pure () else throw (.parse e)
  | .ok none => pure ()
  | .ok (some p) => dispatch p

theorem App.perform_run (app : App) (argv : List String) (p : Execution) :
    (run app argv).perform p =
      let read := (CommandLine.read app argv).perform p
      (conclude argv read.1).perform read.2 := by
  unfold run
  rw [Run.perform_bind, Run.perform_attempt]
  dsimp only
  rcases ((CommandLine.read app argv).perform p).1 with e | _ | prepared <;> rfl

/-- The phases that a run has behind it when its command is ready. -/
theorem CommandLine.phases_of_read {app : App} {argv : List String} {p q : Execution}
    {prepared : Prepared} (h : (read app argv).perform p = (.ok (some prepared), q)) :
    ∃ line r checked t, line? app argv = some line ∧
      (Setup.run app.version line.globals).perform p = (.ok (), r) ∧
      (check line.descent).perform ((logWalk line.descent.chain.tail).perform r).2 =
        (.ok checked, t) ∧
      (connect line.program (belowTool line.globals) checked).perform t = (.ok prepared, q) := by
  obtain ⟨line, hline⟩ := line?_of_perform_read h
  rw [perform_read_of_line? hline] at h
  unfold settle at h
  rw [Run.perform_bind, Run.perform_adapt] at h
  rcases hs : (Setup.run app.version line.globals).perform p with ⟨_ | u, r⟩
  · rw [hs] at h
    cases h
  rw [hs] at h
  simp only [Run.mapError_ok, finish, Run.perform_bind, Run.perform_adapt, Run.perform_lift] at h
  rcases hc : (check line.descent).perform ((logWalk line.descent.chain.tail).perform r).2 with
    ⟨_ | checked, t⟩
  · rw [hc] at h
    cases h
  simp only [hc, Run.mapError_ok] at h
  rcases hi : (connect line.program (belowTool line.globals) checked).perform t with ⟨_ | prepared', q'⟩
  · simp only [hi] at h
    cases h
  · simp only [hi] at h
    cases h
    exact ⟨line, r, checked, t, hline, hs, hc, hi⟩

/-! ## 4. The commands of a tool -/

/-- The command itself, and the commands below it at all levels. -/
inductive Command.Under (top : Command) : Command → Prop where
  | self : Under top top
  | sub {c d : Command} (h : Under top c) (hd : d ∈ c.subcommands) : Under top d

/-- Below a command without subcommands there is only itself. -/
theorem Command.Under.eq_of_leaf {top c : Command} (hleaf : top.subcommands = [])
    (h : top.Under c) : c = top := by
  induction h with
  | self => rfl
  | sub h hd ih =>
    subst ih
    rw [hleaf] at hd
    exact absurd hd List.not_mem_nil

namespace App

/-- The tool has the command, at one of its levels. -/
def Has (app : App) (c : Command) : Prop := ∃ top ∈ app.commands, top.Under c

/-- What all actions of the tool have in common. -/
def Acts (app : App) (P : Action → Prop) : Prop := ∀ c, app.Has c → ∀ a, c.action = some a → P a

variable {app : App}

theorem has_of_mem {c : Command} (h : c ∈ app.commands) : app.Has c := ⟨c, h, .self⟩

theorem Has.sub {c d : Command} (h : app.Has c) (hd : d ∈ c.subcommands) : app.Has d :=
  let ⟨top, htop, hc⟩ := h
  ⟨top, htop, hc.sub hd⟩

/-- A way down the commands of a tool leads to one of them. -/
theorem has_of_walks {w w' : Walked} {parts : List Part} (h : Walks w parts w')
    (hw : app.Has w.command) : app.Has w'.command := by
  induction h with
  | done => exact hw
  | option _ _ _ ih => exact ih hw
  | argument _ _ _ ih => exact ih hw
  | @subcommand w w' c name parts hn hg hc _ ih =>
    refine ih ?_
    have hcommand : (w.down c).command = c := by
      simp [Walked.command, Walked.down]
    rw [hcommand]
    exact hw.sub (List.mem_of_find?_eq_some hc)

/-- **A command line leads to no command but those of the tool.** -/
theorem has_of_read {argv : List String} {p q : Execution} {prepared : Prepared}
    (h : (CommandLine.read app argv).perform p = (.ok (some prepared), q)) :
    app.Has prepared.command := by
  obtain ⟨line, r, checked, t, hline, _, hverdict, _, hconnect⟩ := CommandLine.stages_of_read h
  obtain ⟨s, globals, w, _, hreads, rfl⟩ := CommandLine.reads_of_line? hline
  have hcommand : prepared.command = w.command := by
    rw [(CommandLine.prepared_of_connect hconnect).1, Descent.eq_of_verdict hverdict]
    rfl
  rw [hcommand]
  exact has_of_walks hreads.walked (has_of_mem (List.mem_of_find?_eq_some hreads.found))

end App

/-! ## 5. Nothing is written -/

/-- The files are as they were, and so is the store, if there was one. -/
structure Execution.Spares (p q : Execution) : Prop where
  files : q.files = p.files
  store : ∀ store, p.session.store = some store → q.session.store = some store

instance : IsPreorder Execution Execution.Spares where
  refl _ := ⟨rfl, fun _ h => h⟩
  trans _ _ _ h h' := ⟨h'.files.trans h.files, fun store hs => h'.store store (h.store store hs)⟩

theorem Execution.Quiet.spares {p q : Execution} (h : p.Quiet q) : p.Spares q :=
  ⟨h.files, fun _ hs => (congrArg Session.store h.session).trans hs⟩

section

variable {ε α : Type} {saves : Bool} {r : Run ε α}

/-- An action that ignores where the configuration is kept writes nothing; if it saves, then in a batch
    run. -/
theorem Run.Ignores.spares_of_batch (h : ∀ x : Exchange, x.factory = id → r.Ignores x saves) {p : Execution}
    (hb : saves = true → p.session.batch = true) : p.Spares (r.perform p).2 := by
  constructor
  · let x : Exchange := { files := fun _ => p.files }
    have hsame : r.perform (x.of p) = ((r.perform p).1, x.of (r.perform p).2) :=
      (h x rfl).perform_of hb
    exact congrArg (fun result => result.2.files) hsame
  · intro store hs
    let x : Exchange := { store := fun _ => some store }
    have hp : x.of p = p := by
      show { p with session := { p.session with store := some store } } = p
      rw [← hs]
    have hsame : r.perform (x.of p) = ((r.perform p).1, x.of (r.perform p).2) :=
      (h x rfl).perform_of hb
    rw [hp] at hsame
    exact congrArg (fun result => result.2.session.store) hsame

/-- One that does not even save never writes anything. -/
theorem Run.Ignores.spares (h : ∀ x : Exchange, x.factory = id → r.Ignores x false) :
    r.Respects Execution.Spares :=
  fun _ => spares_of_batch h fun hsaves => absurd hsaves Bool.false_ne_true

end

namespace Setup

open Execution

theorem spares_chooseStore (fs : FlagList) : (chooseStore fs).Respects Spares := by
  intro p
  rw [perform_chooseStore_of_place?]
  unfold place?
  cases hs : p.session.store with
  | some store => exact ⟨rfl, fun _ h => hs.symm.trans h⟩
  | none =>
    have hchosen (store : Option Store) :
        p.Spares { p with session := { p.session with store } } :=
      ⟨rfl, fun _ h => absurd (hs.symm.trans h) (Option.some_ne_none _).symm⟩
    cases p.environment.configurationPath (fs.textIfSet "config") (fs.textIfSet "configDir") with
    | ok path => exact hchosen _
    | error e => exact refl_of Spares p

theorem spares_loadConfiguration : loadConfiguration.Respects Spares := by
  have hload : Session.load.Respects Spares := by
    intro p
    unfold Session.load
    rw [Run.perform_bind, Run.perform_get]
    dsimp only
    cases p.session.store with
    | none => exact refl_of Spares p
    | some store =>
      dsimp only
      cases store.load p.files with
      | error e => exact refl_of Spares p
      | ok found =>
        have hremark := (Effect.quiet_remark found.2 p).spares
        exact ⟨hremark.files, hremark.store⟩
  refine .bind (.adapt hload) fun _ => .lift fun p => ?_
  rw [Effect.perform_modifySession]
  dsimp only
  split
  · exact ⟨rfl, fun _ h => h⟩
  · exact refl_of Spares p

/-- Setting up a session writes nothing. -/
theorem spares_run (version : String) (fs : FlagList) : (run version fs).Respects Spares := by
  have hsettle : (settle version fs).Respects Spares :=
    .bind (spares_chooseStore fs) fun _ => .bind spares_loadConfiguration fun _ =>
      Run.Ignores.spares fun _ _ => ignores_rest version fs
  intro p
  have hchoosing : p.Spares (choosing fs p) := by
    unfold choosing
    split
    · exact ⟨rfl, fun _ h => h⟩
    · exact refl_of Spares p
  rw [perform_run]
  split
  · exact hchoosing
  · exact trans_of Spares hchoosing (hsettle _)

end Setup

namespace CommandLine

/-- **Reading a command line writes nothing**, whatever comes of it. -/
theorem spares_read (app : App) (argv : List String) :
    (read app argv).Respects Execution.Spares := by
  cases ho : opening? app argv with
  | none =>
    rcases read_of_no_opening ho with ⟨e, hread⟩ | ⟨text, hread⟩
    · rw [hread]
      exact .throw e
    · rw [hread]
      exact .bind (.lift fun p => (Effect.quiet_print text p).spares) fun _ => .pure _
  | some o =>
    rw [read_of_opening? ho]
    exact .bind (.adapt (Setup.spares_run _ _)) fun _ =>
      Run.Ignores.spares fun _ hx => ignores_readBehindGlobals hx app o.program o.globals o.behind

end CommandLine

end BrokerCli
