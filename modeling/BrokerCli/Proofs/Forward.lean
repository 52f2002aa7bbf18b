import BrokerCli.Proofs.Provenance
import BrokerCli.Proofs.Stages

/-!
# Stages that succeed

What becomes of a run whose stages all succeed is one thing; what it takes for them to succeed is another:

* `Settings.Leveled` -- the levels of the log that are remembered can be read. That is so behind every run
  that is set up (`Setup.leveled_of_run`), and a run without options needs no more to be set up
  (`Setup.perform_run_of_open`);
* `CommandLine.read_of_stages` -- the stages of the reading, put together;
* `Connect.perform_run_of_host` -- a command is given its client when it can be made and works with the
  command; a client that was given does (`CommandLine.gate_of_read`);
* `App.at_dispatch_of_shows` -- a command that only shows something comes to what its action comes to, and
  leaves the settings saved.
-/

namespace BrokerCli

/-! ## 1. The levels of the log -/

/-- A level can be read: the one that is remembered, or else the default. -/
def LogLevel.Readable (remembered default : String) : Prop :=
  ∃ level, parse (if remembered.isEmpty then default else remembered) = .ok level

/-- The levels that are remembered can be read. -/
structure Settings.Leveled (s : Settings) : Prop where
  stderr : LogLevel.Readable s.stderr "err"
  syslog : LogLevel.Readable s.syslog "off"

/-- A text that names a level can be read again when it is remembered. -/
theorem LogLevel.readable_of_parse {text : String} {level : LogLevel} (h : parse text = .ok level)
    (default : String) : Readable text default := by
  unfold Readable
  split
  · rename_i hempty
    rw [String.isEmpty_iff.1 hempty] at h
    cases h
  · exact ⟨level, h⟩

namespace Setup

variable {version : String} {fs : FlagList} {p r : Execution}

/-- Without an option it is what is remembered that counts. -/
theorem levelText_of_open {name : String} (h : fs.isSet name = false) (remembered default : String) :
    levelText fs name remembered default = if remembered.isEmpty then default else remembered := by
  simp [levelText, FlagList.textIfSet, h]

/-- A level of the error stream that can be read is set, and remembered if an option names it. -/
theorem settings_setStderrLevel (fs : FlagList) (p : Execution) {level : LogLevel}
    (h : LogLevel.parse (levelText fs "stderr" p.session.settings.stderr "err") = .ok level) :
    ((setStderrLevel fs).perform p).1 = .ok () ∧
      ((setStderrLevel fs).perform p).2.session.settings = if fs.isSet "stderr" then
        { p.session.settings with stderr := levelText fs "stderr" p.session.settings.stderr "err" }
        else p.session.settings := by
  unfold setStderrLevel
  rw [Run.perform_bind, Run.perform_lift, Effect.perform_session]
  dsimp only
  rw [h]
  cases fs.isSet "stderr" <;> exact ⟨rfl, rfl⟩

theorem parse_of_setStderrLevel (h : (setStderrLevel fs).perform p = (.ok (), r)) :
    ∃ level, LogLevel.parse (levelText fs "stderr" p.session.settings.stderr "err") = .ok level := by
  cases hlevel : LogLevel.parse (levelText fs "stderr" p.session.settings.stderr "err") with
  | ok level => exact ⟨level, rfl⟩
  | error e =>
    unfold setStderrLevel at h
    rw [Run.perform_bind, Run.perform_lift, Effect.perform_session] at h
    dsimp only at h
    rw [hlevel] at h
    cases hset : fs.isSet "stderr" <;> rw [hset] at h <;> cases h

/-- A level of the system log that can be read is set, and remembered if an option names it. -/
theorem settings_setSyslogLevel (fs : FlagList) (p : Execution) {level : LogLevel}
    (h : LogLevel.parse (levelText fs "syslog" p.session.settings.syslog "off") = .ok level) :
    ((setSyslogLevel fs).perform p).1 = .ok () ∧
      ((setSyslogLevel fs).perform p).2.session.settings = if fs.isSet "syslog" then
        { p.session.settings with syslog := levelText fs "syslog" p.session.settings.syslog "off" }
        else p.session.settings := by
  have hnote (q : Execution) (text : String) : (q.note .debug text).session.settings =
      q.session.settings := by rw [Execution.session_note]
  unfold setSyslogLevel
  rw [Run.perform_bind, Run.perform_lift, Effect.perform_session]
  dsimp only
  rw [h]
  cases fs.isSet "syslog" <;> cases level with
  | off => exact ⟨rfl, rfl⟩
  | _ => exact ⟨rfl, hnote _ _⟩

theorem parse_of_setSyslogLevel (h : (setSyslogLevel fs).perform p = (.ok (), r)) :
    ∃ level, LogLevel.parse (levelText fs "syslog" p.session.settings.syslog "off") = .ok level := by
  cases hlevel : LogLevel.parse (levelText fs "syslog" p.session.settings.syslog "off") with
  | ok level => exact ⟨level, rfl⟩
  | error e =>
    unfold setSyslogLevel at h
    rw [Run.perform_bind, Run.perform_lift, Effect.perform_session] at h
    dsimp only at h
    rw [hlevel] at h
    cases hset : fs.isSet "syslog" <;> rw [hset] at h <;> cases h

/-- The level of the error stream that is remembered behind its setting can be read. -/
theorem readable_of_setStderrLevel (h : (setStderrLevel fs).perform p = (.ok (), r)) :
    LogLevel.Readable r.session.settings.stderr "err" := by
  obtain ⟨level, hlevel⟩ := parse_of_setStderrLevel h
  obtain ⟨_, hsettings⟩ := settings_setStderrLevel fs p hlevel
  rw [h] at hsettings
  cases hset : fs.isSet "stderr" with
  | true =>
    rw [hset, if_pos rfl] at hsettings
    rw [hsettings]
    exact LogLevel.readable_of_parse hlevel _
  | false =>
    rw [hset, if_neg Bool.false_ne_true] at hsettings
    rw [levelText_of_open hset] at hlevel
    rw [hsettings]
    exact ⟨level, hlevel⟩

/-- So can that of the system log; and the other one stays as it was. -/
theorem readable_of_setSyslogLevel (h : (setSyslogLevel fs).perform p = (.ok (), r)) :
    LogLevel.Readable r.session.settings.syslog "off" ∧
      r.session.settings.stderr = p.session.settings.stderr := by
  obtain ⟨level, hlevel⟩ := parse_of_setSyslogLevel h
  obtain ⟨_, hsettings⟩ := settings_setSyslogLevel fs p hlevel
  rw [h] at hsettings
  cases hset : fs.isSet "syslog" with
  | true =>
    rw [hset, if_pos rfl] at hsettings
    rw [hsettings]
    exact ⟨LogLevel.readable_of_parse hlevel _, rfl⟩
  | false =>
    rw [hset, if_neg Bool.false_ne_true] at hsettings
    rw [levelText_of_open hset] at hlevel
    rw [hsettings]
    exact ⟨⟨level, hlevel⟩, rfl⟩

/-- **The levels that are remembered can be read once a session is set up.** -/
theorem leveled_of_run (h : (run version fs).perform p = (.ok (), r)) :
    r.session.settings.Leveled := by
  rw [perform_run] at h
  split at h
  · cases h
  unfold settle at h
  obtain ⟨_, _, _, h⟩ := Run.ok_of_bind h
  obtain ⟨_, _, _, h⟩ := Run.ok_of_bind h
  obtain ⟨_, _, hstderr, h⟩ := Run.ok_of_bind h
  obtain ⟨_, q, hsyslog, h⟩ := Run.ok_of_bind h
  obtain ⟨hsyslog, hkept⟩ := readable_of_setSyslogLevel hsyslog
  have hstderr := readable_of_setStderrLevel hstderr
  rw [← hkept] at hstderr
  -- what is left is limits and cache, and a note in between
  have hr : r.session = withCache fs (withLimits fs q.session) := by
    cases h
    exact congrArg (withCache fs) (Execution.session_note _ _ _)
  rw [hr]
  unfold withCache
  cases fs.textIfSet "cache" <;> exact ⟨hstderr, hsyslog⟩

/-- Without options for the levels the rest of the setting up succeeds if the levels that are remembered
    can be read; and without one for the cache it leaves the settings as they are. -/
theorem settings_of_rest (version : String) (hopen : fs.isSet "stderr" = false)
    (hopen' : fs.isSet "syslog" = false) (hl : p.session.settings.Leveled) : ∃ r, Run.perform (do
      setStderrLevel fs
      setSyslogLevel fs
      Effect.modifySession (withLimits fs)
      Effect.log .info version
      Effect.modifySession (withCache fs) : Run SetupError Unit) p = (.ok (), r) ∧
        (fs.isSet "cache" = false → r.session.settings = p.session.settings) := by
  obtain ⟨⟨stderrLevel, hstderr⟩, ⟨syslogLevel, hsyslog⟩⟩ := hl
  rw [← levelText_of_open hopen] at hstderr
  rw [← levelText_of_open hopen'] at hsyslog
  obtain ⟨hfirst, hkept⟩ := settings_setStderrLevel fs p hstderr
  rcases hm : (setStderrLevel fs).perform p with ⟨outcome, m⟩
  rw [hm] at hfirst hkept
  dsimp only at hfirst hkept
  rw [hopen, if_neg Bool.false_ne_true] at hkept
  rw [← hkept] at hsyslog
  obtain ⟨hsecond, hkept'⟩ := settings_setSyslogLevel fs m hsyslog
  rcases hq : (setSyslogLevel fs).perform m with ⟨outcome', q⟩
  rw [hq] at hsecond hkept'
  dsimp only at hsecond hkept'
  rw [hopen', if_neg Bool.false_ne_true] at hkept'
  subst hfirst hsecond
  rw [Run.perform_bind, hm]
  dsimp only
  rw [Run.perform_bind, hq]
  dsimp only
  refine ⟨_, rfl, fun hcache => ?_⟩
  have hkeeps (s : Session) : (withCache fs s).settings = s.settings := by
    simp [withCache, FlagList.textIfSet, hcache]
  refine (hkeeps _).trans ?_
  rw [Execution.session_note]
  exact hkept'.trans hkept

/-- **A session is set up without any option** if the levels that are found can be read; it then has the
    settings that are found. -/
theorem perform_run_of_open {b : Place} {c : Configuration} (version : String)
    (h : ∀ name, fs.isSet name = false) (hb : p.At b) (hc : b.held? = some c)
    (hbatch : p.session.batch = false) (hl : c.settings.Leveled) :
    ∃ r, (run version fs).perform p = (.ok (), r) ∧ r.session.settings = c.settings ∧
      r.session.batch = false := by
  obtain ⟨remark, hload⟩ := Place.held?_eq_some_iff.1 hc
  have hconflict : placesConflict fs = false := by
    rw [placesConflict, h]
    rfl
  rw [perform_run, hconflict, choosing, h, settle, Run.perform_bind]
  simp only [Bool.false_eq_true, if_false, perform_chooseStore hb]
  rw [Run.perform_bind, perform_loadConfiguration hb hload, settingsIn, hbatch]
  dsimp only
  have hremark := (Effect.quiet_remark remark p).session
  generalize ((Effect.remark remark).perform p).2 = q at hremark
  obtain ⟨r, hr, hsettings⟩ := settings_of_rest (p := { q with session := { q.session with
    settings := c.settings, servers := c.servers, extra := c.extra } }) version (h _) (h _) hl
  have hmode := (congrArg Prod.snd hr ▸ tunes_rest version fs _).batch
  refine ⟨r, hr, hsettings (h _), hmode.trans ?_⟩
  exact (congrArg Session.batch hremark).trans hbatch

end Setup

/-! ## 2. The clients of a command -/

namespace Connect

variable {i j : Invocation} {p q : Execution} {c : Client} {serverList : Option (List String)}
  {request : ClientRequest}

/-- A client that is handed over works with the command. -/
theorem gate_of_client (h : (client serverList request).perform p = (.ok c, q)) :
    gate serverList c = none := by
  obtain ⟨s, _, _, h⟩ := Run.ok_of_bind h
  split at h
  · cases h
  obtain ⟨_, _, _, h⟩ := Run.ok_of_bind h
  split at h
  · cases h
  · rename_i hgate
    cases h
    exact hgate

/-- A client that is made and works with the command is handed over. -/
theorem client_of_make
    (h : p.session.factory.make p.session.servers p.session.clientOptions request = .ok c)
    (hgate : gate serverList c = none) : ((client serverList request).perform p).1 = .ok c := by
  unfold client
  rw [Run.perform_bind, Run.perform_lift, Effect.perform_session]
  simp only [h, Run.perform_bind, Run.perform_lift, hgate]
  rfl

/-- The client that a command is given works with it. -/
theorem gate_of_run (h : (run i).perform p = (.ok j, q)) (hi : i.client = none)
    (hj : j.client = some c) : gate i.serverList c = none := by
  obtain ⟨k, _, hsource, hdestination⟩ := Run.ok_of_bind h
  have hk : k.client = j.client := by
    unfold destination at hdestination
    split at hdestination
    · cases hdestination
      rfl
    · obtain ⟨_, _, _, hdestination⟩ := Run.ok_of_bind hdestination
      obtain ⟨_, _, _, hdestination⟩ := Run.ok_of_bind hdestination
      cases hdestination
      rfl
  unfold source at hsource
  split at hsource
  · cases hsource
    rw [hi, hj] at hk
    cases hk
  · obtain ⟨_, _, _, hsource⟩ := Run.ok_of_bind hsource
    split at hsource
    · obtain ⟨_, _, _, hsource⟩ := Run.ok_of_bind hsource
      obtain ⟨c', q', hc', hsource⟩ := Run.ok_of_bind hsource
      cases hsource
      cases hk.trans hj
      exact gate_of_client (Run.ok_of_adapt hc')
    · cases hsource
      rw [hi, hj] at hk
      cases hk

/-- **A command is given its client** when it can be made and works with the command, and there is no
    second host. -/
theorem perform_run_of_host {f : Flag} {value : String} {features : TextFeatures}
    (hh : i.flags.textFlag? "host" = some (f, value, features)) (hf : features.initClient = true)
    (htwo : i.flags.textIfSet "host2" = none)
    (hmake : let s := p.session.taking value
      s.factory.make s.servers s.clientOptions
        (Connect.request i.flags s.host features.skipGetToken false) = .ok c)
    (hgate : gate i.serverList c = none) :
    ∃ q, (run i).perform p = (.ok { i with client := some c }, q) ∧
      q.session = p.session.taking value := by
  have htaken := session_takeHost value p
  generalize ht : ((takeHost value).perform p).2 = t at htaken
  dsimp only at hmake
  rw [← htaken] at hmake
  have hclient := client_of_make hmake hgate
  have hquiet := (quiet_client i.serverList
    (Connect.request i.flags t.session.host features.skipGetToken false) t).session
  rcases hc : (client i.serverList
    (Connect.request i.flags t.session.host features.skipGetToken false)).perform t with ⟨outcome, q⟩
  rw [hc] at hclient hquiet
  dsimp only at hclient hquiet
  subst hclient
  have hsource : (source i).perform p = (.ok { i with client := some c }, q) := by
    unfold source
    rw [hh]
    dsimp only
    rw [Run.perform_bind, Run.perform_lift, ht]
    dsimp only
    rw [hf, if_pos rfl, Run.perform_bind, Run.perform_lift, Effect.perform_session]
    dsimp only
    rw [Run.perform_bind, Run.perform_adapt, hc]
    rfl
  refine ⟨q, ?_, hquiet.trans htaken⟩
  unfold run
  rw [Run.perform_bind, hsource]
  dsimp only
  rw [destination, htwo]
  rfl

end Connect

/-- A command whose clients are there is ready. -/
theorem CommandLine.connect_of_run {program : String} {globals : FlagList} {d : Descent}
    {p q : Execution} {i : Invocation} (h : (Connect.run { invocation program globals d with
      serverList := d.command.serverList }).perform p = (.ok i, q)) :
    (connect program globals d).perform p = (.ok ⟨d.command, d.category, i⟩, q) := by
  unfold connect
  rw [Run.perform_bind, h]
  rfl

/-- **A command line comes to a command** when it is read to its end, the session is set up, the verdict
    accepts it, and the clients are there. -/
theorem CommandLine.read_of_stages {app : App} {argv : List String} {line : Line} {p r : Execution}
    {checked : Descent} (hline : line? app argv = some line)
    (hsetup : (Setup.run app.version line.globals).perform p = (.ok (), r))
    (hverdict : line.descent.verdict r.session.settings r.session.servers = .ok checked) :
    ∃ t, t.session = remembering line.descent r.session ∧ ∀ prepared q,
      (connect line.program (belowTool line.globals) checked).perform t = (.ok prepared, q) →
        (read app argv).perform p = (.ok (some prepared), q) := by
  obtain ⟨t, ht, hfinish⟩ := perform_finish line r
  refine ⟨t, ht, fun prepared q hconnect => ?_⟩
  rw [hverdict] at hfinish
  simp only [hconnect] at hfinish
  have hsettled : (settle app line).perform p = (.ok prepared, q) := by
    unfold settle
    rw [Run.perform_bind, Run.perform_adapt, hsetup]
    exact hfinish
  rw [perform_read_of_line? hline, hsettled]
  rfl

/-- A command that is ready works with its client. -/
theorem CommandLine.gate_of_read {app : App} {argv : List String} {p q : Execution}
    {prepared : Prepared} {c : Client}
    (h : (read app argv).perform p = (.ok (some prepared), q))
    (hc : prepared.invocation.client = some c) :
    Connect.gate prepared.command.serverList c = none := by
  obtain ⟨line, _, checked, _, _, _, _, _, hconnect⟩ := stages_of_read h
  rw [(prepared_of_connect hconnect).1]
  exact Connect.gate_of_run (run_of_connect hconnect) rfl hc

/-- Its chain is what was walked through. -/
theorem CommandLine.chain_of_read {app : App} {argv : List String} {p q : Execution}
    {prepared : Prepared} {line : Line} (h : (read app argv).perform p = (.ok (some prepared), q))
    (hline : line? app argv = some line) : prepared.invocation.chain = line.descent.chain := by
  obtain ⟨line', _, checked, _, hline', _, hverdict, _, hconnect⟩ := stages_of_read h
  cases hline.symm.trans hline'
  obtain ⟨_, _, _, hchain, _⟩ := prepared_of_connect hconnect
  rw [hchain, Descent.eq_of_verdict hverdict]

/-- A host that is taken leaves the choice of batch runs alone. -/
theorem Session.batch_taking (s : Session) (value : String) : (s.taking value).batch = s.batch := by
  unfold taking
  dsimp only
  generalize (if value.isEmpty then s.settings.host else value) = host
  split <;> rfl

namespace Client

variable {servers : ServerTable} {options : ClientOptions} {r : ClientRequest} {c : Client}

/-- The factory that resolves requests makes the client of an endpoint. -/
theorem make_of_endpoint {url : String} {s : Server}
    (h : endpoint servers r.host = .ok (url, s)) :
    ClientFactory.registry.make servers options r = .ok (ofServer options r url s) := by
  show (resolve servers options r).mapError ClientError.fault = _
  rw [resolve, h]
  rfl

/-- Such a client is determined by its endpoint. -/
theorem eq_of_make (h : ClientFactory.registry.make servers options r = .ok c) :
    endpoint servers r.host = .ok (c.url, c.server) ∧ c = ofServer options r c.url c.server := by
  have h := resolve_of_make h
  unfold resolve at h
  split at h
  · rename_i url s hendpoint
    cases h
    exact ⟨hendpoint, rfl⟩
  · cases h

end Client

/-! ## 3. What is saved at the end -/

/-- A save that is no batch run's saves the configuration of the session, whatever comes of it. -/
theorem Session.at_save {p : Execution} {b : Place} (hb : p.At b) (hbatch : p.session.batch = false) :
    (save.perform p).2.At (b.save p.session.configuration) := by
  rw [perform_save hb hbatch]
  cases (b.store.save b.files p.session.configuration).outcome with
  | error e => exact p.at_storing b
  | ok remark => exact (Effect.quiet_remark remark).stays _ _ (p.at_storing b)

namespace App

variable {p : Execution} {b : Place}

/-- Settings that have changed and are remembered are written back. -/
theorem at_flush (hb : p.At b) (hbatch : p.session.batch = false)
    (hupdated : p.session.updated = true) (hon : p.session.settings.usePrevious = true) :
    (flush.perform p).2.At (b.save p.session.configuration) := by
  have hsaved : (Session.saveUpdated.perform p).2.At (b.save p.session.configuration) := by
    have hsave := Session.at_save hb hbatch
    unfold Session.saveUpdated
    rw [Run.perform_bind, Run.perform_lift, Effect.perform_session]
    simp only [hupdated, hon, Bool.and_self, if_true]
    rw [Run.perform_bind]
    rcases hs : Session.save.perform p with ⟨_ | _, q⟩ <;> rw [hs] at hsave
    · exact hsave
    · exact ⟨hsave.store, hsave.files⟩
  unfold flush
  rw [Effect.perform_bind, Run.perform_run]
  rcases hs : Session.saveUpdated.perform p with ⟨_ | _, q⟩ <;> rw [hs] at hsaved
  · exact (Effect.quiet_complain _).stays _ _ ((Effect.quiet_log _ _).stays _ _ hsaved)
  · exact hsaved

/-- **A command that only shows something comes to what its action comes to**, and leaves the settings
    of the session saved, if these have changed and are remembered. -/
theorem at_dispatch_of_shows {prepared : Prepared} {a : Action}
    (hg : prepared.command.isGroup = false) (ha : prepared.command.action = some a) (hs : a.Shows)
    (hb : p.At b) (hbatch : p.session.batch = false) (hupdated : p.session.updated = true)
    (hon : p.session.settings.usePrevious = true) :
    ((dispatch prepared).perform p).1 = ((a prepared.invocation).perform p).1.mapError .action ∧
      ((dispatch prepared).perform p).2.At (b.save p.session.configuration) := by
  have hact := perform_act ha p
  have hquiet := hs prepared.invocation p
  refine ⟨?_, ?_⟩
  · rw [result_dispatch hg, hact]
  · rw [session_dispatch hg, hact]
    dsimp only
    rw [← hquiet.session] at hbatch hupdated hon ⊢
    exact at_flush (hquiet.settles.stays b hb) hbatch hupdated hon

end App

end BrokerCli
