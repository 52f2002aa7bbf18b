import Mathlib.Order.Defs.Unbundled
import BrokerCli.App
import BrokerCli.Proofs.Sources
import BrokerCli.Proofs.Verdict

/-!
# What a run leaves alone

A run has its configuration at a PLACE: in a store, with the files in which it may lie. Only saving
changes anything there, and reading a command line saves nothing:

* `Run.Respects` -- an action moves an execution along a relation, whether it fails or not. What is put
  together of such actions does so, too;
* `Execution.Quiet`, `Settles`, `Stays` -- three such relations, each with less that is as it was:
  session and files; the servers and the place, and what is not forgotten; only the place. What is set
  up when the configuration is read (`Tunes`) is less than what is settled;
* `Setup.Tuning`, `CommandLine.Reading` -- properties of actions that all steps have by which a session is
  tuned, or a command is read, and that stay with what is put together of them. The stages themselves are
  walked through once, here (`Setup.Tuning.rest`, `CommandLine.Reading.readBehindGlobals`,
  `Connect.respects_run_of`); elsewhere only the steps are looked at;
* `Setup.loaded_of_run` -- how a session is set up from what is found at the place;
* `CommandLine.stays_read` -- reading a command line leaves the place alone, whatever comes of it: a
  help page, hints, a failure, or a command.
-/

namespace BrokerCli

/-! ## 1. Places -/

/-- Where a configuration is kept: a store, and the files in which it may lie. -/
structure Place where
  store : Store
  files : FileSystem

namespace Place

/-- What is kept there, if it can be read. -/
def held? (b : Place) : Option Configuration := (b.store.load b.files).toOption.map Prod.fst

theorem held?_eq_some_iff {b : Place} {c : Configuration} :
    b.held? = some c ↔ ∃ remark, b.store.load b.files = .ok (c, remark) := by
  unfold held?
  cases b.store.load b.files with
  | error e => simp [Except.toOption]
  | ok found =>
    obtain ⟨c', remark⟩ := found
    simp [Except.toOption]

/-- The place after a configuration was saved there, or was not. -/
def save (b : Place) (c : Configuration) : Place :=
  let saved := b.store.save b.files c
  ⟨saved.store, saved.files⟩

/-- Whether a configuration can be saved there. -/
def takes (b : Place) (c : Configuration) : Bool := (b.store.save b.files c).outcome.toBool

end Place

namespace Execution

/-- The run has its configuration at a place. -/
structure At (p : Execution) (b : Place) : Prop where
  store : p.session.store = some b.store
  files : p.files = b.files

/-- The place is as it was. -/
def Stays (p q : Execution) : Prop := ∀ b, p.At b → q.At b

/-- Session and files are as they were. -/
structure Quiet (p q : Execution) : Prop where
  session : q.session = p.session
  files : q.files = p.files

/-- The place is as it was, and so are the servers; of the memory some may be forgotten. -/
structure Settles (p q : Execution) : Prop where
  stays : p.Stays q
  servers : q.session.servers = p.session.servers
  extra : q.session.extra = p.session.extra
  factory : q.session.factory = p.session.factory
  host : q.session.host = p.session.host
  forgets : p.session.settings.Forgets q.session.settings

/-- Nothing is another but how much is logged, the limits, and the file of the cache. -/
structure Tunes (p q : Execution) : Prop where
  files : q.files = p.files
  complaints : q.complaints = p.complaints
  store : q.session.store = p.session.store
  servers : q.session.servers = p.session.servers
  extra : q.session.extra = p.session.extra
  factory : q.session.factory = p.session.factory
  host : q.session.host = p.session.host
  batch : q.session.batch = p.session.batch
  settings : ∃ stderr syslog cacheFile,
    q.session.settings = { p.session.settings with stderr, syslog, cacheFile }

instance : IsPreorder Execution Stays where
  refl _ _ h := h
  trans _ _ _ h h' b hb := h' b (h b hb)

instance : IsPreorder Execution Quiet where
  refl _ := ⟨rfl, rfl⟩
  trans _ _ _ h h' := ⟨h'.session.trans h.session, h'.files.trans h.files⟩

instance : IsPreorder Execution Settles where
  refl _ := ⟨refl_of Stays _, rfl, rfl, rfl, rfl, .refl _⟩
  trans _ _ _ h h' := ⟨trans_of Stays h.stays h'.stays, h'.servers.trans h.servers,
    h'.extra.trans h.extra, h'.factory.trans h.factory, h'.host.trans h.host,
    h.forgets.trans h'.forgets⟩

instance : IsPreorder Execution Tunes where
  refl _ := ⟨rfl, rfl, rfl, rfl, rfl, rfl, rfl, rfl, _, _, _, rfl⟩
  trans _ _ _ h h' := by
    obtain ⟨_, _, _, hs⟩ := h.settings
    obtain ⟨_, _, _, hs'⟩ := h'.settings
    exact ⟨h'.files.trans h.files, h'.complaints.trans h.complaints, h'.store.trans h.store,
      h'.servers.trans h.servers, h'.extra.trans h.extra, h'.factory.trans h.factory,
      h'.host.trans h.host, h'.batch.trans h.batch, _, _, _, by rw [hs', hs]⟩

theorem Tunes.settles {p q : Execution} (h : p.Tunes q) : p.Settles q := by
  obtain ⟨_, _, _, hs⟩ := h.settings
  refine ⟨fun b hb => ⟨h.store.trans hb.store, h.files.trans hb.files⟩, h.servers, h.extra, h.factory,
    h.host, ?_⟩
  rw [hs]
  exact Settings.forgets_of_eq rfl rfl rfl rfl

theorem Quiet.settles {p q : Execution} (h : p.Quiet q) : p.Settles q := by
  obtain ⟨hs, hf⟩ := h
  refine ⟨fun b hb => ⟨hs ▸ hb.store, hf ▸ hb.files⟩, ?_, ?_, ?_, ?_, ?_⟩
  all_goals rw [hs]
  exact .refl _

end Execution

/-! ## 2. Actions along a relation -/

variable {R : Execution → Execution → Prop} {ε ε' α β : Type}

/-- An action that moves an execution along a relation. -/
def Effect.Respects (R : Execution → Execution → Prop) (x : Effect α) : Prop :=
  ∀ p, R p (x.perform p).2

/-- An action that moves an execution along a relation, also when it fails. -/
def Run.Respects (R : Execution → Execution → Prop) (x : Run ε α) : Prop :=
  ∀ p, R p (x.perform p).2

namespace Effect.Respects

theorem settles {x : Effect α} (hx : x.Respects Execution.Quiet) : x.Respects Execution.Settles :=
  fun p => (hx p).settles

theorem stays {x : Effect α} (hx : x.Respects Execution.Quiet) : x.Respects Execution.Stays :=
  fun p => (hx p).settles.stays

variable [IsPreorder Execution R]

theorem pure (a : α) : Effect.Respects R (Pure.pure a) := fun p => refl_of R p

theorem bind {x : Effect α} {f : α → Effect β} (hx : x.Respects R) (hf : ∀ a, (f a).Respects R) :
    (x >>= f).Respects R := fun p => trans_of R (hx p) (hf _ _)

theorem session : Effect.session.Respects R := fun p => refl_of R p

end Effect.Respects

namespace Run.Respects

theorem stays {x : Run ε α} (hx : x.Respects Execution.Quiet) : x.Respects Execution.Stays :=
  fun p => (hx p).settles.stays

theorem lift {x : Effect α} (hx : x.Respects R) : (liftM x : Run ε α).Respects R := hx

theorem adapt {f : ε → ε'} {x : Run ε α} (hx : x.Respects R) :
    Run.Respects R (ExceptT.adapt f x : Run ε' α) := hx

variable [IsPreorder Execution R]

theorem pure (a : α) : Run.Respects R (Pure.pure a : Run ε α) := fun p => refl_of R p

theorem throw (e : ε) : Run.Respects R (MonadExcept.throw e : Run ε α) := fun p => refl_of R p

theorem bind {x : Run ε α} {f : α → Run ε β} (hx : x.Respects R) (hf : ∀ a, (f a).Respects R) :
    (x >>= f).Respects R := by
  intro p
  have h := hx p
  rw [perform_bind]
  rcases hq : x.perform p with ⟨_ | a, q⟩
  · rw [hq] at h
    exact h
  · rw [hq] at h
    exact trans_of R h (hf a q)

end Run.Respects

namespace Run

/-- What succeeds in two steps succeeds in each of them. -/
theorem ok_of_bind {x : Run ε α} {f : α → Run ε β} {p r : Execution} {b : β}
    (h : (x >>= f).perform p = (.ok b, r)) :
    ∃ a q, x.perform p = (.ok a, q) ∧ (f a).perform q = (.ok b, r) := by
  rw [perform_bind] at h
  split at h
  · exact ⟨_, _, ‹_›, h⟩
  · cases h

/-- A success seen from further out is one. -/
theorem ok_of_adapt {f : ε → ε'} {x : Run ε α} {p q : Execution} {a : α}
    (h : Run.perform (ExceptT.adapt f x) p = (.ok a, q)) : x.perform p = (.ok a, q) := by
  rw [perform_adapt] at h
  rcases hx : x.perform p with ⟨_ | _, _⟩ <;> rw [hx] at h <;> cases h
  rfl

end Run

/-! ## 3. What is shown -/

namespace Effect

open Execution

theorem quiet_print (text : String) : (print text).Respects Quiet :=
  fun _ => ⟨rfl, rfl⟩

theorem quiet_complain (text : String) : (complain text).Respects Quiet :=
  fun _ => ⟨rfl, rfl⟩

theorem quiet_log (severity : Severity) (message : String) :
    (log severity message).Respects Quiet :=
  fun p => ⟨p.session_note severity message, p.files_note severity message⟩

theorem quiet_remark (text : Option String) : (remark text).Respects Quiet := by
  cases text with
  | none => exact .pure ()
  | some text => exact quiet_log .debug text

end Effect

/-- A change of the session that leaves all of it alone but settings and limits. -/
theorem Effect.settles_modifySession {f : Session → Session}
    (h : ∀ s, (f s).store = s.store ∧ (f s).servers = s.servers ∧ (f s).extra = s.extra ∧
      (f s).factory = s.factory ∧ (f s).host = s.host ∧ s.settings.Forgets (f s).settings) :
    (modifySession f).Respects Execution.Settles := by
  intro p
  obtain ⟨hstore, hservers, hextra, hfactory, hhost, hforgets⟩ := h p.session
  exact ⟨fun b hb => ⟨hstore.trans hb.store, hb.files⟩, hservers, hextra, hfactory, hhost, hforgets⟩

theorem Effect.tunes_log (severity : Severity) (message : String) :
    (log severity message).Respects Execution.Tunes := by
  intro p
  rw [perform_log]
  have hsession := p.session_note severity message
  refine ⟨p.files_note _ _, p.complaints_note _ _, ?_, ?_, ?_, ?_, ?_, ?_,
    p.session.settings.stderr, p.session.settings.syslog, p.session.settings.cacheFile, ?_⟩
  all_goals rw [hsession]

namespace Setup

open Execution

/-- A property that all steps have by which a session is tuned when its configuration is read, and that stays
    with what is put together of them. -/
structure Tuning (P : Run SetupError Unit → Prop) : Prop where
  pure : P (Pure.pure ())
  throw (e : SetupError) : P (MonadExcept.throw e)
  andThen {r r' : Run SetupError Unit} (h : P r) (h' : P r') : P (r >>= fun _ => r')
  /-- Of the session only the levels are looked at that are remembered. -/
  look {f : Session → Run SetupError Unit}
    (hf : ∀ s t : Session, s.settings.stderr = t.settings.stderr →
      s.settings.syslog = t.settings.syslog → f s = f t)
    (h : ∀ s, P (f s)) : P (liftM Effect.session >>= f)
  log (severity : Severity) (message : String) : P (liftM (Effect.log severity message))
  stderr (text : String) : P (liftM (Effect.modifySession fun s =>
    { s with settings := { s.settings with stderr := text }, updated := true }))
  syslog (text : String) : P (liftM (Effect.modifySession fun s =>
    { s with settings := { s.settings with syslog := text }, updated := true }))
  stderrLevel (level : LogLevel) : P (modify fun p =>
    { p with session := { p.session with stderrLevel := level }, threshold := level })
  syslogLevel (level : LogLevel) : P (liftM (Effect.modifySession fun s =>
    { s with syslogLevel := level }))
  limits (fs : FlagList) : P (liftM (Effect.modifySession (withLimits fs)))
  cache (fs : FlagList) : P (liftM (Effect.modifySession (withCache fs)))

namespace Tuning

variable {P : Run SetupError Unit → Prop}

theorem setStderrLevel (h : Tuning P) (fs : FlagList) : P (Setup.setStderrLevel fs) := by
  unfold Setup.setStderrLevel
  refine h.look (fun s t hstderr _ => by rw [hstderr]) fun s => ?_
  dsimp only
  generalize levelText fs "stderr" s.settings.stderr "err" = text
  cases LogLevel.parse text with
  | error e =>
    split
    · exact h.andThen (h.stderr text) (h.throw _)
    · exact h.throw _
  | ok level =>
    split
    · exact h.andThen (h.stderr text) (h.stderrLevel level)
    · exact h.stderrLevel level

theorem setSyslogLevel (h : Tuning P) (fs : FlagList) : P (Setup.setSyslogLevel fs) := by
  have hset (level : LogLevel) : P (do
      Effect.modifySession fun s => { s with syslogLevel := level }
      if level ≠ .off then
        Effect.log .debug ("syslog level " ++ level.name ++ " requested, no syslog sink attached")) := by
    refine h.andThen (h.syslogLevel level) ?_
    split
    · exact h.log _ _
    · exact h.pure
  unfold Setup.setSyslogLevel
  refine h.look (fun s t _ hsyslog => by rw [hsyslog]) fun s => ?_
  dsimp only
  generalize levelText fs "syslog" s.settings.syslog "off" = text
  cases LogLevel.parse text with
  | error e =>
    split
    · exact h.andThen (h.syslog text) (h.throw _)
    · exact h.throw _
  | ok level =>
    split
    · exact h.andThen (h.syslog text) (hset level)
    · exact hset level

/-- **What is left to do when the configuration is read is tuning.** -/
theorem rest (h : Tuning P) (version : String) (fs : FlagList) : P (do
    Setup.setStderrLevel fs
    Setup.setSyslogLevel fs
    Effect.modifySession (withLimits fs)
    Effect.log .info version
    Effect.modifySession (withCache fs)) :=
  h.andThen (h.setStderrLevel fs) (h.andThen (h.setSyslogLevel fs)
    (h.andThen (h.limits fs) (h.andThen (h.log _ _) (h.cache fs))))

/-- Tuning moves along a relation if the steps do that change something. -/
theorem along [IsPreorder Execution R]
    (hlog : ∀ severity message, (Effect.log severity message).Respects R)
    (hstderr : ∀ text, (Effect.modifySession fun s =>
      { s with settings := { s.settings with stderr := text }, updated := true }).Respects R)
    (hsyslog : ∀ text, (Effect.modifySession fun s =>
      { s with settings := { s.settings with syslog := text }, updated := true }).Respects R)
    (hstderrLevel : ∀ (p : Execution) (level : LogLevel),
      R p { p with session := { p.session with stderrLevel := level }, threshold := level })
    (hsyslogLevel : ∀ level, (Effect.modifySession fun s => { s with syslogLevel := level }).Respects R)
    (hlimits : ∀ fs, (Effect.modifySession (withLimits fs)).Respects R)
    (hcache : ∀ fs, (Effect.modifySession (withCache fs)).Respects R) :
    Tuning (Run.Respects R) where
  pure := .pure ()
  throw e := .throw e
  andThen h h' := .bind h fun _ => h'
  look _ h := .bind (.lift .session) h
  log severity message := .lift (hlog severity message)
  stderr text := .lift (hstderr text)
  syslog text := .lift (hsyslog text)
  stderrLevel level p := hstderrLevel p level
  syslogLevel level := .lift (hsyslogLevel level)
  limits fs := .lift (hlimits fs)
  cache fs := .lift (hcache fs)

end Tuning

theorem tunes_withCache (fs : FlagList) : (Effect.modifySession (withCache fs)).Respects Tunes := by
  intro p
  rw [Effect.perform_modifySession]
  unfold withCache
  cases fs.textIfSet "cache" <;>
    exact ⟨rfl, rfl, rfl, rfl, rfl, rfl, rfl, rfl, _, _, _, rfl⟩

/-- What is left to do when the configuration is read. -/
theorem tunes_rest (version : String) (fs : FlagList) : Run.Respects Tunes (do
    setStderrLevel fs
    setSyslogLevel fs
    Effect.modifySession (withLimits fs)
    Effect.log .info version
    Effect.modifySession (withCache fs) : Run SetupError Unit) := by
  refine (Tuning.along Effect.tunes_log ?_ ?_ ?_ ?_ ?_ tunes_withCache).rest version fs
  all_goals exact fun _ _ => ⟨rfl, rfl, rfl, rfl, rfl, rfl, rfl, rfl, _, _, _, rfl⟩

end Setup

/-! ## 4. Setting up a session -/

/-- A place from which a configuration can be read is one at which it is found. -/
theorem Session.perform_load {p : Execution} {b : Place} {c : Configuration} {remark : Option String}
    (hb : p.At b) (hc : b.store.load b.files = .ok (c, remark)) :
    let q := ((Effect.remark remark).perform p).2
    load.perform p = (.ok (), { q with session := q.session.withConfiguration c }) := by
  unfold load
  rw [Run.perform_bind, Run.perform_get]
  simp only [hb.store, hb.files, hc]
  rfl

theorem Session.stays_load : load.Respects Execution.Stays := by
  intro p b hb
  unfold load
  rw [Run.perform_bind, Run.perform_get]
  simp only [hb.store, hb.files]
  cases b.store.load b.files with
  | error e => exact hb
  | ok found =>
    have hremark := (Effect.quiet_remark found.2).stays p b hb
    exact ⟨hremark.store, hremark.files⟩

namespace Setup

open Execution

theorem stays_chooseStore (fs : FlagList) : (chooseStore fs).Respects Stays := by
  intro p b hb
  unfold chooseStore
  rw [Run.perform_bind, Run.perform_get]
  simp only [hb.store, Option.isNone_some, Bool.false_eq_true, if_false]
  exact hb

/-- Where there is a store, no other one is chosen. -/
theorem perform_chooseStore {p : Execution} {b : Place} (hb : p.At b) (fs : FlagList) :
    (chooseStore fs).perform p = (.ok (), p) := by
  unfold chooseStore
  rw [Run.perform_bind, Run.perform_get]
  simp only [hb.store, Option.isNone_some, Bool.false_eq_true, if_false]
  rfl

theorem stays_loadConfiguration : loadConfiguration.Respects Stays := by
  refine .bind (.adapt Session.stays_load) fun _ => .lift fun p b hb => ⟨?_, hb.files⟩
  rw [Effect.perform_modifySession]
  dsimp only
  split
  · exact hb.store
  · exact hb.store

/-- What is known of a session once the configuration is read. -/
structure Loaded (b : Place) (c : Configuration) (p r : Execution) : Prop where
  place : r.At b
  servers : r.session.servers = c.servers
  extra : r.session.extra = c.extra
  factory : r.session.factory = p.session.factory
  host : r.session.host = p.session.host
  forgets : c.settings.Forgets r.session.settings

theorem Loaded.settles {b : Place} {c : Configuration} {p q r : Execution} (h : Loaded b c p q)
    (hs : q.Settles r) : Loaded b c p r :=
  ⟨hs.stays b h.place, hs.servers.trans h.servers, hs.extra.trans h.extra,
    hs.factory.trans h.factory, hs.host.trans h.host, h.forgets.trans hs.forgets⟩

theorem loaded_of_loadConfiguration {p : Execution} {b : Place} {c : Configuration}
    {remark : Option String} (hb : p.At b) (hc : b.store.load b.files = .ok (c, remark)) :
    ∃ r, loadConfiguration.perform p = (.ok (), r) ∧ Loaded b c p r := by
  have hremark := (Effect.quiet_remark remark).settles p
  unfold loadConfiguration
  rw [Run.perform_bind, Run.perform_adapt, Session.perform_load hb hc]
  generalize ((Effect.remark remark).perform p).2 = q at hremark
  refine ⟨_, rfl, ?_⟩
  have hloaded : Loaded b c p { q with session := q.session.withConfiguration c } :=
    ⟨⟨(hremark.stays b hb).store, (hremark.stays b hb).files⟩, rfl, rfl, hremark.factory,
      hremark.host, .refl _⟩
  have hbatch : (Effect.modifySession fun s =>
      if s.batch then { s with settings := .batch } else s).Respects Settles := by
    refine Effect.settles_modifySession fun s => ?_
    split
    · exact ⟨rfl, rfl, rfl, rfl, rfl, Settings.forgets_batch _⟩
    · exact ⟨rfl, rfl, rfl, rfl, rfl, .refl _⟩
  exact hloaded.settles (hbatch _)

theorem stays_run (version : String) (fs : FlagList) : (run version fs).Respects Stays := by
  have hbatch : (Effect.modifySession fun s => { s with batch := fs.truth "batch" }).Respects Stays :=
    fun p b hb => ⟨hb.store, hb.files⟩
  have hchosen := Run.Respects.bind (stays_chooseStore fs) fun _ =>
    .bind stays_loadConfiguration fun _ => fun p => (tunes_rest version fs p).settles.stays
  have hplaces := Run.Respects.bind (R := Stays)
    (.throw SetupError.conflictingPlaces : Run.Respects Stays (throw _ : Run SetupError PUnit))
    fun _ => hchosen
  unfold run
  dsimp only
  split
  · refine .bind (.lift hbatch) fun _ => ?_
    split
    · exact hplaces
    · exact hchosen
  · split
    · exact hplaces
    · exact hchosen

/-- **How a session is set up** at a place from which a configuration can be read: from there come the
    servers and the memory, of which a batch run forgets everything. -/
theorem loaded_of_run {version : String} {fs : FlagList} {p r : Execution} {b : Place}
    {c : Configuration} {remark : Option String} (hb : p.At b)
    (hc : b.store.load b.files = .ok (c, remark))
    (h : (run version fs).perform p = (.ok (), r)) : Loaded b c p r := by
  have hchosen {q : Execution} (h : Run.perform (do
      chooseStore fs
      loadConfiguration
      setStderrLevel fs
      setSyslogLevel fs
      Effect.modifySession (withLimits fs)
      Effect.log .info version
      Effect.modifySession (withCache fs) : Run SetupError Unit) q = (.ok (), r)) (hq : q.At b) :
      Loaded b c q r := by
    obtain ⟨m, hm, hloaded⟩ := loaded_of_loadConfiguration hq hc
    have hrest := (tunes_rest version fs m).settles
    rw [Run.perform_bind, perform_chooseStore hq] at h
    dsimp only at h
    rw [Run.perform_bind, hm] at h
    dsimp only at h
    rw [h] at hrest
    exact hloaded.settles hrest
  unfold run at h
  dsimp only at h
  split at h
  · rw [Run.perform_bind, Run.perform_lift, Effect.perform_modifySession] at h
    dsimp only at h
    split at h
    · cases h
    · obtain ⟨hplace, hservers, hextra, hfactory, hhost, hforgets⟩ :=
        hchosen h ⟨hb.store, hb.files⟩
      exact ⟨hplace, hservers, hextra, hfactory, hhost, hforgets⟩
  · split at h
    · cases h
    · exact hchosen h hb

end Setup

/-! ## 5. Reading a command line -/

theorem Effect.stays_modifySession {f : Session → Session} (h : ∀ s, (f s).store = s.store) :
    (modifySession f).Respects Execution.Stays :=
  fun p _ hb => ⟨(h p.session).trans hb.store, hb.files⟩

namespace Connect

open Execution

section

variable [IsPreorder Execution R]

/-- A client is made along a relation along which the log moves. -/
theorem respects_client_of (hlog : ∀ severity message, (Effect.log severity message).Respects R)
    (serverList : Option (List String)) (r : ClientRequest) : (client serverList r).Respects R := by
  unfold client
  refine .bind (.lift .session) fun s => ?_
  split
  · exact .throw _
  · refine .bind (.lift (hlog _ _)) fun _ => ?_
    split
    · exact .throw _
    · exact .pure _

variable (htake : ∀ value, (takeHost value).Respects R)
  (hclient : ∀ serverList r, (client serverList r).Respects R)
include htake hclient

theorem respects_source_of (i : Invocation) : (source i).Respects R := by
  unfold source
  split
  · exact .pure _
  · refine .bind (.lift (htake _)) fun _ => ?_
    split
    · exact .bind (.lift .session) fun _ => .bind (.adapt (hclient _ _)) fun _ => .pure _
    · exact .pure _

/-- Both clients are made along a relation along which hosts are taken and each client is made. -/
theorem respects_run_of (hdestination : ∀ host,
      (Effect.modifySession fun s => { s with destination := host }).Respects R)
    (i : Invocation) : (run i).Respects R := by
  refine .bind (respects_source_of htake hclient i) fun j => ?_
  unfold destination
  split
  · exact .pure _
  · exact .bind (.lift (hdestination _)) fun _ => .bind (.adapt (hclient _ _)) fun _ => .pure _

end

theorem quiet_client (serverList : Option (List String)) (r : ClientRequest) :
    (client serverList r).Respects Quiet := respects_client_of Effect.quiet_log serverList r

theorem stays_takeHost (value : String) : (takeHost value).Respects Stays := by
  unfold takeHost
  refine .bind .session fun s => ?_
  dsimp only
  generalize (if value.isEmpty then s.settings.host else value) = host
  refine .bind (Effect.stays_modifySession fun _ => rfl) fun _ => ?_
  split
  · exact .bind ((Effect.quiet_log _ _).stays) fun _ =>
      Effect.stays_modifySession fun _ => rfl
  · exact .pure _

theorem stays_run (i : Invocation) : (run i).Respects Stays :=
  respects_run_of stays_takeHost (fun _ _ => (quiet_client _ _).stays)
    (fun _ => Effect.stays_modifySession fun _ => rfl) i

end Connect

namespace CommandLine

open Execution

/-- A property that all steps have of which the reading of a command consists, and that stays with what is put
    together of them. -/
structure Reading (P : {ε α : Type} → Run ε α → Prop) : Prop where
  pure {ε α : Type} (a : α) : P (Pure.pure a : Run ε α)
  throw {ε α : Type} (e : ε) : P (MonadExcept.throw e : Run ε α)
  adapt {ε ε' α : Type} {f : ε → ε'} {r : Run ε α} (h : P r) : P (ExceptT.adapt f r : Run ε' α)
  bind {ε α β : Type} {r : Run ε α} {f : α → Run ε β} (h : P r) (hf : ∀ a, P (f a)) : P (r >>= f)
  print {ε : Type} (text : String) : P (liftM (Effect.print text) : Run ε Unit)
  complain {ε : Type} (text : String) : P (liftM (Effect.complain text) : Run ε Unit)
  log {ε : Type} (severity : Severity) (message : String) :
    P (liftM (Effect.log severity message) : Run ε Unit)
  appHelp {ε : Type} (app : App) (program : String) (globals : FlagList) :
    P (liftM (printAppHelp app program globals) : Run ε Unit)
  commandHelp {ε : Type} (command : Command) (category : String) (i : Invocation) :
    P (liftM (printCommandHelp command category i) : Run ε Unit)
  remember {ε : Type} (fs : FlagList) : P (liftM (remember fs) : Run ε FlagList)

namespace Reading

variable {P : {ε α : Type} → Run ε α → Prop}

theorem complainAll (h : Reading P) (cs : List Complaint) :
    P (liftM (CommandLine.complainAll cs) : Run ε Unit) := by
  induction cs with
  | nil => exact h.pure ()
  | cons c cs ih => exact h.bind (h.complain c.line) fun _ => ih

theorem logWalk (h : Reading P) (names : List String) :
    P (liftM (CommandLine.logWalk names) : Run ε Unit) := by
  induction names with
  | nil => exact h.pure ()
  | cons name names ih => exact h.bind (h.log .debug ("subcommand " ++ name)) fun _ => ih

theorem refuseIfAny (h : Reading P) (cs : List Complaint) (e : DescentError) :
    P (CommandLine.refuseIfAny cs e) := by
  unfold CommandLine.refuseIfAny
  refine h.bind (h.complainAll cs) fun _ => ?_
  split
  · exact h.throw _
  · exact h.pure _

theorem check (h : Reading P) (d : Descent) : P (CommandLine.check d) := by
  have hrequired : P (require d) := by
    rw [require_eq]
    refine h.bind (h.complainAll _) fun _ => h.bind (h.remember _) fun fs =>
      h.bind (h.complainAll _) fun _ => ?_
    split
    · exact h.throw _
    · exact h.pure _
  unfold CommandLine.check
  refine h.bind hrequired fun d => h.bind (h.refuseIfAny _ _) fun _ => ?_
  split
  · exact h.bind (h.throw _) fun _ => h.pure _
  · exact h.bind (h.refuseIfAny _ _) fun _ => h.pure _

theorem findCommand (h : Reading P) (app : App) (program : String) (globals : FlagList) (name : String)
    (c : Cursor) : P (CommandLine.findCommand app program globals name c) := by
  have hread (command : Command) : P (readCommand program globals command c) := by
    unfold readCommand
    refine h.bind (h.logWalk _) fun _ => ?_
    split
    · exact h.throw _
    · exact h.bind (h.print _) fun _ => h.pure _
    · exact h.bind (h.commandHelp _ _ _) fun _ => h.pure _
    · exact h.bind (h.check _) fun _ => h.pure _
  unfold CommandLine.findCommand
  split
  · exact h.adapt (hread _)
  · dsimp only
    split
    · exact h.bind (h.log _ _) fun _ => h.throw _
    · exact h.throw _

/-- **What stands behind the tool's options is reading**, but for the clients. -/
theorem readBehindGlobals (h : Reading P)
    (hconnect : ∀ program globals d, P (connect program globals d))
    (app : App) (program : String) (globals : FlagList) (c : Cursor) :
    P (CommandLine.readBehindGlobals app program globals c) := by
  have hhelp : P (do
      printAppHelp app program globals
      return none : Run ParseError (Option Prepared)) := h.bind (h.appHelp _ _ _) fun _ => h.pure _
  unfold CommandLine.readBehindGlobals
  split
  · exact hhelp
  split
  · exact hhelp
  split
  · exact h.bind (h.print _) fun _ => h.pure _
  refine h.bind (h.adapt (h.findCommand _ _ _ _ _)) fun d => ?_
  split
  · exact h.pure _
  · exact h.bind (h.adapt (hconnect _ _ _)) fun _ => h.pure _

end Reading

theorem quiet_printAppHelp (app : App) (program : String) (globals : FlagList) :
    (printAppHelp app program globals).Respects Quiet :=
  .bind .session fun _ => Effect.quiet_print _

theorem quiet_printCommandHelp (command : Command) (category : String) (i : Invocation) :
    (printCommandHelp command category i).Respects Quiet :=
  .bind .session fun _ => Effect.quiet_print _

theorem quiet_logWalk (names : List String) : (logWalk names).Respects Quiet := by
  induction names with
  | nil => exact .pure ()
  | cons name names ih => exact .bind (Effect.quiet_log _ _) fun _ => ih

theorem stays_remember (fs : FlagList) : (remember fs).Respects Stays := by
  unfold remember
  refine .bind .session fun s => ?_
  have hrest : ((do
      Effect.modifySession fun s' => { s' with
        settings := (Memory.reconcile fs s.settings s.servers).settings
        updated := s'.updated || (Memory.reconcile fs s.settings s.servers).refreshed }
      return (Memory.reconcile fs s.settings s.servers).flags) : Effect FlagList).Respects Stays :=
    .bind (Effect.stays_modifySession fun _ => rfl) fun _ => .pure _
  dsimp only
  split
  · exact .bind ((Effect.quiet_log _ _).stays) fun _ => hrest
  · exact hrest

/-- Reading leaves the place alone. -/
theorem reading_stays : Reading (Run.Respects Stays) where
  pure := .pure
  throw := .throw
  adapt := .adapt
  bind := .bind
  print text := .lift (Effect.quiet_print text).stays
  complain text := .lift (Effect.quiet_complain text).stays
  log severity message := .lift (Effect.quiet_log severity message).stays
  appHelp app program globals := .lift (quiet_printAppHelp app program globals).stays
  commandHelp command category i := .lift (quiet_printCommandHelp command category i).stays
  remember fs := .lift (stays_remember fs)

theorem stays_connect (program : String) (globals : FlagList) (d : Descent) :
    (connect program globals d).Respects Stays :=
  .bind (Connect.stays_run _) fun _ => .pure _

/-- **Reading a command line leaves the place of the configuration alone**, whatever comes of it. -/
theorem stays_read (app : App) (argv : List String) : (read app argv).Respects Stays := by
  have hprint (text : String) : Run.Respects Stays (do
      Effect.print text
      return none : Run ParseError (Option Prepared)) :=
    .bind (.lift ((Effect.quiet_print _).stays)) fun _ => .pure _
  unfold read
  split
  · exact .throw _
  split
  · exact hprint _
  split
  · exact hprint _
  unfold readArguments
  split
  · exact .throw _
  · exact hprint _
  · exact .bind (.adapt (Setup.stays_run _ _)) fun _ =>
      reading_stays.readBehindGlobals stays_connect _ _ _ _

end CommandLine

end BrokerCli
