import BrokerCli.Proofs.Batch

/-!
# A memory that is off

A run whose memory is off should neither read nor write what is remembered of the target. It writes nothing,
and it reads nothing but the host, and this at one place only: a command that needs a client, on a line that
leaves the host open, gets one for the remembered host.

* `Settings.masked`, `Session.masked` -- tenant, scope and token hidden, and the host, too, or not;
* `Execution.Akin` -- two executions whose memory is off, the same but for what is hidden;
* `Effect.Heedless` -- an action that does not look at what is hidden: it comes to the same in akin executions,
  and they stay akin. So is every step of reading a command line but one;
* `Connect.heedless_source` -- that one, if the line names its host, or the hosts are the same;
* `CommandLine.matches_read` -- two readings, from the opening of the line to the clients;
* `App.leavesWriting_of_read` -- what a run writes with its memory off, the action of its command writes;
* `App.parse_of_disabled` -- both together, and `App.parse_disabled_reads_host` -- the host is read.
-/

namespace BrokerCli

open Execution

variable {ε ε' α β : Type} {hosts : Bool} {p q : Execution}

/-! ## 1. What is hidden -/

/-- The settings with the remembered target hidden; its host only if `hosts` do not count. -/
def Settings.masked (hosts : Bool) (s : Settings) : Settings :=
  { s with host := if hosts then s.host else "", tenant := "", scope := "", token := "" }

/-- The session with the remembered target hidden, and where the settings are kept, and whether they are to
    be written back. -/
def Session.masked (hosts : Bool) (s : Session) : Session :=
  { s with
    settings := s.settings.masked hosts
    host := if hosts then s.host else ""
    store := none
    updated := false }

/-- Whether an event is shown at every level of the log. -/
def Event.isSaid : Event → Bool
  | logged _ => false
  | _ => true

/-- What was said: all that was shown but the log, in its order. -/
def Execution.said (p : Execution) : List Event := p.transcript.filter Event.isSaid

theorem Execution.said_emit (p : Execution) (e : Event) :
    (p.emit e).said = p.said ++ [e].filter Event.isSaid :=
  List.filter_append ..

/-- The log is not said. -/
theorem Execution.said_note (p : Execution) (s : Severity) (m : String) : (p.note s m).said = p.said := by
  unfold note
  split
  · exact (p.said_emit _).trans (List.append_nil _)
  · rfl

/-- The memory is off, the sessions are the same but for what is hidden, and the same was said. -/
structure Execution.Akin (hosts : Bool) (p q : Execution) : Prop where
  off : p.session.settings.usePrevious = false
  session : q.session.masked hosts = p.session.masked hosts
  said : q.said = p.said

namespace Execution.Akin

theorem off_right (h : p.Akin hosts q) : q.session.settings.usePrevious = false :=
  (congrArg (·.settings.usePrevious) h.session).trans h.off

/-- Where hosts count, they are the same. -/
theorem host_eq (h : p.Akin true q) : q.session.settings.host = p.session.settings.host :=
  congrArg (·.settings.host) h.session

end Execution.Akin

/-! ## 2. Actions that do not look at it -/

/-- An action that does not look at what is hidden: in akin executions it has one result, and they stay akin. -/
def Effect.Heedless (hosts : Bool) (e : Effect α) : Prop :=
  ∀ p q : Execution, p.Akin hosts q →
    (e.perform q).1 = (e.perform p).1 ∧ (e.perform p).2.Akin hosts (e.perform q).2

/-- The same of an action that can fail. -/
def Run.Heedless (hosts : Bool) (r : Run ε α) : Prop := Effect.Heedless hosts (ExceptT.run r)

namespace Effect.Heedless

theorem pure (a : α) : Effect.Heedless hosts (Pure.pure a) := fun _ _ h => ⟨rfl, h⟩

theorem bind {e : Effect α} {f : α → Effect β} (he : e.Heedless hosts) (hf : ∀ a, (f a).Heedless hosts) :
    (e >>= f).Heedless hosts := by
  intro p q h
  obtain ⟨hsame, hends⟩ := he p q h
  rw [perform_bind, perform_bind, hsame]
  exact hf _ _ _ hends

theorem map {e : Effect α} (f : α → β) (he : e.Heedless hosts) : (f <$> e).Heedless hosts := by
  intro p q h
  obtain ⟨hsame, hends⟩ := he p q h
  exact ⟨congrArg f hsame, hends⟩

/-- What is done with the session may depend on it as far as it is not hidden, and as the memory is off. -/
theorem session {f : Session → Effect α}
    (hf : ∀ s : Session, s.settings.usePrevious = false → f (s.masked hosts) = f s)
    (h : ∀ s, (f s).Heedless hosts) : (Effect.session >>= f).Heedless hosts := by
  intro p q hpq
  have hsame : f q.session = f p.session := by
    rw [← hf _ hpq.off_right, ← hf _ hpq.off, hpq.session]
  rw [perform_bind, perform_bind, perform_session, perform_session]
  dsimp only
  rw [hsame]
  exact h _ p q hpq

/-- A change of the session that does not depend on what is hidden. -/
theorem modifySession {f : Session → Session}
    (hf : ∀ s : Session, (f (s.masked hosts)).masked hosts = (f s).masked hosts)
    (hmode : ∀ s : Session, (f s).settings.usePrevious = s.settings.usePrevious) :
    (Effect.modifySession f).Heedless hosts := by
  intro p q h
  refine ⟨rfl, (hmode _).trans h.off, ?_, h.said⟩
  show (f q.session).masked hosts = (f p.session).masked hosts
  rw [← hf, ← hf p.session, h.session]

theorem print (text : String) : (Effect.print text).Heedless hosts := by
  refine fun p q h => ⟨rfl, h.off, h.session, ?_⟩
  rw [perform_print, perform_print, said_emit, said_emit, h.said]

theorem complain (text : String) : (Effect.complain text).Heedless hosts := by
  refine fun p q h => ⟨rfl, h.off, h.session, ?_⟩
  rw [perform_complain, perform_complain, said_emit, said_emit, h.said]

theorem log (severity : Severity) (message : String) : (Effect.log severity message).Heedless hosts := by
  intro p q h
  rw [perform_log, perform_log]
  refine ⟨rfl, ?_, ?_, ?_⟩
  · rw [session_note]
    exact h.off
  · rw [session_note, session_note]
    exact h.session
  · rw [said_note, said_note]
    exact h.said

end Effect.Heedless

namespace Run.Heedless

theorem pure (a : α) : Run.Heedless hosts (Pure.pure a : Run ε α) := Effect.Heedless.pure _

theorem throw (e : ε) : Run.Heedless hosts (MonadExcept.throw e : Run ε α) := Effect.Heedless.pure _

theorem lift {e : Effect α} (h : e.Heedless hosts) : Run.Heedless hosts (liftM e : Run ε α) :=
  h.map Except.ok

theorem adapt {f : ε → ε'} {r : Run ε α} (h : r.Heedless hosts) :
    Run.Heedless hosts (ExceptT.adapt f r : Run ε' α) :=
  Effect.Heedless.map _ h

theorem bind {r : Run ε α} {f : α → Run ε β} (h : r.Heedless hosts) (hf : ∀ a, (f a).Heedless hosts) :
    (r >>= f).Heedless hosts := by
  have hnext (a : Except ε α) : Effect.Heedless hosts (ExceptT.bindCont f a) := by
    cases a with
    | ok a => exact hf a
    | error e => exact .pure _
  exact Effect.Heedless.bind h hnext

theorem session {f : Session → Run ε α}
    (hf : ∀ s : Session, s.settings.usePrevious = false → f (s.masked hosts) = f s)
    (h : ∀ s, (f s).Heedless hosts) : (liftM Effect.session >>= f : Run ε α).Heedless hosts :=
  Effect.Heedless.session (f := f) hf h

/-- Akin executions come to one outcome, and stay akin. -/
theorem outcome {r : Run ε α} (h : r.Heedless hosts) (hpq : p.Akin hosts q) :
    ∃ outcome m m', r.perform p = (outcome, m) ∧ r.perform q = (outcome, m') ∧ m.Akin hosts m' :=
  ⟨(r.perform p).1, (r.perform p).2, (r.perform q).2, rfl, Prod.ext (h p q hpq).1 rfl, (h p q hpq).2⟩

end Run.Heedless

/-! ## 3. Setting up -/

namespace Setup

/-- Tuning a session does not look at what is hidden. -/
theorem tuning_heedless : Tuning (Run.Heedless hosts) where
  pure := .pure ()
  throw e := .throw e
  andThen h h' := .bind h fun _ => h'
  look hf h := .session (fun _ _ => hf _ _ rfl rfl) h
  log severity message := .lift (.log severity message)
  stderr _ := .lift (.modifySession (fun _ => by cases hosts <;> rfl) fun _ => rfl)
  syslog _ := .lift (.modifySession (fun _ => by cases hosts <;> rfl) fun _ => rfl)
  stderrLevel level _ _ h :=
    ⟨rfl, h.off, congrArg (fun s : Session => { s with stderrLevel := level }) h.session, h.said⟩
  syslogLevel _ := .lift (.modifySession (fun _ => by cases hosts <;> rfl) fun _ => rfl)
  limits _ := .lift (.modifySession (fun _ => by cases hosts <;> rfl) fun _ => rfl)
  cache fs := by
    unfold withCache
    cases fs.textIfSet "cache" with
    | none => exact .lift (.modifySession (fun _ => by cases hosts <;> rfl) fun _ => rfl)
    | some file => exact .lift (.modifySession (fun _ => by cases hosts <;> rfl) fun _ => rfl)

end Setup

/-! ## 4. Reading and checking -/

namespace CommandLine

/-- A memory that is off shows nothing of itself on a page. -/
theorem memory_masked {s : Session} (h : s.settings.usePrevious = false) :
    Help.memory (s.masked hosts).settings = Help.memory s.settings := by
  have h' : (s.masked hosts).settings.usePrevious = false := h
  unfold Help.memory
  simp only [h, h', Bool.not_false, if_true]

theorem heedless_printAppHelp (app : App) (program : String) (globals : FlagList) :
    (printAppHelp app program globals).Heedless hosts := by
  refine .session (fun s h => ?_) fun _ => .print _
  unfold Help.appPage
  rw [memory_masked h]

theorem heedless_printCommandHelp (command : Command) (category : String) (i : Invocation) :
    (printCommandHelp command category i).Heedless hosts := by
  refine .session (fun s h => ?_) fun _ => .print _
  unfold Help.commandPage
  rw [memory_masked h]

/-- A memory that is off fills no flags, and is not refreshed. -/
theorem perform_remember_of_off (fs : FlagList) (h : p.session.settings.usePrevious = false) :
    (remember fs).perform p = (fs, p) := by
  have hupdated : (p.session.updated || false) = p.session.updated := Bool.or_false _
  unfold remember
  simp only [Effect.perform_bind, Effect.perform_session, Memory.reconcile_of_off h,
    Effect.perform_pure, Effect.perform_modifySession, hupdated]

theorem heedless_remember (fs : FlagList) : (remember fs).Heedless hosts := by
  intro p q h
  rw [perform_remember_of_off fs h.off, perform_remember_of_off fs h.off_right]
  exact ⟨rfl, h⟩

/-- Reading does not look at what is hidden. -/
theorem reading_heedless : Reading (Run.Heedless hosts) where
  pure := .pure
  throw := .throw
  adapt := .adapt
  bind := .bind
  print text := .lift (.print text)
  complain text := .lift (.complain text)
  log severity message := .lift (.log severity message)
  appHelp app program globals := .lift (heedless_printAppHelp app program globals)
  commandHelp command category i := .lift (heedless_printCommandHelp command category i)
  remember fs := .lift (heedless_remember fs)

end CommandLine

/-! ## 5. Clients -/

/-- Nothing was said, and the memory is on or off as it was. -/
structure Execution.Tacit (p q : Execution) : Prop where
  said : q.said = p.said
  mode : q.session.settings.usePrevious = p.session.settings.usePrevious

instance : IsPreorder Execution Execution.Tacit where
  refl _ := ⟨rfl, rfl⟩
  trans _ _ _ h h' := ⟨h'.said.trans h.said, h'.mode.trans h.mode⟩

theorem Effect.tacit_log (severity : Severity) (message : String) :
    (log severity message).Respects Tacit := by
  intro p
  rw [perform_log]
  exact ⟨p.said_note _ _, by rw [session_note]⟩

theorem Effect.tacit_modifySession {f : Session → Session}
    (hf : ∀ s : Session, (f s).settings.usePrevious = s.settings.usePrevious) :
    (modifySession f).Respects Tacit := fun p => ⟨rfl, hf p.session⟩

/-- The host is taken, and hidden like the remembered one. -/
theorem Session.masked_taking (s : Session) (value : String) :
    (s.taking value).masked hosts =
      let host := if hosts then if value.isEmpty then s.settings.host else value else ""
      { s.masked hosts with host, settings := { (s.masked hosts).settings with host } } := by
  unfold taking
  dsimp only
  generalize (if value.isEmpty then s.settings.host else value) = host
  by_cases hh : s.settings.host = host
  · rw [if_pos hh, ← hh]
    rfl
  · rw [if_neg hh]
    rfl

theorem Session.host_taking (s : Session) (value : String) :
    (s.taking value).host = if value.isEmpty then s.settings.host else value := by
  unfold taking
  dsimp only
  generalize (if value.isEmpty then s.settings.host else value) = host
  split <;> rfl

/-- The flags leave open the host for which the command needs a client. -/
def FlagList.LeavesHostOpen (fs : FlagList) : Prop :=
  ∃ f features, fs.textFlag? "host" = some (f, "", features) ∧ features.initClient = true

namespace Connect

theorem tacit_takeHost (value : String) : (takeHost value).Respects Tacit := by
  unfold takeHost
  refine .bind .session fun s => ?_
  dsimp only
  generalize (if value.isEmpty then s.settings.host else value) = host
  refine .bind (Effect.tacit_modifySession fun _ => rfl) fun _ => ?_
  split
  · exact .bind (Effect.tacit_log _ _) fun _ => Effect.tacit_modifySession fun _ => rfl
  · exact .pure _

/-- Asking for the client of a host says nothing, whether there is one or not. -/
theorem tacit_source (i : Invocation) : (source i).Respects Tacit :=
  respects_source_of tacit_takeHost (respects_client_of Effect.tacit_log) i

/-- Making the clients says nothing. -/
theorem tacit_run (i : Invocation) : (run i).Respects Tacit :=
  respects_run_of tacit_takeHost (respects_client_of Effect.tacit_log)
    (fun _ => Effect.tacit_modifySession fun _ => rfl) i

/-- Sessions that take a host stay the same but for what is hidden. -/
theorem masked_taking_eq (h : p.Akin hosts q) (value : String) :
    (q.session.taking value).masked hosts = (p.session.taking value).masked hosts := by
  rw [Session.masked_taking, Session.masked_taking, h.session]
  cases hosts with
  | false => rfl
  | true => rw [h.host_eq]

theorem heedless_takeHost (value : String) : (takeHost value).Heedless hosts := by
  intro p q h
  have hp := tacit_takeHost value p
  have hq := tacit_takeHost value q
  refine ⟨rfl, hp.mode.trans h.off, ?_, hq.said.trans (h.said.trans hp.said.symm)⟩
  rw [session_takeHost, session_takeHost]
  exact masked_taking_eq h value

theorem heedless_client (serverList : Option (List String)) (r : ClientRequest) :
    (client serverList r).Heedless hosts := by
  unfold client
  refine .session (fun _ _ => rfl) fun s => ?_
  split
  · exact .throw _
  · refine .bind (.lift (.log _ _)) fun _ => ?_
    split
    · exact .throw _
    · exact .pure _

/-- A client for the first host is asked for when the host is taken. -/
theorem perform_source {i : Invocation} {f : Flag} {value : String} {features : TextFeatures}
    (hh : i.flags.textFlag? "host" = some (f, value, features)) (hc : features.initClient = true)
    (p : Execution) :
    let taken := ((takeHost value).perform p).2
    (source i).perform p = Run.perform (do
      let c ← ExceptT.adapt .source
        (client i.serverList (request i.flags taken.session.host features.skipGetToken false))
      return { i with client := some c }) taken := by
  unfold source
  rw [hh]
  dsimp only
  rw [Run.perform_bind, Run.perform_lift]
  dsimp only
  rw [if_pos hc, Run.perform_bind, Run.perform_lift, Effect.perform_session]

/-- **The client for the first host does not depend on what is hidden**, if the flags name the host, or
    hosts count. -/
theorem heedless_source {i : Invocation} (hi : hosts = true ∨ ¬ i.flags.LeavesHostOpen) :
    (source i).Heedless hosts := by
  cases hflag : i.flags.textFlag? "host" with
  | none =>
    unfold source
    rw [hflag]
    exact .pure _
  | some found =>
    obtain ⟨f, value, features⟩ := found
    cases hclient : features.initClient with
    | false =>
      unfold source
      simp only [hflag, hclient, Bool.false_eq_true, if_false]
      exact .bind (.lift (heedless_takeHost value)) fun _ => .pure _
    | true =>
      intro p q h
      -- the session's host is the one that was given, or the remembered one where that counts
      have hhost : ((takeHost value).perform q).2.session.host =
          ((takeHost value).perform p).2.session.host := by
        rw [session_takeHost, session_takeHost, Session.host_taking, Session.host_taking]
        by_cases hv : value.isEmpty = true
        · rw [if_pos hv, if_pos hv]
          rcases hi with rfl | hnamed
          · exact h.host_eq
          · rw [String.isEmpty_iff] at hv
            exact absurd ⟨f, features, hv ▸ hflag, hclient⟩ hnamed
        · rw [if_neg hv, if_neg hv]
      have hmade (host : String) : Run.Heedless hosts (do
          let c ← ExceptT.adapt .source
            (client i.serverList (request i.flags host features.skipGetToken false))
          return { i with client := some c } : Run ConnectError Invocation) :=
        .bind (.adapt (heedless_client _ _)) fun _ => .pure _
      rw [Run.perform_run, Run.perform_run, perform_source hflag hclient, perform_source hflag hclient,
        hhost]
      exact hmade _ _ _ (heedless_takeHost value p q h).2

theorem heedless_destination (i : Invocation) : (destination i).Heedless hosts := by
  unfold destination
  split
  · exact .pure _
  · exact .bind (.lift (.modifySession (fun _ => by cases hosts <;> rfl) fun _ => rfl)) fun _ =>
      .bind (.adapt (heedless_client _ _)) fun _ => .pure _

/-- The client for the second host is made without regard to the one for the first. -/
theorem destination_client (i : Invocation) (c : Option Client) :
    destination { i with client := c } = (fun j => { j with client := c }) <$> destination i := by
  unfold destination
  dsimp only
  cases i.flags.textIfSet "host2" with
  | none => rfl
  | some host => simp only [map_bind, map_pure]

/-- **Invocations that are connected differ at most in the client for the first host**, and only if the
    flags leave this host open. -/
theorem run_of_akin (h : p.Akin hosts q) (i : Invocation) :
    (hosts = true ∨ ¬ i.flags.LeavesHostOpen → ((run i).perform q).1 = ((run i).perform p).1) ∧
      ∀ j j', ((run i).perform p).1 = .ok j → ((run i).perform q).1 = .ok j' →
        j' = { j with client := j'.client } := by
  have hsame (hi : hosts = true ∨ ¬ i.flags.LeavesHostOpen) :
      ((run i).perform q).1 = ((run i).perform p).1 :=
    (Run.Heedless.bind (heedless_source hi) heedless_destination p q h).1
  refine ⟨hsame, fun j j' hj hj' => ?_⟩
  by_cases hi : hosts = true ∨ ¬ i.flags.LeavesHostOpen
  · obtain rfl : j' = j := Except.ok.inj (hj'.symm.trans ((hsame hi).trans hj))
    rfl
  -- both clients for the first host are made when the remembered hosts have been taken
  obtain ⟨f, features, hflag, _⟩ := not_not.1 (not_or.1 hi).2
  obtain ⟨k, m, hs, hd⟩ := Run.ok_of_bind (Prod.ext hj rfl : (run i).perform p = (.ok j, _))
  obtain ⟨k', m', hs', hd'⟩ := Run.ok_of_bind (Prod.ext hj' rfl : (run i).perform q = (.ok j', _))
  have htacit := congrArg Prod.snd hs ▸ tacit_source i p
  have htacit' := congrArg Prod.snd hs' ▸ tacit_source i q
  have hends : m.Akin hosts m' := by
    refine ⟨htacit.mode.trans h.off, ?_, htacit'.said.trans (h.said.trans htacit.said.symm)⟩
    rw [(client_of_source hflag hs).1, (client_of_source hflag hs').1]
    exact masked_taking_eq h ""
  obtain ⟨outcome, t, t', hp, hq, _⟩ := (heedless_destination i).outcome hends
  rw [frame_of_source hs, destination_client, Run.perform_map, hp] at hd
  rw [frame_of_source hs', destination_client, Run.perform_map, hq] at hd'
  cases outcome with
  | error e => cases hd
  | ok j₀ =>
    cases hd
    cases hd'
    rfl

end Connect

/-! ## 6. Two readings of one line -/

/-- At both places a configuration is found whose memory is off, and the two differ in nothing but what is
    hidden. -/
def Place.Disabled (hosts : Bool) (b b' : Place) : Prop :=
  ∃ c c', b.held? = some c ∧ b'.held? = some c' ∧ c.settings.usePrevious = false ∧
    c'.settings.masked hosts = c.settings.masked hosts ∧ c'.servers = c.servers ∧ c'.extra = c.extra

theorem Execution.Twins.said (h : p.Twins q) : q.said = p.said :=
  congrArg (List.filter Event.isSaid) h.transcript

theorem Execution.said_remark (text : Option String) (p : Execution) :
    ((Effect.remark text).perform p).2.said = p.said := by
  cases text with
  | none => rfl
  | some text => exact p.said_note .debug text

namespace Setup

variable {b b' : Place} {fs : FlagList}

/-- Sessions that are the same but for what is hidden are so, too, with two such configurations. -/
theorem masked_settingsIn {s t : Session} {c c' : Configuration} (hst : t.masked hosts = s.masked hosts)
    (hsettings : c'.settings.masked hosts = c.settings.masked hosts) (hservers : c'.servers = c.servers)
    (hextra : c'.extra = c.extra) :
    Session.masked hosts
        { t with settings := settingsIn t.batch c', servers := c'.servers, extra := c'.extra } =
      Session.masked hosts
        { s with settings := settingsIn s.batch c, servers := c.servers, extra := c.extra } := by
  have hbatch : t.batch = s.batch := congrArg (·.batch) hst
  have hread : (settingsIn t.batch c').masked hosts = (settingsIn s.batch c).masked hosts := by
    rw [hbatch]
    cases s.batch with
    | true => rfl
    | false => exact hsettings
  rw [hservers, hextra]
  exact congrArg₂ (fun (s : Session) settings => { s with settings, servers := c.servers, extra := c.extra })
    hst hread

/-- Twins are akin when they have read configurations whose memory is off. -/
theorem akin_of_load (hpq : p.Twins q) (hb : p.At b) (hb' : q.At b') (h : b.Disabled hosts b') :
    ∃ m m', loadConfiguration.perform p = (.ok (), m) ∧ loadConfiguration.perform q = (.ok (), m') ∧
      m.Akin hosts m' := by
  obtain ⟨c, c', hheld, hheld', hoff, hmasked, hservers, hextra⟩ := h
  obtain ⟨remark, hc⟩ := Place.held?_eq_some_iff.1 hheld
  obtain ⟨remark', hc'⟩ := Place.held?_eq_some_iff.1 hheld'
  have hsession : q.session.masked hosts = p.session.masked hosts := by
    rw [hpq.session]
    rfl
  refine ⟨_, _, perform_loadConfiguration hb hc, perform_loadConfiguration hb' hc', ?_, ?_, ?_⟩
  · show (settingsIn p.session.batch c).usePrevious = false
    cases p.session.batch with
    | true => rfl
    | false => exact hoff
  · dsimp only
    rw [(Effect.quiet_remark remark p).session, (Effect.quiet_remark remark' q).session]
    exact masked_settingsIn hsession hmasked hservers hextra
  · exact (said_remark _ q).trans (hpq.said.trans (said_remark _ p).symm)

/-- Setting up leaves twins akin, or fails for both of them, and says nothing. -/
theorem settle_of_disabled (version : String) (hpq : p.Twins q)
    (hplaces : Option.Rel (Place.Disabled hosts) (place? fs p) (place? fs q)) :
    (∃ e m m', (settle version fs).perform p = (.error e, m) ∧
      (settle version fs).perform q = (.error e, m') ∧ m'.said = m.said) ∨
    ∃ m m', (settle version fs).perform p = (.ok (), m) ∧ (settle version fs).perform q = (.ok (), m') ∧
      m.Akin hosts m' := by
  unfold settle
  have hchosen := perform_chooseStore_of_place? fs p
  have hchosen' := perform_chooseStore_of_place? fs q
  revert hchosen hchosen'
  generalize hp : place? fs p = place at hplaces
  generalize hq : place? fs q = place' at hplaces
  intro hchosen hchosen'
  cases hplaces with
  | none =>
    rw [Run.perform_bind, Run.perform_bind, hchosen, hchosen']
    exact .inl ⟨_, _, _, rfl, rfl, hpq.said⟩
  | @some b b' hplaces =>
    have htwins : Execution.Twins
        { p with session := { p.session with store := some b.store } }
        { q with session := { q.session with store := some b'.store } } :=
      ⟨congrArg (fun s : Session => { s with store := some b'.store }) hpq.session,
        hpq.environment, hpq.threshold, hpq.transcript⟩
    obtain ⟨m, m', hm, hm', hakin⟩ := akin_of_load htwins (at_of_place? hp) (at_of_place? hq) hplaces
    obtain ⟨outcome, t, t', ht, ht', hends⟩ := (tuning_heedless.rest version fs).outcome hakin
    rw [Run.perform_bind, Run.perform_bind, hchosen, hchosen']
    dsimp only
    rw [Run.perform_bind, Run.perform_bind, hm, hm']
    dsimp only
    rw [ht, ht']
    cases outcome with
    | error e => exact .inl ⟨_, _, _, rfl, rfl, hends.said⟩
    | ok u => exact .inr ⟨_, _, rfl, rfl, hends⟩

end Setup

namespace CommandLine

/-- The line is read to its end, and leaves open the host for which its command needs a client. -/
def LeavesHostOpen (app : App) (argv : List String) : Prop :=
  ∃ line, line? app argv = some line ∧ line.descent.placed.1.LeavesHostOpen

/-- What two readings have in common whose memory is off: what they said, and the command that is ready, but
    for its client for the first host. If that counts, too, the readings have one outcome. -/
structure Matches (closed : Prop) (r r' : Except ParseError (Option Prepared) × Execution) : Prop where
  same : closed → r'.1 = r.1
  shared : ∀ prepared prepared', r.1 = .ok (some prepared) → r'.1 = .ok (some prepared') →
    prepared' = { prepared with
      invocation := { prepared.invocation with client := prepared'.invocation.client } }
  said : r'.2.said = r.2.said
  off : ∀ prepared, r.1 = .ok (some prepared) → r.2.session.settings.usePrevious = false
  off_right : ∀ prepared, r'.1 = .ok (some prepared) → r'.2.session.settings.usePrevious = false

namespace Matches

variable {closed : Prop} {outcome : Except ParseError (Option Prepared)}

/-- Readings with one outcome that is no command match if they said the same. -/
theorem of_said (h : q.said = p.said) (hno : ∀ prepared, outcome ≠ .ok (some prepared)) :
    Matches closed (outcome, p) (outcome, q) :=
  ⟨fun _ => rfl, fun prepared _ hp => absurd hp (hno prepared), h,
    fun prepared hp => absurd hp (hno prepared), fun prepared hq => absurd hq (hno prepared)⟩

theorem of_akin (h : p.Akin hosts q) : Matches closed (outcome, p) (outcome, q) := by
  refine ⟨fun _ => rfl, fun prepared prepared' hp hq => ?_, h.said, fun _ _ => h.off,
    fun _ _ => h.off_right⟩
  obtain rfl : prepared = prepared' := Option.some.inj (Except.ok.inj (hp.symm.trans hq))
  rfl

/-- Steps that do not look at what is hidden match. -/
theorem of_heedless {r : Run ParseError (Option Prepared)} (hr : r.Heedless hosts) (h : p.Akin hosts q) :
    Matches closed (r.perform p) (r.perform q) := by
  obtain ⟨outcome, m, m', hp, hq, hends⟩ := hr.outcome h
  rw [hp, hq]
  exact .of_akin hends

end Matches

/-- **Making the clients of one command matches.** -/
theorem matches_connect (h : p.Akin hosts q) (program : String) (globals : FlagList) (d : Descent) :
    let connected : Run ParseError (Option Prepared) := do
      return some (← ExceptT.adapt .connect (connect program globals d))
    Matches (hosts = true ∨ ¬ d.flags.LeavesHostOpen) (connected.perform p) (connected.perform q) := by
  intro connected
  let i : Invocation := { invocation program globals d with serverList := d.command.serverList }
  obtain ⟨hsame, hshared⟩ := Connect.run_of_akin h i
  have htacit := Connect.tacit_run i p
  have htacit' := Connect.tacit_run i q
  have hconnected (m : Execution) : connected.perform m =
      (((Connect.run i).perform m).1.map (fun j => some ⟨d.command, d.category, j⟩) |>.mapError .connect,
        ((Connect.run i).perform m).2) := by
    simp only [connected, connect, Run.perform_bind, Run.perform_adapt]
    rcases (Connect.run i).perform m with ⟨_ | j, t⟩ <;> rfl
  rw [hconnected, hconnected]
  refine ⟨fun hclosed => ?_, fun prepared prepared' hp hq => ?_, ?_, fun _ _ => htacit.mode.trans h.off,
    fun _ _ => htacit'.mode.trans h.off_right⟩
  · dsimp only
    rw [hsame hclosed]
  · dsimp only at hp hq
    rcases hj : ((Connect.run i).perform p).1 with e | j
    · rw [hj] at hp
      cases hp
    rcases hj' : ((Connect.run i).perform q).1 with e | j'
    · rw [hj'] at hq
      cases hq
    rw [hj] at hp
    rw [hj'] at hq
    cases hp
    cases hq
    dsimp only
    rw [← hshared j j' hj hj']
  · exact htacit'.said.trans (h.said.trans htacit.said.symm)

/-- What stands behind the tool's options matches, from the command's name to its clients. -/
theorem matches_readBehindGlobals (h : p.Akin hosts q) (app : App) (program : String)
    (globals : FlagList) (c : Cursor) :
    Matches (hosts = true ∨ ¬ ∃ line, lineBehindGlobals? app program globals c = some line ∧
        line.descent.placed.1.LeavesHostOpen)
      ((readBehindGlobals app program globals c).perform p)
      ((readBehindGlobals app program globals c).perform q) := by
  have hhelp : Run.Heedless hosts (do
      printAppHelp app program globals
      return none : Run ParseError (Option Prepared)) :=
    .bind (.lift (heedless_printAppHelp _ _ _)) fun _ => .pure _
  unfold lineBehindGlobals? readBehindGlobals
  rcases c.next with ⟨_ | name, c'⟩
  · exact .of_heedless hhelp h
  dsimp only
  by_cases hname : asksHelp name = true
  · simp only [hname, if_true]
    exact .of_heedless hhelp h
  by_cases htrigger : name = Completion.trigger
  · simp only [htrigger, if_true]
    exact .of_heedless (.bind (.lift (.print _)) fun _ => .pure _) h
  simp only [hname, htrigger, Bool.false_eq_true, or_self, if_false]
  obtain ⟨outcome, m, m', hp, hq, hends⟩ :=
    (reading_heedless.findCommand app program (belowTool globals) name c').outcome h
  rw [Run.perform_bind, Run.perform_bind, Run.perform_adapt, Run.perform_adapt, hp, hq]
  rcases outcome with e | _ | d
  · exact .of_akin hends
  · exact .of_akin hends
  obtain ⟨command, read, t, hf, hread, hsession, hcheck⟩ := descent_of_findCommand hp
  have hflags : d.flags = read.placed.1 := by
    have hverdict := (perform_check t read).1
    have hoff : t.session.settings.usePrevious = false := by
      rw [hsession]
      exact h.off
    rw [hcheck] at hverdict
    rw [Descent.eq_of_verdict hverdict.symm]
    exact congrArg Memory.Reconciled.flags (Memory.reconcile_of_off hoff)
  have hconnect := matches_connect hends program (belowTool globals) d
  refine ⟨fun hclosed => hconnect.same ?_, hconnect.shared, hconnect.said, hconnect.off,
    hconnect.off_right⟩
  refine hclosed.imp id fun hnone hopen => hnone ⟨⟨program, globals, read⟩, ?_, hflags ▸ hopen⟩
  simp only [hf, hread]

/-- **Two readings whose memory is off match**, whatever is remembered. -/
theorem matches_read (app : App) (argv : List String) (hpq : p.Twins q)
    (hplaces : ∀ o, opening? app argv = some o →
      Option.Rel (Place.Disabled hosts) (Setup.place? o.globals p) (Setup.place? o.globals q)) :
    Matches (hosts = true ∨ ¬ LeavesHostOpen app argv)
      ((read app argv).perform p) ((read app argv).perform q) := by
  cases ho : opening? app argv with
  | none =>
    rcases read_of_no_opening ho with ⟨e, hread⟩ | ⟨text, hread⟩
    · rw [hread]
      exact .of_said hpq.said fun _ => nofun
    · rw [hread]
      refine .of_said ?_ fun _ => nofun
      show (q.emit (.printed text)).said = (p.emit (.printed text)).said
      rw [said_emit, said_emit, hpq.said]
  | some o =>
    have hchosen := Setup.twins_choosing o.globals hpq
    have hplaces := hplaces o ho
    rw [← Setup.place?_choosing o.globals p, ← Setup.place?_choosing o.globals q] at hplaces
    rw [perform_read_of_opening? ho, perform_read_of_opening? ho]
    split
    · exact .of_said hchosen.said fun _ => nofun
    rw [Run.perform_bind, Run.perform_bind, Run.perform_adapt, Run.perform_adapt]
    rcases Setup.settle_of_disabled app.version hchosen hplaces with
      ⟨e, m, m', hp, hq, hsaid⟩ | ⟨m, m', hp, hq, hends⟩
    · rw [hp, hq]
      exact .of_said hsaid fun _ => nofun
    · rw [hp, hq]
      unfold LeavesHostOpen
      rw [line?_eq_bind, ho]
      exact matches_readBehindGlobals hends app o.program o.globals o.behind

end CommandLine

/-! ## 7. Nothing is written -/

/-- An action that leaves the settings of the session as they are. -/
def Action.KeepsSettings (a : Action) : Prop :=
  ∀ i p, ((a i).perform p).2.session.settings = p.session.settings

namespace App

variable {app : App} {argv : List String}

/-- The run leaves all writing to the action of its command: reading the line spares files and store, and
    then the run ends where the action ends, or spares them to its end. -/
def LeavesWriting (app : App) (argv : List String) (p : Execution) : Prop :=
  let read := (CommandLine.read app argv).perform p
  let ended := ((run app argv).perform p).2
  p.Spares read.2 ∧ (read.2.Spares ended ∨
    ∃ prepared, read.1 = .ok (some prepared) ∧ ended = ((act prepared).perform read.2).2)

/-- If the actions write nothing, nothing is written at all. -/
theorem LeavesWriting.spares (h : app.LeavesWriting argv p)
    (hacts : app.Acts fun a => ∀ i, (a i).Respects Spares) : p.Spares ((run app argv).perform p).2 := by
  obtain ⟨hread, hspares | ⟨prepared, hready, hended⟩⟩ := h
  · exact trans_of Spares hread hspares
  · have hhas := has_of_read (Prod.ext hready rfl : (CommandLine.read app argv).perform p = (_, _))
    rw [hended]
    exact trans_of Spares hread (respects_act (fun a ha => hacts _ hhas a ha _) _)

/-- **A run whose memory is off when its command is ready leaves all writing to the action**, if the action
    keeps the settings: at the end there is nothing to be written back. -/
theorem leavesWriting_of_read (hkeeps : app.Acts Action.KeepsSettings)
    (hoff : ∀ prepared, ((CommandLine.read app argv).perform p).1 = .ok (some prepared) →
      ((CommandLine.read app argv).perform p).2.session.settings.usePrevious = false) :
    app.LeavesWriting argv p := by
  refine ⟨CommandLine.spares_read app argv p, ?_⟩
  rw [perform_run]
  rcases hread : (CommandLine.read app argv).perform p with ⟨e | _ | prepared, m⟩
  · refine .inl ?_
    unfold conclude
    dsimp only
    split
    · exact refl_of Spares m
    · exact refl_of Spares m
  · exact .inl (refl_of Spares m)
  have hoff : m.session.settings.usePrevious = false := by
    rw [hread] at hoff
    exact hoff prepared rfl
  show m.Spares ((dispatch prepared).perform m).2 ∨ _
  cases hg : prepared.command.isGroup with
  | true => exact .inl (quiet_dispatch_of_group hg m).spares
  | false =>
    refine .inr ⟨prepared, rfl, ?_⟩
    have hacted : ((act prepared).perform m).2.session.settings = m.session.settings := by
      unfold act
      cases ha : prepared.command.action with
      | none => rfl
      | some a => exact hkeeps _ (has_of_read hread) a ha _ m
    show ((dispatch prepared).perform m).2 = _
    rw [session_dispatch hg, perform_flush_of_not_due]
    rw [hacted, hoff, Bool.and_false]

/-! ## 8. What becomes of a memory that is off -/

/-- **A memory that is off is not written, and nothing of it is read but the host.**

    Take a tool whose actions keep the settings, and two executions that differ in nothing but where the
    configuration is kept; the configurations that are found have their memory off, and differ in nothing but
    the remembered target. Then reading a command line says the same in both, and whatever command is ready
    then has the same flags, arguments and clients, but maybe for the client for the first host. This one is
    the same, too, and so is every failure, if the remembered hosts are the same, or if the line names the
    host for which its command needs a client. And both runs leave all writing to the action of the command:
    if actions write nothing, nothing is written. -/
theorem parse_of_disabled (hosts : Bool) (app : App) (hkeeps : app.Acts Action.KeepsSettings)
    (argv : List String) (hpq : p.Twins q) (hplaces : ∀ o, CommandLine.opening? app argv = some o →
      Option.Rel (Place.Disabled hosts) (Setup.place? o.globals p) (Setup.place? o.globals q)) :
    let r := (parse app argv).perform p
    let r' := (parse app argv).perform q
    (hosts = true ∨ ¬ CommandLine.LeavesHostOpen app argv → r'.1 = r.1) ∧
      (∀ prepared prepared', r.1 = .ok (some prepared) → r'.1 = .ok (some prepared') →
        prepared' = { prepared with
          invocation := { prepared.invocation with client := prepared'.invocation.client } }) ∧
      r'.2.said = r.2.said ∧
      app.LeavesWriting argv p ∧ app.LeavesWriting argv q ∧
      ((app.Acts fun a => ∀ i, (a i).Respects Spares) →
        p.Spares ((run app argv).perform p).2 ∧ q.Spares ((run app argv).perform q).2) := by
  have hmatches := CommandLine.matches_read app argv hpq hplaces
  have hready {m : Execution} {prepared : Prepared}
      (h : ((parse app argv).perform m).1 = .ok (some prepared)) :
      ((CommandLine.read app argv).perform m).1 = .ok (some prepared) :=
    congrArg Prod.fst (read_of_parse (Prod.ext h rfl : (parse app argv).perform m = (_, _)))
  have hp : app.LeavesWriting argv p := leavesWriting_of_read hkeeps hmatches.off
  have hq : app.LeavesWriting argv q := leavesWriting_of_read hkeeps hmatches.off_right
  refine ⟨fun hclosed => ?_, fun prepared prepared' h h' => hmatches.shared _ _ (hready h) (hready h'),
    hmatches.said, hp, hq, fun hacts => ⟨hp.spares hacts, hq.spares hacts⟩⟩
  exact congrArg (Except.mapError _) (hmatches.same hclosed)

/-- A tool with a command that needs a client for its host. -/
def showing : App where
  name := "ngsi"
  commands := [{ name := "show", flags := [{ name := "host", content := .text "" { initClient := true } }] }]

theorem acts_showing {P : Action → Prop} : showing.Acts P := by
  rintro c ⟨top, htop, hc⟩ a ha
  obtain rfl := List.mem_singleton.1 htop
  rw [hc.eq_of_leaf rfl] at ha
  cases ha

/-- An execution whose configuration is in memory, with its own memory off, but a target remembered. -/
def offWith (host tenant : String) : Execution :=
  { session := { store := some (.inMemory { settings := { usePrevious := false, host, tenant } }) } }

theorem disabled_offWith (fs : FlagList) (host host' tenant tenant' : String) :
    Option.Rel (Place.Disabled false) (Setup.place? fs (offWith host tenant))
      (Setup.place? fs (offWith host' tenant')) :=
  .some ⟨_, _, rfl, rfl, rfl, rfl, rfl, rfl⟩

/-- Another target is remembered, and the command gets the same client for the host that it is given. -/
theorem parse_of_disabled_given :
    let argv := ["ngsi", "show", "--host", "http://beta"]
    let p := offWith "http://alpha" "openiot"
    let q := offWith "" ""
    ((parse showing argv).perform q).1 = ((parse showing argv).perform p).1 ∧
      p.Spares ((run showing argv).perform p).2 ∧
      (((parse showing argv).perform p).1.toOption.join.bind (·.invocation.client)).map (·.url) =
        some "http://beta" := by
  intro argv p q
  have hnamed : ¬ CommandLine.LeavesHostOpen showing argv := by
    rintro ⟨line, hline, f, features, hflag, _⟩
    have hgiven : (CommandLine.line? showing argv).map (fun line =>
        (line.descent.placed.1.textFlag? "host").map (·.2.1)) = some (some "http://beta") := by
      decide +kernel
    rw [hline, Option.map_some, hflag] at hgiven
    have hempty : "" = "http://beta" := Option.some.inj (Option.some.inj hgiven)
    exact absurd hempty (by decide)
  obtain ⟨hsame, _, _, _, _, hspares⟩ := parse_of_disabled false showing acts_showing argv
    (⟨rfl, rfl, rfl, rfl⟩ : p.Twins q) fun o _ => disabled_offWith o.globals _ _ _ _
  exact ⟨hsame (.inr hnamed), (hspares acts_showing).1, by decide +kernel⟩

/-- **The host is read**: left open on the line, it is the remembered one, with the memory off. -/
theorem parse_disabled_reads_host : ¬ ∀ (app : App) (argv : List String) (p q : Execution),
    app.Acts Action.KeepsSettings → p.Twins q →
    (∀ o, CommandLine.opening? app argv = some o →
      Option.Rel (Place.Disabled false) (Setup.place? o.globals p) (Setup.place? o.globals q)) →
    ((parse app argv).perform q).1 = ((parse app argv).perform p).1 := by
  intro h
  have hsame := h showing ["ngsi", "show"] (offWith "http://alpha" "") (offWith "" "")
    acts_showing ⟨rfl, rfl, rfl, rfl⟩ fun o _ => disabled_offWith o.globals _ _ _ _
  have hmade : ((parse showing ["ngsi", "show"]).perform (offWith "http://alpha" "")).1.toBool = true := by
    decide +kernel
  have hfails : ((parse showing ["ngsi", "show"]).perform (offWith "" "")).1.toBool = false := by
    decide +kernel
  rw [hsame, hmade] at hfails
  cases hfails

end App

end BrokerCli
