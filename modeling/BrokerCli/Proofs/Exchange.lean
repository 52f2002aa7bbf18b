import BrokerCli.Proofs.Frame

/-!
# What an action does not look at

Two executions may differ in where the configuration is kept, in what the files hold, or in how clients
are made. An action that looks at none of that does the same in both, and the difference stays what it
was:

* `Exchange` -- another store, other files, another factory. `Exchange.of` puts them into an execution;
* `Effect.Ignores` -- an action put together of steps that neither see nor touch what is exchanged; it may
  be granted to save, too. In a batch run a save does nothing (`Session.perform_save_of_batch`);
* `Effect.Ignores.perform_of` -- such an action comes to the same, whatever is exchanged. It is what the
  two-run statements about the tool rest on;
* `CommandLine.ignores_readBehindGlobals` -- behind the setting up of the session nothing looks at the
  place of the configuration any more.
-/

namespace BrokerCli

/-! ## 1. Exchanges -/

/-- Another store, other files and another factory; each one may also stay as it is. -/
structure Exchange where
  store : Option Store → Option Store := id
  files : FileSystem → FileSystem := id
  factory : ClientFactory → ClientFactory := id

namespace Exchange

/-- The execution with what is exchanged. -/
def of (x : Exchange) (p : Execution) : Execution :=
  { p with
    files := x.files p.files
    session := { p.session with
      store := x.store p.session.store
      factory := x.factory p.session.factory } }

/-- The configuration is kept at a place. -/
def place (b : Place) : Exchange := { store := fun _ => some b.store, files := fun _ => b.files }

/-- Clients are made by a factory. -/
def maker (f : ClientFactory) : Exchange := { factory := fun _ => f }

@[simp] theorem settings_of (x : Exchange) (p : Execution) :
    (x.of p).session.settings = p.session.settings := rfl

theorem note_of (x : Exchange) (p : Execution) (severity : Severity) (message : String) :
    (x.of p).note severity message = x.of (p.note severity message) := by
  have hthreshold : (x.of p).threshold = p.threshold := rfl
  unfold Execution.note
  rw [hthreshold]
  split <;> rfl

end Exchange

/-! ## 2. Actions that ignore an exchange -/

/-- An action put together of steps that neither see nor touch what is exchanged, and, if `saves`, of
    saves. One that saves leaves the batch mode alone. -/
inductive Effect.Ignores (x : Exchange) (saves : Bool) : {α : Type} → Effect α → Prop where
  | pure {α : Type} (a : α) : Ignores x saves (Pure.pure a)
  | bind {α β : Type} {e : Effect α} {f : α → Effect β} (he : Ignores x saves e)
      (hf : ∀ a, Ignores x saves (f a)) : Ignores x saves (e >>= f)
  | look {α : Type} {f : Execution → Effect α} (hf : ∀ p, f (x.of p) = f p)
      (h : ∀ p, Ignores x saves (f p)) : Ignores x saves (get >>= f)
  | change {f : Execution → Execution} (hf : ∀ p, f (x.of p) = x.of (f p))
      (hb : saves = true → ∀ p, (f p).session.batch = p.session.batch) :
      Ignores x saves (modify f)
  | save (h : saves = true) : Ignores x saves (ExceptT.run Session.save)

/-- The same of an action that can fail. -/
def Run.Ignores (x : Exchange) (saves : Bool) {ε α : Type} (r : Run ε α) : Prop :=
  Effect.Ignores x saves (ExceptT.run r)

variable {x : Exchange} {saves : Bool} {ε ε' α β : Type}

namespace Session

/-- In a batch run a save does nothing. -/
theorem perform_save_of_batch {p : Execution} (h : p.session.batch = true) :
    save.perform p = (.ok (), p.note .debug "batch mode, config not saved") := by
  unfold save
  rw [Run.perform_bind, Run.perform_get]
  dsimp only
  rw [Run.perform_ite, if_pos h]
  rfl

theorem batch_save (p : Execution) : (save.perform p).2.session.batch = p.session.batch := by
  unfold save
  rw [Run.perform_bind, Run.perform_get]
  dsimp only
  rw [Run.perform_ite]
  split
  · exact congrArg Session.batch (p.session_note _ _)
  · split
    · rfl
    · rename_i store _
      rw [Run.perform_bind, Run.perform_set]
      dsimp only
      generalize hq : ({ p with
        files := (store.save p.files p.session.configuration).files
        session := { p.session with
          store := some (store.save p.files p.session.configuration).store } } : Execution) = q
      have hbatch : q.session.batch = p.session.batch := by rw [← hq]
      cases (store.save p.files p.session.configuration).outcome with
      | error e => exact hbatch
      | ok remark =>
        exact (congrArg Session.batch (Effect.quiet_remark remark q).session).trans hbatch

end Session

namespace Effect.Ignores

variable {e : Effect α}

/-- An action that ignores an exchange, and may save, leaves the batch mode as it was. -/
theorem batch_perform (h : e.Ignores x true) (p : Execution) :
    (e.perform p).2.session.batch = p.session.batch := by
  induction h generalizing p with
  | pure a => rfl
  | bind he hf ihe ihf => exact (ihf _ _).trans (ihe p)
  | look hf h ih => exact ih p p
  | change hf hb => exact hb rfl p
  | save => exact Session.batch_save p

/-- **An action comes to the same, whatever is exchanged that it ignores**, and what is exchanged stays so;
    if it saves, then in a batch run. -/
theorem perform_of (h : e.Ignores x saves) {p : Execution}
    (hb : saves = true → p.session.batch = true) :
    e.perform (x.of p) = ((e.perform p).1, x.of (e.perform p).2) := by
  induction h generalizing p with
  | pure a => rfl
  | @bind α β e f he hf ihe ihf =>
    have hbatch : saves = true → (e.perform p).2.session.batch = true := by
      rintro rfl
      exact (he.batch_perform p).trans (hb rfl)
    rw [perform_bind, perform_bind, ihe hb]
    exact ihf (e.perform p).1 hbatch
  | @look α f hf h ih =>
    rw [perform_bind, perform_bind, perform_get, perform_get]
    dsimp only
    rw [hf]
    exact ih p hb
  | change hf hbatch => exact Prod.ext rfl (hf p)
  | save hs =>
    have hon := hb hs
    have hon' : (x.of p).session.batch = true := hon
    rw [Run.perform_run, Run.perform_run, Session.perform_save_of_batch hon,
      Session.perform_save_of_batch hon', Exchange.note_of]

theorem map (f : α → β) (h : e.Ignores x saves) : (f <$> e).Ignores x saves :=
  .bind (f := fun a => Pure.pure (f a)) h fun a => .pure (f a)

theorem session {f : Session → Effect α} (hf : ∀ p : Execution, f (x.of p).session = f p.session)
    (h : ∀ s, (f s).Ignores x saves) : (Effect.session >>= f).Ignores x saves :=
  .look (f := fun p => f p.session) hf fun p => h p.session

end Effect.Ignores

namespace Run.Ignores

theorem pure (a : α) : Run.Ignores x saves (Pure.pure a : Run ε α) := Effect.Ignores.pure _

theorem throw (e : ε) : Run.Ignores x saves (MonadExcept.throw e : Run ε α) := Effect.Ignores.pure _

theorem lift {e : Effect α} (h : e.Ignores x saves) : Run.Ignores x saves (liftM e : Run ε α) :=
  h.map Except.ok

theorem adapt {f : ε → ε'} {r : Run ε α} (h : r.Ignores x saves) :
    Run.Ignores x saves (ExceptT.adapt f r : Run ε' α) :=
  Effect.Ignores.map _ h

theorem attempt {r : Run ε α} (h : r.Ignores x saves) :
    Run.Ignores x saves (Run.attempt r : Run ε' (Except ε α)) :=
  Effect.Ignores.map _ h

theorem bind {r : Run ε α} {f : α → Run ε β} (h : r.Ignores x saves)
    (hf : ∀ a, (f a).Ignores x saves) : (r >>= f).Ignores x saves := by
  have hnext (a : Except ε α) : Effect.Ignores x saves (ExceptT.bindCont f a) := by
    cases a with
    | ok a => exact hf a
    | error e => exact .pure _
  exact Effect.Ignores.bind h hnext

theorem look {f : Execution → Run ε α} (hf : ∀ p, f (x.of p) = f p)
    (h : ∀ p, (f p).Ignores x saves) : (get >>= f : Run ε α).Ignores x saves :=
  Effect.Ignores.look (f := f) hf h

theorem session {f : Session → Run ε α} (hf : ∀ p : Execution, f (x.of p).session = f p.session)
    (h : ∀ s, (f s).Ignores x saves) : (liftM Effect.session >>= f : Run ε α).Ignores x saves :=
  Effect.Ignores.session (f := f) hf h

theorem perform_of {r : Run ε α} (h : r.Ignores x saves) {p : Execution}
    (hb : saves = true → p.session.batch = true) :
    r.perform (x.of p) = ((r.perform p).1, x.of (r.perform p).2) :=
  Effect.Ignores.perform_of h hb

theorem batch_perform {r : Run ε α} (h : r.Ignores x true) (p : Execution) :
    (r.perform p).2.session.batch = p.session.batch :=
  Effect.Ignores.batch_perform h p

end Run.Ignores

/-! ## 3. What is shown and changed -/

namespace Effect

theorem ignores_print (text : String) : (print text).Ignores x saves :=
  .change (fun _ => rfl) fun _ _ => rfl

theorem ignores_complain (text : String) : (complain text).Ignores x saves :=
  .change (fun _ => rfl) fun _ _ => rfl

theorem ignores_log (severity : Severity) (message : String) :
    (log severity message).Ignores x saves :=
  .change (fun p => x.note_of p severity message) fun _ p =>
    congrArg Session.batch (p.session_note severity message)

theorem ignores_remark (text : Option String) : (remark text).Ignores x saves := by
  cases text with
  | none => exact .pure ()
  | some text => exact ignores_log .debug text

/-- A change of the session that does not concern what is exchanged. -/
theorem ignores_modifySession {f : Session → Session}
    (hf : ∀ s store factory, f { s with store, factory } = { f s with store, factory })
    (hb : ∀ s, (f s).batch = s.batch) : (modifySession f).Ignores x saves := by
  refine .change (fun p => ?_) fun _ p => hb p.session
  have hkept : f p.session =
      { f p.session with store := p.session.store, factory := p.session.factory } :=
    hf p.session p.session.store p.session.factory
  have hstore : (f p.session).store = p.session.store := by rw [hkept]
  have hfactory : (f p.session).factory = p.session.factory := by rw [hkept]
  have h : f (x.of p).session = { f p.session with
      store := x.store p.session.store, factory := x.factory p.session.factory } :=
    hf p.session (x.store p.session.store) (x.factory p.session.factory)
  rw [h, Exchange.of, Exchange.of, hstore, hfactory]

end Effect

namespace Setup

/-- **Tuning a session ignores where its configuration was read.** -/
theorem tuning_ignores : Tuning (Run.Ignores x saves) where
  pure := .pure ()
  throw e := .throw e
  andThen h h' := .bind h fun _ => h'
  look hf h := .session (fun _ => hf _ _ rfl rfl) h
  log severity message := .lift (Effect.ignores_log severity message)
  stderr _ := .lift (Effect.ignores_modifySession (fun _ _ _ => rfl) fun _ => rfl)
  syslog _ := .lift (Effect.ignores_modifySession (fun _ _ _ => rfl) fun _ => rfl)
  stderrLevel _ := .lift (.change (fun _ => rfl) fun _ _ => rfl)
  syslogLevel _ := .lift (Effect.ignores_modifySession (fun _ _ _ => rfl) fun _ => rfl)
  limits _ := .lift (Effect.ignores_modifySession (fun _ _ _ => rfl) fun _ => rfl)
  cache fs := by
    unfold withCache
    cases fs.textIfSet "cache" with
    | none => exact .lift (Effect.ignores_modifySession (fun _ _ _ => rfl) fun _ => rfl)
    | some file => exact .lift (Effect.ignores_modifySession (fun _ _ _ => rfl) fun _ => rfl)

/-- What is left to do when the configuration is read ignores where it was read. -/
theorem ignores_rest (version : String) (fs : FlagList) : Run.Ignores x saves (do
    setStderrLevel fs
    setSyslogLevel fs
    Effect.modifySession (withLimits fs)
    Effect.log .info version
    Effect.modifySession (withCache fs) : Run SetupError Unit) :=
  tuning_ignores.rest version fs

end Setup

/-! ## 4. Behind the setting up of the session -/

namespace CommandLine

theorem ignores_printAppHelp (app : App) (program : String) (globals : FlagList) :
    (printAppHelp app program globals).Ignores x saves :=
  .session (fun _ => rfl) fun _ => Effect.ignores_print _

theorem ignores_printCommandHelp (command : Command) (category : String) (i : Invocation) :
    (printCommandHelp command category i).Ignores x saves :=
  .session (fun _ => rfl) fun _ => Effect.ignores_print _

theorem ignores_remember (fs : FlagList) : (remember fs).Ignores x saves := by
  unfold remember
  refine .session (fun _ => rfl) fun s => ?_
  have hrest : ((do
      Effect.modifySession fun s' => { s' with
        settings := (Memory.reconcile fs s.settings s.servers).settings
        updated := s'.updated || (Memory.reconcile fs s.settings s.servers).refreshed }
      return (Memory.reconcile fs s.settings s.servers).flags) : Effect FlagList).Ignores x saves :=
    .bind (Effect.ignores_modifySession (fun _ _ _ => rfl) fun _ => rfl) fun _ => .pure _
  dsimp only
  split
  · exact .bind (Effect.ignores_log _ _) fun _ => hrest
  · exact hrest

/-- Reading ignores where the configuration is kept. -/
theorem reading_ignores : Reading (Run.Ignores x saves) where
  pure := .pure
  throw := .throw
  adapt := .adapt
  bind := .bind
  print text := .lift (Effect.ignores_print text)
  complain text := .lift (Effect.ignores_complain text)
  log severity message := .lift (Effect.ignores_log severity message)
  appHelp app program globals := .lift (ignores_printAppHelp app program globals)
  commandHelp command category i := .lift (ignores_printCommandHelp command category i)
  remember fs := .lift (ignores_remember fs)

end CommandLine

namespace Connect

theorem ignores_takeHost (value : String) : (takeHost value).Ignores x saves := by
  unfold takeHost
  refine .session (fun _ => rfl) fun s => ?_
  dsimp only
  generalize (if value.isEmpty then s.settings.host else value) = host
  refine .bind (Effect.ignores_modifySession (fun _ _ _ => rfl) fun _ => rfl) fun _ => ?_
  split
  · exact .bind (Effect.ignores_log _ _) fun _ =>
      Effect.ignores_modifySession (fun _ _ _ => rfl) fun _ => rfl
  · exact .pure _

section

variable (hx : x.factory = id)
include hx

/-- Of what can be exchanged a client depends on the factory only. -/
theorem ignores_client (serverList : Option (List String)) (r : ClientRequest) :
    (client serverList r).Ignores x saves := by
  unfold client
  refine .session (fun p => ?_) fun s => ?_
  · have hfactory : (x.of p).session.factory = p.session.factory := by
      show x.factory p.session.factory = _
      rw [hx]
      rfl
    have hservers : (x.of p).session.servers = p.session.servers := rfl
    have hoptions : (x.of p).session.clientOptions = p.session.clientOptions := rfl
    rw [hfactory, hservers, hoptions]
  · split
    · exact .throw _
    · refine .bind (.lift (Effect.ignores_log _ _)) fun _ => ?_
      split
      · exact .throw _
      · exact .pure _

theorem ignores_source (i : Invocation) : (source i).Ignores x saves := by
  unfold source
  split
  · exact .pure _
  · refine .bind (.lift (ignores_takeHost _)) fun _ => ?_
    split
    · exact .session (fun _ => rfl) fun _ =>
        .bind (.adapt (ignores_client hx _ _)) fun _ => .pure _
    · exact .pure _

theorem ignores_destination (i : Invocation) : (destination i).Ignores x saves := by
  unfold destination
  split
  · exact .pure _
  · exact .bind (.lift (Effect.ignores_modifySession (fun _ _ _ => rfl) fun _ => rfl)) fun _ =>
      .bind (.adapt (ignores_client hx _ _)) fun _ => .pure _

theorem ignores_run (i : Invocation) : (run i).Ignores x saves :=
  .bind (ignores_source hx i) (ignores_destination hx)

end

end Connect

namespace CommandLine

variable (hx : x.factory = id)
include hx

/-- **Behind the setting up of the session, reading ignores where the configuration is kept.** -/
theorem ignores_readBehindGlobals (app : App) (program : String) (globals : FlagList) (c : Cursor) :
    (readBehindGlobals app program globals c).Ignores x saves := by
  have hconnect (program : String) (globals : FlagList) (d : Descent) :
      (connect program globals d).Ignores x saves :=
    .bind (Connect.ignores_run hx _) fun _ => .pure _
  exact reading_ignores.readBehindGlobals hconnect app program globals c

end CommandLine

end BrokerCli
