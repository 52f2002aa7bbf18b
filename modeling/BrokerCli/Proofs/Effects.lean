import BrokerCli.Tool.App
import BrokerCli.Proofs.Extension
import BrokerCli.Proofs.Exchange
import BrokerCli.Proofs.Line

/-!
# What a run does to its session and to the place of the configuration

Behind the checks a run makes its clients, does what the command does, and writes the settings back:

* `Session.taking`, `Connect.client_of_source` -- the host that is taken for the session, and the client
  that is made for it;
* `Session.place_save`, `App.place_flush` -- what a save leaves at the place, and what is written back at
  the end;
* `Action.Shows`, `Action.Forgets` -- the two kinds of commands that the tool has;
* `App.place_dispatch_of_shows`, `App.place_dispatch_of_forgets` -- what a command of either kind leaves
  behind.
-/

namespace BrokerCli

/-! ## 1. The clients -/

/-- The session that has taken a host; another host than the remembered one brings the remembered
    tenant and scope to an end. -/
def Session.taking (s : Session) (value : String) : Session :=
  let host := if value.isEmpty then s.settings.host else value
  if s.settings.host = host then { s with host }
  else { s with host, settings := Connect.withHost s.settings host, updated := true }

/-- A host that is taken changes nothing of what is found at the place. -/
theorem Session.frame_taking (s : Session) (value : String) :
    (s.taking value).servers = s.servers ∧ (s.taking value).extra = s.extra ∧
      (s.taking value).factory = s.factory := by
  unfold taking
  dsimp only
  generalize (if value.isEmpty then s.settings.host else value) = host
  split <;> exact ⟨rfl, rfl, rfl⟩

namespace Connect

open Execution

theorem session_takeHost (value : String) (p : Execution) :
    ((takeHost value).perform p).2.session = p.session.taking value := by
  unfold takeHost Session.taking
  rw [Effect.perform_bind, Effect.perform_session]
  dsimp only
  generalize (if value.isEmpty then p.session.settings.host else value) = host
  rw [Effect.perform_bind, Effect.perform_modifySession, Effect.perform_ite]
  by_cases hh : p.session.settings.host = host
  · rw [if_neg (fun h => h hh), if_pos hh]
    rfl
  · rw [if_pos hh, if_neg hh, Effect.perform_bind, Effect.perform_log, Effect.perform_modifySession]
    dsimp only
    rw [Execution.session_note]

/-- A client that is handed over is made by the session's factory. -/
theorem make_of_client {serverList : Option (List String)} {r : ClientRequest} {p q : Execution}
    {c : Client} (h : (client serverList r).perform p = (.ok c, q)) :
    p.session.factory.make p.session.servers p.session.clientOptions r = .ok c := by
  unfold client at h
  rw [Run.perform_bind, Run.perform_lift, Effect.perform_session] at h
  dsimp only at h
  split at h
  · cases h
  · rename_i hc
    rw [Run.perform_bind, Run.perform_lift] at h
    dsimp only at h
    split at h
    · cases h
    · cases h
      exact hc

variable {i j : Invocation} {p q : Execution} {f : Flag} {value : String} {features : TextFeatures}

/-- **The client that is handed over is made for the host that was taken**, by the session's factory
    and from the flags. -/
theorem client_of_source (hh : i.flags.textFlag? "host" = some (f, value, features))
    (h : (source i).perform p = (.ok j, q)) :
    q.session = p.session.taking value ∧
      (features.initClient = false → j.client = i.client) ∧
      (features.initClient = true → ∃ c, j.client = some c ∧
        q.session.factory.make q.session.servers q.session.clientOptions
          (request i.flags q.session.host features.skipGetToken false) = .ok c) := by
  have htaken := session_takeHost value p
  unfold source at h
  rw [hh] at h
  dsimp only at h
  rw [Run.perform_bind, Run.perform_lift] at h
  generalize ((takeHost value).perform p).2 = t at htaken h
  dsimp only at h
  cases hi : features.initClient with
  | false =>
    rw [hi] at h
    cases h
    exact ⟨htaken, fun _ => rfl, fun h => absurd h Bool.false_ne_true⟩
  | true =>
    rw [hi, if_pos rfl, Run.perform_bind, Run.perform_lift, Effect.perform_session] at h
    dsimp only at h
    rw [Run.perform_bind, Run.perform_adapt] at h
    generalize hr : request i.flags t.session.host features.skipGetToken false = r at h
    have hquiet := (quiet_client i.serverList r t).session
    rcases hc : (client i.serverList r).perform t with ⟨_ | c, u⟩
    · rw [hc] at h
      cases h
    · have hmake := make_of_client hc
      rw [hc] at h hquiet
      cases h
      dsimp only at hquiet
      rw [hquiet, hr]
      exact ⟨htaken, fun h => absurd h.symm Bool.false_ne_true, fun _ => ⟨c, rfl, hmake⟩⟩

/-- Without a second host there is no second client. -/
theorem source_of_run (hd : i.flags.textIfSet "host2" = none) (h : (run i).perform p = (.ok j, q)) :
    (source i).perform p = (.ok j, q) ∧ j.destination = i.destination := by
  unfold run at h
  rw [Run.perform_bind] at h
  rcases hs : (source i).perform p with ⟨_ | k, r⟩
  · rw [hs] at h
    cases h
  · have hk := frame_of_source hs
    rw [hs] at h
    dsimp only at h
    rw [hk, destination, hd] at h
    cases h
    exact ⟨by rw [hk], rfl⟩

/-- Without a flag for a host there is no client at all, and nothing happens. -/
theorem perform_source_of_no_host (hh : i.flags.textFlag? "host" = none) (p : Execution) :
    (source i).perform p = (.ok i, p) := by
  unfold source
  rw [hh]
  rfl

end Connect

/-- The factory that resolves requests makes no client but those that requests are resolved to. -/
theorem Client.resolve_of_make {servers : ServerTable} {options : ClientOptions} {r : ClientRequest}
    {c : Client} (h : ClientFactory.registry.make servers options r = .ok c) :
    resolve servers options r = .ok c := by
  have h : (resolve servers options r).mapError ClientError.fault = .ok c := h
  cases hr : resolve servers options r with
  | error e =>
    rw [hr] at h
    cases h
  | ok c' =>
    rw [hr] at h
    cases h
    rfl

/-- A command is connected by its clients. -/
theorem CommandLine.run_of_connect {program : String} {globals : FlagList} {d : Descent}
    {p q : Execution} {prepared : Prepared}
    (h : (connect program globals d).perform p = (.ok prepared, q)) :
    (Connect.run { invocation program globals d with serverList := d.command.serverList }).perform p =
      (.ok prepared.invocation, q) := by
  unfold connect at h
  rw [Run.perform_bind] at h
  split at h
  · rename_i hrun
    cases h
    exact hrun
  · cases h

/-! ## 2. Saving -/

variable {p : Execution} {b : Place}

/-- The execution after its configuration was saved at a place, or was to be. -/
def Execution.storing (p : Execution) (b : Place) : Execution :=
  { p with
    files := (b.save p.session.configuration).files
    session := { p.session with store := some (b.save p.session.configuration).store } }

theorem Execution.at_storing (p : Execution) (b : Place) :
    (p.storing b).At (b.save p.session.configuration) := ⟨rfl, rfl⟩

namespace Session

/-- **What a save comes to** that is no batch run's. -/
theorem perform_save (hb : p.At b) (hbatch : p.session.batch = false) :
    save.perform p = match (b.store.save b.files p.session.configuration).outcome with
      | .error e => (.error e, p.storing b)
      | .ok remark => (.ok (), ((Effect.remark remark).perform (p.storing b)).2) := by
  unfold save
  rw [Run.perform_bind, Run.perform_get]
  dsimp only
  rw [Run.perform_ite, if_neg (Bool.eq_false_iff.1 hbatch)]
  simp only [hb.store, hb.files]
  rw [Run.perform_bind, Run.perform_set]
  dsimp only
  cases (b.store.save b.files p.session.configuration).outcome <;> rfl

/-- A save leaves the place as it was, in a batch run, or saves the configuration of the session. -/
theorem place_save (hb : p.At b) :
    let q := (save.perform p).2
    (q.At b ∨ q.At (b.save p.session.configuration)) ∧ q.session.host = p.session.host ∧
      (b.takes p.session.configuration = true → ∃ u, (save.perform p).1 = .ok u) := by
  cases hbatch : p.session.batch with
  | true =>
    have hquiet := Effect.quiet_log .debug "batch mode, config not saved" p
    rw [perform_save_of_batch hbatch]
    exact ⟨.inl (hquiet.settles.stays b hb), hquiet.settles.host, fun _ => ⟨(), rfl⟩⟩
  | false =>
    have hplace := p.at_storing b
    rw [perform_save hb hbatch]
    cases ho : (b.store.save b.files p.session.configuration).outcome with
    | error e =>
      refine ⟨.inr hplace, rfl, fun h => ?_⟩
      rw [Place.takes, ho] at h
      cases h
    | ok remark =>
      have hquiet := (Effect.quiet_remark remark (p.storing b)).settles
      exact ⟨.inr (hquiet.stays _ hplace), hquiet.host, fun _ => ⟨(), rfl⟩⟩

/-- Settings that are not remembered are not written back. -/
theorem place_saveUpdated (hb : p.At b) :
    let q := (saveUpdated.perform p).2
    (q.At b ∨ (p.session.settings.usePrevious = true ∧ q.At (b.save p.session.configuration))) ∧
      q.session.host = p.session.host := by
  unfold saveUpdated
  rw [Run.perform_bind, Run.perform_lift, Effect.perform_session]
  dsimp only
  rw [Run.perform_ite]
  split
  · rename_i hdue
    obtain ⟨hplace, hhost, _⟩ := place_save hb
    have hon := (Bool.and_eq_true_iff.1 hdue).2
    rw [Run.perform_bind]
    rcases hs : save.perform p with ⟨_ | u, q⟩
    all_goals
      rw [hs] at hplace hhost
      dsimp only at hplace hhost
    · exact ⟨hplace.imp id fun h => ⟨hon, h⟩, hhost⟩
    · exact ⟨hplace.imp (fun h => ⟨h.store, h.files⟩) fun h => ⟨hon, h.store, h.files⟩, hhost⟩
  · exact ⟨.inl hb, rfl⟩

end Session

namespace App

/-- What is written back at the end of a run. -/
theorem place_flush (hb : p.At b) :
    let q := (flush.perform p).2
    (q.At b ∨ (p.session.settings.usePrevious = true ∧ q.At (b.save p.session.configuration))) ∧
      q.session.host = p.session.host := by
  obtain ⟨hplace, hhost⟩ := Session.place_saveUpdated hb
  unfold flush
  rw [Effect.perform_bind, Run.perform_run]
  generalize Session.saveUpdated.perform p = saved at hplace hhost
  obtain ⟨outcome, q⟩ := saved
  dsimp only at hplace hhost ⊢
  cases outcome with
  | ok u => exact ⟨hplace, hhost⟩
  | error e =>
    have hquiet : Effect.Respects Execution.Quiet (do
        Effect.log .warn ("previous args not saved: " ++ e.fault.tagged)
        Effect.complain (Report.tagged ⟨⟨"Run", 2⟩, e.fault.message⟩ ++ "\n")) :=
      .bind (Effect.quiet_log _ _) fun _ => Effect.quiet_complain _
    have hstays := hquiet.stays q
    exact ⟨hplace.imp (hstays b) fun h => ⟨h.1, hstays _ h.2⟩,
      ((hquiet q).settles.host).trans hhost⟩

/-- Settings that did not change, or are not remembered, are not written back. -/
theorem perform_flush_of_not_due (h : (p.session.updated && p.session.settings.usePrevious) = false) :
    flush.perform p = ((), p) := by
  have hs : Session.saveUpdated.perform p = (.ok (), p) := by
    unfold Session.saveUpdated
    rw [Run.perform_bind, Run.perform_lift, Effect.perform_session]
    simp only [h, Bool.false_eq_true, if_false]
    rfl
  unfold flush
  rw [Effect.perform_bind, Run.perform_run, hs]
  rfl

theorem perform_flush_of_not_updated (h : p.session.updated = false) : flush.perform p = ((), p) :=
  perform_flush_of_not_due (by rw [h, Bool.false_and])

/-- A command comes to what its action comes to. -/
theorem perform_act {prepared : Prepared} {a : Action} (ha : prepared.command.action = some a)
    (p : Execution) : (act prepared).perform p =
      (((a prepared.invocation).perform p).1.mapError .action, ((a prepared.invocation).perform p).2) := by
  unfold act
  rw [ha]
  rfl

/-- A command moves along a relation if its action does. -/
theorem respects_act {R : Execution → Execution → Prop} [IsPreorder Execution R] {prepared : Prepared}
    (h : ∀ a, prepared.command.action = some a → (a prepared.invocation).Respects R) :
    (act prepared).Respects R := by
  unfold act
  cases ha : prepared.command.action with
  | none => exact .throw _
  | some a => exact .adapt (h a ha)

/-- What a command comes to is what it does, whatever comes of writing the settings back. -/
theorem result_dispatch {prepared : Prepared} (hg : prepared.command.isGroup = false)
    (p : Execution) : ((dispatch prepared).perform p).1 = ((act prepared).perform p).1 := by
  unfold dispatch
  rw [hg]
  simp only [Bool.false_eq_true, if_false]
  rw [Run.perform_bind, Run.perform_attempt]
  dsimp only
  rw [Run.perform_bind, Run.perform_lift]
  dsimp only
  cases ((act prepared).perform p).1 <;> rfl

/-- At the end of a command the settings are written back, whatever comes of it. -/
theorem session_dispatch {prepared : Prepared} (hg : prepared.command.isGroup = false)
    (p : Execution) :
    ((dispatch prepared).perform p).2 = (flush.perform ((act prepared).perform p).2).2 := by
  unfold dispatch
  rw [hg]
  simp only [Bool.false_eq_true, if_false]
  rw [Run.perform_bind, Run.perform_attempt]
  dsimp only
  rw [Run.perform_bind, Run.perform_lift]
  dsimp only
  cases ((act prepared).perform p).1 <;> rfl

end App

/-! ## 3. What commands do -/

/-- An action that leaves session and files alone. -/
def Action.Shows (a : Action) : Prop := ∀ i, (a i).Respects Execution.Quiet

/-- An action that leaves the place alone, or saves settings of which some are forgotten. Afterwards
    there is nothing left to be written back, or nothing has happened at all. -/
def Action.Forgets (a : Action) : Prop := ∀ i p b, p.At b →
  (∀ s, b.takes ⟨s, p.session.servers, p.session.extra⟩ = true) →
  let q := ((a i).perform p).2
  q.session.host = p.session.host ∧
    (p.Quiet q ∨ (q.session.updated = false ∧ (q.At b ∨ ∃ s, p.session.settings.Forgets s ∧
      q.At (b.save ⟨s, p.session.servers, p.session.extra⟩))))

namespace Tool

theorem Resolve.shows_describe : Action.Shows Resolve.describe := by
  intro i
  unfold describe
  split
  · exact .lift (Effect.quiet_print _)
  · exact .throw _

theorem Servers.shows_list : Action.Shows Servers.list :=
  fun _ => .bind (.lift .session) fun _ => .lift (Effect.quiet_print _)

theorem Servers.shows_get : Action.Shows Servers.get := by
  intro i
  unfold get
  refine .bind (.lift .session) fun _ => ?_
  split
  · exact .throw _
  · exact .lift (Effect.quiet_print _)

namespace Remembered

theorem shows_list : Action.Shows list :=
  fun _ => .bind (.lift .session) fun _ => .lift (Effect.quiet_print _)

/-- Settings that are changed and written at once. -/
theorem place_saveNow {f : Settings → Settings} (activity : String) (number : Nat) (hb : p.At b)
    (hf : p.session.settings.Forgets (f p.session.settings))
    (ht : ∀ s, b.takes ⟨s, p.session.servers, p.session.extra⟩ = true) :
    let q := (Run.perform (do
      Effect.modifySettings f
      saveNow activity number : Run Fault Unit) p).2
    q.session.host = p.session.host ∧ q.session.updated = false ∧
      (q.At b ∨ ∃ s, p.session.settings.Forgets s ∧
        q.At (b.save ⟨s, p.session.servers, p.session.extra⟩)) := by
  have hb' : Execution.At { p with
      session := { p.session with settings := f p.session.settings } } b := ⟨hb.store, hb.files⟩
  obtain ⟨hplace, hhost, hok⟩ := Session.place_save hb'
  obtain ⟨u, hok⟩ := hok (ht _)
  rw [Run.perform_bind, Run.perform_lift, Effect.modifySettings, Effect.perform_modifySession]
  dsimp only
  unfold saveNow
  rw [Run.perform_bind, Run.perform_adapt]
  generalize Session.save.perform _ = saved at hplace hhost hok
  obtain ⟨outcome, q⟩ := saved
  dsimp only at hplace hhost hok ⊢
  subst hok
  refine ⟨hhost, rfl, hplace.imp (fun h => ⟨h.store, h.files⟩) fun h => ⟨_, hf, ?_⟩⟩
  exact ⟨h.store, h.files⟩

theorem forgets_delete : Action.Forgets delete := by
  intro i p b hb ht
  unfold delete
  rw [Run.perform_bind, Run.perform_lift, Effect.perform_session]
  dsimp only
  split
  · exact ⟨rfl, .inl (refl_of Execution.Quiet p)⟩
  · rename_i settings hs
    have hf : p.session.settings.Forgets settings := forgets_of_forgetAll hs
    obtain ⟨hhost, hsaved⟩ := place_saveNow (f := fun _ => settings) "settingsDelete" 3 hb hf ht
    exact ⟨hhost, .inr hsaved⟩

theorem forgets_clear : Action.Forgets clear := by
  intro i p b hb ht
  obtain ⟨hhost, hsaved⟩ := place_saveNow "settingsClear" 1 hb (Settings.forgets_cleared _ _) ht
  exact ⟨hhost, .inr hsaved⟩

theorem forgets_setMode : Action.Forgets setMode := by
  intro i p b hb ht
  obtain ⟨hhost, hsaved⟩ := place_saveNow
    (f := fun s => Settings.cleared { s with usePrevious := i.flags.truth "on" })
    "settingsPreviousArgs" 2 hb (Settings.forgets_cleared _ _) ht
  exact ⟨hhost, .inr hsaved⟩

end Remembered

end Tool

namespace App

variable {prepared : Prepared} {a : Action}

/-- A command that only shows something leaves the settings to be written back as they are. -/
theorem place_dispatch_of_shows (hg : prepared.command.isGroup = false)
    (ha : prepared.command.action = some a) (hs : a.Shows) (hb : p.At b) :
    let q := ((dispatch prepared).perform p).2
    q.session.host = p.session.host ∧
      (q.At b ∨ (p.session.settings.usePrevious = true ∧ q.At (b.save p.session.configuration))) := by
  have hquiet : p.Quiet ((act prepared).perform p).2 := by
    rw [perform_act ha]
    exact hs _ p
  obtain ⟨hplace, hhost⟩ := place_flush (hquiet.settles.stays b hb)
  rw [session_dispatch hg]
  rw [hquiet.session] at hplace hhost
  exact ⟨hhost, hplace⟩

/-- A command that forgets leaves behind what it saved, or else what is written back. -/
theorem place_dispatch_of_forgets (hg : prepared.command.isGroup = false)
    (ha : prepared.command.action = some a) (hf : a.Forgets) (hb : p.At b)
    (ht : ∀ s, b.takes ⟨s, p.session.servers, p.session.extra⟩ = true) :
    let q := ((dispatch prepared).perform p).2
    q.session.host = p.session.host ∧ (q.At b ∨ ∃ s, p.session.settings.Forgets s ∧
      q.At (b.save ⟨s, p.session.servers, p.session.extra⟩)) := by
  rw [session_dispatch hg, perform_act ha]
  obtain ⟨hhost, hquiet | ⟨hdone, hplace⟩⟩ := hf prepared.invocation p b hb ht
  · obtain ⟨hplace, hhost⟩ := place_flush (hquiet.settles.stays b hb)
    rw [hquiet.session] at hplace hhost
    exact ⟨hhost, hplace.imp id fun h => ⟨_, .refl _, h.2⟩⟩
  · rw [perform_flush_of_not_updated hdone]
    exact ⟨hhost, hplace⟩

/-- The help page of a group leaves everything as it is. -/
theorem quiet_dispatch_of_group (hg : prepared.command.isGroup = true) :
    (dispatch prepared).Respects Execution.Quiet := by
  unfold dispatch
  rw [hg]
  exact .lift (CommandLine.quiet_printCommandHelp _ _ _)

end App

end BrokerCli
