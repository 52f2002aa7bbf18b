import BrokerCli.Proofs.Batch

/-!
# The course of a run

Once its session is set up, a run does two kinds of things to what it remembers: it changes the session a
little, and it saves the configuration of the session. What both of them keep, the whole run keeps:

* `Settings.Eases`, `Session.Eases` -- the little that changes: a level of the log may be forgotten, and
  host, tenant, scope and token may be others; servers, unknown parts and store are the same;
* `Execution.Course` -- a relation along which both kinds of steps move;
* `CommandLine.respects_check`, `Connect.respects_run`, `App.respects_dispatch` -- along such a relation
  move the stages of a run, and so do the commands of the tool (`Tool.respects_of_bundled`);
* `App.course_of_read` -- so does all of a run that comes to a command, from the moment at which its
  session is set up.
-/

namespace BrokerCli

/-! ## 1. Small changes of a session -/

/-- Each level of the log is what it was, or forgotten. -/
structure Settings.Eases (s t : Settings) : Prop where
  stderr : t.stderr = s.stderr ∨ t.stderr = ""
  syslog : t.syslog = s.syslog ∨ t.syslog = ""

/-- The settings are eased, and what belongs to servers and store is as it was. -/
structure Session.Eases (s t : Session) : Prop where
  settings : s.settings.Eases t.settings
  servers : t.servers = s.servers
  extra : t.extra = s.extra
  store : t.store = s.store

namespace Settings

variable {s t u : Settings}

theorem eases_of_eq (hstderr : t.stderr = s.stderr) (hsyslog : t.syslog = s.syslog) : s.Eases t :=
  ⟨.inl hstderr, .inl hsyslog⟩

theorem Eases.refl (s : Settings) : s.Eases s := eases_of_eq rfl rfl

theorem Eases.trans (h : s.Eases t) (h' : t.Eases u) : s.Eases u := by
  obtain ⟨hstderr, hsyslog⟩ := h
  obtain ⟨hstderr', hsyslog'⟩ := h'
  constructor
  · rcases hstderr' with hsame | hempty
    · rw [hsame]
      exact hstderr
    · exact .inr hempty
  · rcases hsyslog' with hsame | hempty
    · rw [hsame]
      exact hsyslog
    · exact .inr hempty

theorem eases_cleared (s : Settings) : s.Eases s.cleared := ⟨.inr rfl, .inr rfl⟩

theorem eases_forget (s : Settings) (i : Item) : s.Eases (s.forget i) := by
  have htidied (t : Settings) : t.Eases t.tidied := by
    unfold tidied
    split
    · exact eases_of_eq rfl rfl
    · exact .refl t
  have hwithout : s.Eases (s.without i) := by
    cases i with
    | stderr => exact ⟨.inr rfl, .inl rfl⟩
    | syslog => exact ⟨.inl rfl, .inr rfl⟩
    | _ => exact eases_of_eq rfl rfl
  exact hwithout.trans (htidied _)

theorem eases_of_forgetAll {names : List String} (h : Tool.Remembered.forgetAll s names = .ok t) :
    s.Eases t := by
  induction names generalizing s with
  | nil =>
    cases h
    exact .refl _
  | cons name names ih =>
    rw [Tool.Remembered.forgetAll] at h
    split at h
    · rename_i s' hs
      obtain ⟨i, _, rfl⟩ := Option.map_eq_some_iff.1 hs
      exact (eases_forget s i).trans (ih h)
    · cases h

/-- The memory of hosts has nothing to do with the levels. -/
theorem eases_reconcile (fs : FlagList) (s : Settings) (servers : ServerTable) :
    s.Eases (Memory.reconcile fs s servers).settings := by
  unfold Memory.reconcile Memory.reconcileWith
  split
  · exact .refl s
  · split
    · dsimp only
      split <;> exact eases_of_eq rfl rfl
    · split
      · exact eases_of_eq rfl rfl
      · exact .refl s

end Settings

namespace Session

theorem Eases.refl (s : Session) : s.Eases s := ⟨.refl _, rfl, rfl, rfl⟩

theorem eases_taking (s : Session) (value : String) : s.Eases (s.taking value) := by
  unfold taking
  dsimp only
  generalize (if value.isEmpty then s.settings.host else value) = host
  split
  · exact ⟨.refl _, rfl, rfl, rfl⟩
  · exact ⟨Settings.eases_of_eq rfl rfl, rfl, rfl, rfl⟩

/-- The configuration of a session that is saved stays what it was. -/
theorem configuration_save (p : Execution) :
    (save.perform p).2.session.configuration = p.session.configuration := by
  unfold save
  rw [Run.perform_bind, Run.perform_get]
  dsimp only
  rw [Run.perform_ite]
  split
  · exact congrArg configuration (p.session_note _ _)
  · split
    · rfl
    · rename_i store _
      rw [Run.perform_bind, Run.perform_set]
      dsimp only
      cases (store.save p.files p.session.configuration).outcome with
      | error e => rfl
      | ok remark =>
        rw [Run.perform_lift]
        exact (congrArg configuration (Effect.quiet_remark remark _).session).trans rfl

end Session

/-! ## 2. Relations along which a run moves -/

/-- Small changes of the session move along the relation, whatever is shown with them, and so do saves. -/
structure Execution.Course (R : Execution → Execution → Prop) : Prop where
  change : ∀ p q : Execution, p.session.Eases q.session → q.files = p.files → R p q
  save : Session.save.Respects R

section

variable {R : Execution → Execution → Prop} {ε α : Type}

namespace Execution.Course

/-- What changes neither session nor files moves along the relation. -/
theorem quiet (h : Course R) {p q : Execution} (hq : p.Quiet q) : R p q := by
  refine h.change p q ?_ hq.files
  rw [hq.session]
  exact .refl _

theorem modifySession (h : Course R) {f : Session → Session} (hf : ∀ s : Session, s.Eases (f s)) :
    (Effect.modifySession f).Respects R :=
  fun p => h.change _ _ (hf p.session) rfl

theorem modifySettings (h : Course R) {f : Settings → Settings} (hf : ∀ s : Settings, s.Eases (f s)) :
    (Effect.modifySettings f).Respects R :=
  h.modifySession fun s => ⟨hf s.settings, rfl, rfl, rfl⟩

end Execution.Course

theorem CommandLine.respects_check (h : Execution.Course R) (d : Descent) :
    (check d).Respects R := by
  intro p
  have hspares : p.Spares ((check d).perform p).2 := Run.Ignores.spares (fun _ _ => reading_ignores.check d) p
  refine h.change _ _ ?_ hspares.files
  rw [(perform_check p d).2]
  exact ⟨Settings.eases_reconcile _ _ _, rfl, rfl, rfl⟩

namespace Connect

theorem respects_takeHost (h : Execution.Course R) (value : String) :
    (takeHost value).Respects R := by
  intro p
  have hspares : p.Spares ((takeHost value).perform p).2 :=
    Run.Ignores.spares (r := (liftM (takeHost value) : Run Empty Unit))
      (fun _ _ => .lift (ignores_takeHost value)) p
  refine h.change _ _ ?_ hspares.files
  rw [session_takeHost]
  exact p.session.eases_taking value

end Connect

variable [IsPreorder Execution R]

theorem Connect.respects_run (h : Execution.Course R) (i : Invocation) : (run i).Respects R :=
  respects_run_of (respects_takeHost h) (fun _ _ p => h.quiet (quiet_client _ _ p))
    (fun _ => h.modifySession fun _ => ⟨.refl _, rfl, rfl, rfl⟩) i

/-! ## 3. The commands of the tool -/

namespace Tool

namespace Remembered

theorem respects_saveNow (h : Execution.Course R) (activity : String) (number : Nat) :
    (saveNow activity number).Respects R :=
  .bind (.adapt h.save) fun _ => .lift (h.modifySession fun _ => ⟨.refl _, rfl, rfl, rfl⟩)

theorem respects_delete (h : Execution.Course R) (i : Invocation) : (delete i).Respects R := by
  intro p
  unfold delete
  rw [Run.perform_bind, Run.perform_lift, Effect.perform_session]
  dsimp only
  split
  · exact refl_of R p
  · rename_i settings hforgotten
    rw [Run.perform_bind, Run.perform_lift, Effect.modifySettings, Effect.perform_modifySession]
    have hchange : R p { p with session := { p.session with settings } } :=
      h.change _ _ ⟨Settings.eases_of_forgetAll hforgotten, rfl, rfl, rfl⟩ rfl
    exact trans_of R hchange (respects_saveNow h _ _ _)

theorem respects_clear (h : Execution.Course R) (i : Invocation) : (clear i).Respects R :=
  .bind (.lift (h.modifySettings Settings.eases_cleared)) fun _ => respects_saveNow h _ _

theorem respects_setMode (h : Execution.Course R) (i : Invocation) : (setMode i).Respects R :=
  .bind (.lift (h.modifySettings fun _ => ⟨.inr rfl, .inr rfl⟩)) fun _ => respects_saveNow h _ _

end Remembered

/-- **All commands of the tool move along such a relation.** -/
theorem respects_of_bundled (h : Execution.Course R) {a : Action} (ha : Bundled a) (i : Invocation) :
    (a i).Respects R := by
  have hshows {a : Action} (ha : a.Shows) (i : Invocation) : (a i).Respects R :=
    fun p => h.quiet (ha i p)
  have hall : ∀ a ∈ actions, ∀ i, (a i).Respects R := by
    simp only [actions, List.forall_mem_cons]
    exact ⟨hshows Resolve.shows_describe, hshows Servers.shows_list, hshows Servers.shows_get,
      hshows Remembered.shows_list, Remembered.respects_delete h, Remembered.respects_clear h,
      Remembered.respects_setMode h, List.forall_mem_nil _⟩
  exact hall a (mem_actions_of_bundled ha) i

theorem acts_respecting (h : Execution.Course R) : app.Acts fun a => ∀ i, (a i).Respects R :=
  fun c hc _ ha => respects_of_bundled h ⟨c, hc, ha⟩

end Tool

/-! ## 4. From the setting up to the end -/

namespace App

theorem respects_flush (h : Execution.Course R) : flush.Respects R := by
  have hsaved : Session.saveUpdated.Respects R := by
    unfold Session.saveUpdated
    refine .bind (.lift .session) fun s => ?_
    split
    · exact .bind h.save fun _ => .lift (h.modifySession fun _ => ⟨.refl _, rfl, rfl, rfl⟩)
    · exact .pure _
  unfold flush
  refine .bind hsaved fun saved => ?_
  cases saved with
  | ok u => exact .pure _
  | error e =>
    exact .bind (fun p => h.quiet (Effect.quiet_log _ _ p)) fun _ p =>
      h.quiet (Effect.quiet_complain _ p)

theorem respects_dispatch (h : Execution.Course R) {prepared : Prepared}
    (hact : ∀ a, prepared.command.action = some a → ∀ i, (a i).Respects R) :
    (dispatch prepared).Respects R := by
  intro p
  cases hg : prepared.command.isGroup with
  | true => exact h.quiet (quiet_dispatch_of_group hg p)
  | false =>
    rw [session_dispatch hg]
    exact trans_of R (respects_act (fun a ha => hact a ha _) p) (respects_flush h _)

/-- **A run that comes to a command moves along such a relation**, from the moment at which its session is
    set up to its end. -/
theorem course_of_read (h : Execution.Course R) {app : App} {argv : List String} {p q : Execution}
    {prepared : Prepared} (hacts : app.Acts fun a => ∀ i, (a i).Respects R)
    (hread : (CommandLine.read app argv).perform p = (.ok (some prepared), q)) :
    ∃ line r, CommandLine.line? app argv = some line ∧
      (Setup.run app.version line.globals).perform p = (.ok (), r) ∧
      R r ((run app argv).perform p).2 := by
  obtain ⟨line, r, checked, t, hline, hsetup, hcheck, hconnect⟩ := CommandLine.phases_of_read hread
  have hchecked : R r t := by
    have hstep := CommandLine.respects_check h line.descent
      ((CommandLine.logWalk line.descent.chain.tail).perform r).2
    rw [hcheck] at hstep
    exact trans_of R (h.quiet (CommandLine.quiet_logWalk _ r)) hstep
  have hconnected : R t q := by
    have hall : (CommandLine.connect line.program (CommandLine.belowTool line.globals)
        checked).Respects R := .bind (Connect.respects_run h _) fun _ => .pure _
    have hstep := hall t
    rw [hconnect] at hstep
    exact hstep
  have hended : ((run app argv).perform p).2 = ((dispatch prepared).perform q).2 := by
    rw [perform_run, hread]
    rfl
  refine ⟨line, r, hline, hsetup, ?_⟩
  rw [hended]
  exact trans_of R (trans_of R hchecked hconnected)
    (respects_dispatch h (fun a ha => hacts _ (has_of_read hread) a ha) q)

end App

end

end BrokerCli
