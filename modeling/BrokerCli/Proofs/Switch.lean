import BrokerCli.Tool.App
import BrokerCli.Proofs.Effects
import BrokerCli.Proofs.Stages

/-!
# What becomes of a remembered token

The remembered host is switched in two places: where the memory is refreshed from the flags
(`Memory.reconcile`), and where a host is taken for the session (`Connect.takeHost`). The first forgets
everything that is not given anew. The second forgets tenant and scope only:

* `CommandLine.settings_of_read` -- the settings when a command is ready to run: the memory has taken
  part, and a host was taken;
* `Carried` -- what may have become of a token between two settings; `carried_of_hosting` shows it of
  both places together;
* `Place.Saves` -- a place after saves of the same settings; `Action.Keeps` -- an action that does not
  edit the settings, but may save them;
* `App.carried_of_run` -- what is saved in a run has carried its token on in one of these ways;
* `App.token_outlives_host` -- one of them keeps the token with another host.
-/

namespace BrokerCli

/-! ## 1. The settings of a command that is ready to run -/

namespace Connect

/-- A second host changes no settings. -/
theorem settings_destination (i : Invocation) (p : Execution) :
    ((destination i).perform p).2.session.settings = p.session.settings := by
  unfold destination
  split
  · rfl
  · rename_i host _
    rw [Run.perform_bind, Run.perform_lift, Effect.perform_modifySession]
    dsimp only
    rw [Run.perform_bind, Run.perform_adapt]
    have hquiet := (quiet_client i.serverList (request i.flags host false true)
      { p with session := { p.session with destination := host } }).session
    generalize (client i.serverList (request i.flags host false true)).perform _ = made at hquiet
    obtain ⟨e | c, q⟩ := made
    all_goals
      dsimp only at hquiet
      have hsettings : q.session.settings = p.session.settings := by rw [hquiet]
      exact hsettings

/-- The settings of a command that is connected are those of a session that has taken its host, if it
    has one. -/
theorem settings_of_run {i j : Invocation} {p q : Execution} (h : (run i).perform p = (.ok j, q)) :
    q.session.settings = match i.flags.textFlag? "host" with
      | none => p.session.settings
      | some (_, value, _) => (p.session.taking value).settings := by
  unfold run at h
  rw [Run.perform_bind] at h
  rcases hs : (source i).perform p with ⟨_ | k, r⟩
  · rw [hs] at h
    cases h
  · rw [hs] at h
    dsimp only at h
    have hr := settings_destination k r
    rw [h] at hr
    dsimp only at hr
    rw [hr]
    cases hf : i.flags.textFlag? "host" with
    | none =>
      rw [perform_source_of_no_host hf] at hs
      cases hs
      rfl
    | some found =>
      obtain ⟨f, value, features⟩ := found
      exact congrArg Session.settings (client_of_source hf hs).1

end Connect

namespace CommandLine

/-- The settings behind the checks: the memory has taken part, and the host of the flags was taken, if
    they have one. -/
def hosting (d : Descent) (s : Session) : Settings :=
  match (d.filled s.settings s.servers).textFlag? "host" with
  | none => (remembering d s).settings
  | some (_, value, _) => ((remembering d s).taking value).settings

/-- **The settings when a command is ready to run.** -/
theorem settings_of_read {app : App} {argv : List String} {p q : Execution} {prepared : Prepared}
    (h : (read app argv).perform p = (.ok (some prepared), q)) :
    ∃ line r, line? app argv = some line ∧
      (Setup.run app.version line.globals).perform p = (.ok (), r) ∧
      q.session.settings = hosting line.descent r.session := by
  obtain ⟨line, r, checked, t, hline, hsetup, hverdict, ht, hconnect⟩ := stages_of_read h
  refine ⟨line, r, hline, hsetup, ?_⟩
  rw [Connect.settings_of_run (run_of_connect hconnect), Descent.eq_of_verdict hverdict, hosting, ht]
  rfl

end CommandLine

/-! ## 2. What becomes of a token -/

/-- What may have become of the token of the settings `s` in the settings `t`, where a command line gave
    the flags `fs`. -/
inductive Carried (fs : FlagList) (s t : Settings) : Prop where
  /-- The host is the same. -/
  | sameHost (h : t.host = s.host)
  | forgotten (h : t.token = "")
  /-- The command line gave the token. -/
  | given (h : fs.textIfSet "oAuthToken" = some t.token)
  /-- The command line gave no host, and nothing was filled in for it; another one was declared, and
      the token was kept with it. -/
  | byDeclaration {f : Flag} {features : TextFeatures}
      (hf : fs.textFlag? "host" = some (f, t.host, features)) (hset : f.isSet = false)
      (hclosed : ¬ (features.remembered = true ∧ s.host ≠ "")) (hnamed : t.host ≠ "")
      (h : t.token = s.token)

namespace Memory

variable {fs : FlagList} {s : Settings} {servers : ServerTable}

/-- The token that is kept of flags filled from a server is given, or there is none. -/
theorem token_of_server (verbatim : Bool) (h : kept (fillFromServer fs servers verbatim) "oAuthToken" ≠ "") :
    fs.textIfSet "oAuthToken" = some (kept (fillFromServer fs servers verbatim) "oAuthToken") := by
  have hget : (fillFromServer fs servers verbatim).get? "oAuthToken" = fs.get? "oAuthToken" :=
    get?_fillFromServer_of_ne fs servers verbatim (by decide) (by decide)
  rw [← FlagList.textIfSet_congr hget]
  exact textIfSet_of_kept h

/-- The token that is kept of flags filled from all sides is given, or remembered, or there is none. -/
theorem token_of_filled (verbatim : Bool)
    (h : kept (fillFromSettings (fillFromServer (fill fs "host" s.host) servers verbatim) s)
      "oAuthToken" ≠ "") :
    let token := kept (fillFromSettings (fillFromServer (fill fs "host" s.host) servers verbatim) s)
      "oAuthToken"
    fs.textIfSet "oAuthToken" = some token ∨ token = s.token := by
  intro token
  have hfilled : (fillFromSettings (fillFromServer (fill fs "host" s.host) servers verbatim) s).textIfSet
      Slot.token.flag = some token := textIfSet_of_kept h
  have hget : (fillFromServer (fill fs "host" s.host) servers verbatim).get? "oAuthToken" =
      fs.get? "oAuthToken" :=
    (get?_fillFromServer_of_ne _ servers verbatim (by decide) (by decide)).trans
      (get?_fill_of_ne (by decide))
  rcases textIfSet_of_fillFromSettings hfilled with h | h
  · rw [← FlagList.textIfSet_congr hget]
    exact .inl h
  · exact .inr h.symm

end Memory

/-- The settings of a session that has taken a host. -/
theorem Session.settings_taking (s : Session) (value : String) :
    (s.taking value).settings =
      if value = "" ∨ s.settings.host = value then s.settings
      else Connect.withHost s.settings value := by
  unfold taking
  by_cases hv : value = ""
  · simp [hv]
  · have hempty : value.isEmpty = false := by
      rw [Bool.eq_false_iff, Ne, String.isEmpty_iff]
      exact hv
    simp only [hempty, Bool.false_eq_true, if_false, hv, false_or]
    split <;> rfl

/-- A memory that is off leaves the token alone, and so does taking a host. -/
theorem CommandLine.token_hosting_of_off (d : Descent) {session : Session}
    (hoff : session.settings.usePrevious = false) :
    (hosting d session).token = session.settings.token := by
  have hremembering : (remembering d session).settings =
      (Memory.reconcile d.placed.1 session.settings session.servers).settings := rfl
  rw [Memory.reconcile_of_off hoff] at hremembering
  unfold hosting
  split
  · rw [hremembering]
  · rw [Session.settings_taking, hremembering]
    split <;> rfl

/-- Only the host and the token before matter. -/
theorem Carried.congr {fs : FlagList} {s s' t : Settings} (hhost : s'.host = s.host)
    (htoken : s'.token = s.token) (h : Carried fs s t) : Carried fs s' t := by
  cases h with
  | sameHost h => exact .sameHost (h.trans hhost.symm)
  | forgotten h => exact .forgotten h
  | given h => exact .given h
  | byDeclaration hf hset hclosed hnamed h =>
    exact .byDeclaration hf hset (hhost ▸ hclosed) hnamed (h.trans htoken.symm)

section

variable {fs : FlagList} {s : Settings} {f : Flag} {value : String} {features : TextFeatures}

/-- A host that the command line gives is remembered, and nothing of the old one is kept with it. -/
theorem carried_of_given (servers : ServerTable)
    (hf : fs.textFlag? "host" = some (f, value, features))
    (hset : f.isSet = true) (hon : s.usePrevious = true) :
    let r := Memory.reconcile fs s servers
    r.settings.host = value ∧ Carried fs s r.settings := by
  have hhost : Memory.kept (Memory.reconcile fs s servers).flags "host" = value := by
    have hget := Memory.get?_reconcile_host s servers hf
    rw [if_neg fun h => Bool.noConfusion (hset.symm.trans h.2.2.1)] at hget
    exact Memory.kept_of_textFlag? (FlagList.textFlag?_eq_some_iff.2
      ⟨hget, (FlagList.textFlag?_eq_some_iff.1 hf).2⟩) hset
  rcases Memory.reconcile_cases servers hon hf with
    ⟨_, _, hflags, hsettings⟩ | ⟨_, hsame, _, hsettings⟩ | ⟨_, hopen, _⟩
  · dsimp only
    rw [hsettings]
    refine ⟨hhost, ?_⟩
    rw [hflags]
    by_cases htoken : Memory.kept (Memory.fillFromServer fs servers features.verbatim) "oAuthToken" = ""
    · exact .forgotten htoken
    · exact .given (Memory.token_of_server features.verbatim htoken)
  · dsimp only
    rw [hsettings]
    exact ⟨hhost, .sameHost (hhost.trans (hsame hset))⟩
  · exact Bool.noConfusion (hopen.symm.trans hset)

/-- Where the host is left open and nothing is filled in for it, the remembered host stays. The token is
    forgotten, or given, or it stays too. -/
theorem carried_of_open (servers : ServerTable)
    (hf : fs.textFlag? "host" = some (f, value, features))
    (hset : f.isSet = false) (hon : s.usePrevious = true)
    (hclosed : ¬ (features.remembered = true ∧ s.host ≠ "")) :
    let r := Memory.reconcile fs s servers
    r.settings.host = s.host ∧ (r.settings.token = "" ∨
      fs.textIfSet "oAuthToken" = some r.settings.token ∨ r.settings.token = s.token) := by
  have hhost : Memory.kept (Memory.reconcile fs s servers).flags "host" = "" := by
    have hget := Memory.get?_reconcile_host s servers hf
    rw [if_neg fun h => hclosed ⟨h.2.1, h.2.2.2⟩] at hget
    have htext : (Memory.reconcile fs s servers).flags.textFlag? "host" = some (f, value, features) :=
      FlagList.textFlag?_eq_some_iff.2 ⟨hget, (FlagList.textFlag?_eq_some_iff.1 hf).2⟩
    simp only [Memory.kept, htext, hset, Bool.false_eq_true, if_false]
  rcases Memory.reconcile_cases servers hon hf with
    ⟨hgiven, _⟩ | ⟨hr, _, hflags, hsettings⟩ | ⟨_, _, _, hsettings⟩
  · exact Bool.noConfusion (hset.symm.trans hgiven)
  · have hnone : s.host = "" := by
      by_contra hne
      exact hclosed ⟨hr, hne⟩
    dsimp only
    rw [hsettings]
    refine ⟨hhost.trans hnone.symm, ?_⟩
    rw [hflags]
    by_cases htoken : Memory.kept (Memory.fillFromSettings (Memory.fillFromServer
        (Memory.fill fs "host" s.host) servers features.verbatim) s) "oAuthToken" = ""
    · exact .inl htoken
    · exact .inr (Memory.token_of_filled features.verbatim htoken)
  · dsimp only
    rw [hsettings]
    exact ⟨rfl, .inr (.inr rfl)⟩

end

/-- **What becomes of a token behind the checks**, whether the memory or the session switches the
    host. -/
theorem carried_of_hosting (d : Descent) {session : Session}
    (hon : session.settings.usePrevious = true) :
    Carried d.placed.1 session.settings (CommandLine.hosting d session) := by
  have hremembering : (CommandLine.remembering d session).settings =
      (Memory.reconcile d.placed.1 session.settings session.servers).settings := rfl
  unfold CommandLine.hosting Descent.filled
  cases hf : d.placed.1.textFlag? "host" with
  | none =>
    rw [Memory.textFlag?_reconcile_of_none hf]
    dsimp only
    rw [hremembering, Memory.reconcile_of_no_host hf]
    exact .sameHost rfl
  | some found =>
    obtain ⟨f, value, features⟩ := found
    have hcontent := (FlagList.textFlag?_eq_some_iff.1 hf).2
    have hget := Memory.get?_reconcile_host session.settings session.servers hf
    split at hget
    · -- The host was left open, and what is remembered was filled in.
      rename_i hopen
      obtain ⟨_, hr, _, _⟩ := hopen
      have htext := FlagList.textFlag?_eq_some_iff.2 ⟨hget, rfl⟩
      rw [htext]
      dsimp only
      have hhost : (Memory.reconcile d.placed.1 session.settings session.servers).settings.host =
          session.settings.host := by
        rw [Memory.settings_reconcile hon hf hr]
        exact Memory.kept_of_textFlag? htext rfl
      rw [Session.settings_taking, hremembering, if_pos (.inr hhost)]
      exact .sameHost hhost
    · rename_i hclosed
      have htext := FlagList.textFlag?_eq_some_iff.2 ⟨hget, hcontent⟩
      rw [htext]
      dsimp only
      rw [Session.settings_taking, hremembering]
      cases hset : f.isSet with
      | true =>
        obtain ⟨hhost, hcarried⟩ := carried_of_given session.servers hf hset hon
        rw [if_pos (.inr hhost)]
        exact hcarried
      | false =>
        have hclosed : ¬ (features.remembered = true ∧ session.settings.host ≠ "") :=
          fun h => hclosed ⟨hon, h.1, hset, h.2⟩
        obtain ⟨hhost, htoken⟩ := carried_of_open session.servers hf hset hon hclosed
        split
        · exact .sameHost hhost
        · rename_i hswitch
          rcases htoken with h | h | h
          · exact .forgotten h
          · exact .given h
          · exact .byDeclaration hf hset hclosed (not_or.1 hswitch).1 h

/-! ## 3. Saves of the same settings -/

/-- The place after some saves of configurations with these settings. -/
inductive Place.Saves (s : Settings) (b : Place) : Place → Prop where
  | none : Saves s b b
  | save {b' : Place} (h : Saves s b b') (servers : ServerTable) (extra : Dictionary Json) :
      Saves s b (b'.save ⟨s, servers, extra⟩)

/-- An action that does not edit the settings; it may save them, with whatever servers. -/
def Action.Keeps (a : Action) : Prop := ∀ i p b, p.At b →
  let q := ((a i).perform p).2
  q.session.settings = p.session.settings ∧ ∃ b', q.At b' ∧ b.Saves p.session.settings b'

namespace App

/-- At the end of a command that does not edit the settings, these are what is saved. -/
theorem saves_of_dispatch {prepared : Prepared} {p : Execution} {b : Place} (hb : p.At b)
    (h : ∀ a, prepared.command.action = some a → a.Keeps) :
    ∃ b', ((dispatch prepared).perform p).2.At b' ∧ b.Saves p.session.settings b' := by
  cases hg : prepared.command.isGroup with
  | true => exact ⟨b, (quiet_dispatch_of_group hg).stays p b hb, .none⟩
  | false =>
    rw [session_dispatch hg]
    have hact : ((act prepared).perform p).2.session.settings = p.session.settings ∧
        ∃ b', ((act prepared).perform p).2.At b' ∧ b.Saves p.session.settings b' := by
      unfold act
      cases ha : prepared.command.action with
      | none => exact ⟨rfl, b, hb, .none⟩
      | some a => exact h a ha prepared.invocation p b hb
    obtain ⟨hsettings, b', hb', hsaves⟩ := hact
    obtain ⟨hflushed | ⟨_, hflushed⟩, _⟩ := place_flush hb'
    · exact ⟨b', hflushed, hsaves⟩
    · refine ⟨_, hflushed, ?_⟩
      rw [Session.configuration, hsettings]
      exact hsaves.save _ _

/-- **What is saved in a run has carried the token on.** -/
theorem carried_of_run (app : App) (hacts : app.Acts Action.Keeps) (argv : List String)
    {p : Execution} {b : Place} {c : Configuration} (hb : p.At b) (hc : b.held? = some c)
    (hon : c.settings.usePrevious = true) :
    ∃ b', ((run app argv).perform p).2.At b' ∧ (b' = b ∨ ∃ line s,
      CommandLine.line? app argv = some line ∧ b.Saves s b' ∧
      Carried line.descent.placed.1 c.settings s) := by
  have hstays := CommandLine.stays_read app argv p b hb
  rw [perform_run]
  dsimp only
  rcases hread : (CommandLine.read app argv).perform p with ⟨e | _ | prepared, q⟩
  · rw [hread] at hstays
    refine ⟨b, ?_, .inl rfl⟩
    simp only [conclude]
    split <;> exact hstays
  · rw [hread] at hstays
    exact ⟨b, hstays, .inl rfl⟩
  · rw [hread] at hstays
    obtain ⟨b', hb', hsaves⟩ := saves_of_dispatch hstays fun a ha => hacts _ (has_of_read hread) a ha
    obtain ⟨line, r, hline, hsetup, hsettings⟩ := CommandLine.settings_of_read hread
    obtain ⟨stderr, syslog, cacheFile, hr⟩ := Setup.settings_of_run hb hc hsetup
    refine ⟨b', hb', .inr ⟨line, q.session.settings, hline, hsaves, ?_⟩⟩
    rw [hsettings]
    cases hmode : r.session.batch with
    | false =>
      have hfound : r.session.settings = { c.settings with stderr, syslog, cacheFile } := by
        rw [hr, hmode]
        rfl
      refine (carried_of_hosting line.descent ?_).congr ?_ ?_
      all_goals rw [hfound]
      exact hon
    | true =>
      -- A batch run starts from settings without a token, and does not use what is remembered.
      have hfound : r.session.settings = { Settings.batch with stderr, syslog, cacheFile } := by
        rw [hr, hmode]
        rfl
      refine .forgotten ?_
      rw [CommandLine.token_hosting_of_off]
      all_goals
        rw [hfound]
        rfl

/-- A tool whose one command declares a host of its own, and does nothing with it. -/
def declaringHost : App where
  name := "ngsi"
  commands := [{ name := "show"
                 flags := [{ name := "host", content := .text "beta" {} }, .oauthToken]
                 action := some fun _ => pure () }]

theorem acts_declaringHost : declaringHost.Acts Action.Keeps := by
  rintro c ⟨top, htop, hc⟩ a ha
  obtain rfl := List.mem_singleton.1 htop
  cases hc with
  | self =>
    obtain rfl := Option.some.inj ha
    exact fun i p b hb => ⟨rfl, b, hb, .none⟩
  | sub h hd =>
    obtain rfl := h.eq_of_leaf rfl
    exact absurd hd List.not_mem_nil

/-- The token is forgotten where the command line gives another host. -/
theorem carried_of_run_gamma :
    let c : Configuration := { settings := { host := "alpha", token := "secret" } }
    let p : Execution := { session := { store := some (.inMemory c) } }
    let argv := ["ngsi", "show", "--host", "gamma"]
    c.settings.usePrevious = true ∧ ∃ b', ((run declaringHost argv).perform p).2.At b' ∧
      (b' = ⟨.inMemory c, {}⟩ ∨ ∃ line s,
        CommandLine.line? declaringHost argv = some line ∧ Place.Saves s ⟨.inMemory c, {}⟩ b' ∧
        Carried line.descent.placed.1 c.settings s) :=
  ⟨rfl, carried_of_run declaringHost acts_declaringHost _ ⟨rfl, rfl⟩ rfl rfl⟩

/-- **A token outlives the host it was remembered with**: the command declares another host, which takes
    its place, and the token stays. -/
theorem token_outlives_host :
    ¬ ∀ (app : App) (argv : List String) (p : Execution) (c c' : Configuration) (saves : Nat),
      app.Acts Action.Keeps → p.session.store = some (.inMemory c) → c.settings.usePrevious = true →
      ((run app argv).perform p).2.session.store = some (.memory c' saves false) →
      c'.settings.host ≠ c.settings.host →
      c'.settings.token = "" ∨ ∃ line, CommandLine.line? app argv = some line ∧
        line.descent.placed.1.textIfSet "oAuthToken" = some c'.settings.token := by
  intro h
  let c : Configuration := { settings := { host := "alpha", tenant := "openiot", token := "secret" } }
  let c' : Configuration := { settings := { host := "beta", token := "secret" } }
  let p : Execution := { session := { store := some (.inMemory c) } }
  have hsaved : ((run declaringHost ["ngsi", "show"]).perform p).2.session.store =
      some (.memory c' 1 false) := by decide +kernel
  have hgiven : (CommandLine.line? declaringHost ["ngsi", "show"]).map
      (fun line => line.descent.placed.1.textIfSet "oAuthToken") = some none := by decide +kernel
  rcases h declaringHost ["ngsi", "show"] p c c' 1 acts_declaringHost rfl rfl hsaved (by decide)
    with h | ⟨line, hline, h⟩
  · exact absurd h (by decide)
  · rw [hline, Option.map_some, h] at hgiven
    cases hgiven

end App

end BrokerCli
