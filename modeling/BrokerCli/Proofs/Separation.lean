import BrokerCli.Proofs.Custody
import BrokerCli.Proofs.Disabled
import BrokerCli.Proofs.Retention
import BrokerCli.Proofs.Shorthand

/-!
# The clients of the two hosts do not meet

A command with two hosts gets two clients, made one after the other from one list of flags, in one session,
behind a memory that fills flags on the way. Neither of them is to carry anything of the other one. Whatever is
read on the way from the command line to the clients is followed here in two runs at once:

* `FlagList.SameBut` -- flags that differ under some names only. The memory looks at no flags but those for the
  first host and fills no others (`Memory.reconcile_congr`, `Memory.sameBut_reconcile`), and setting up looks at
  none of the flags for a host (`Setup.run_congr`);
* `Execution.SameButTarget` -- sessions that differ in the remembered target only, and stay so while they are
  set up (`Setup.sameButTarget_of_run`);
* `Connect.clientFor`, `Connect.destinationFor` -- what the two clients are made from
  (`CommandLine.clients_of_read`);
* `Line.SameBut` -- lines that give the same to all flags but some; those are such lines that differ in values
  given to these flags, by name or by position (`CommandLine.sameBut_of_reads`);
* `App.clients_apart` -- the client for the second host depends neither on what is given for the first one nor
  on what is remembered, and the client for the first host not on what is given for the second one.
-/

namespace BrokerCli

open Execution Grammar

/-! ## 1. Flags that differ under some names -/

namespace FlagList

/-- Under every other name, the two lists have the same flag. -/
def SameBut (names : List String) (fs gs : FlagList) : Prop := ∀ name ∉ names, gs.get? name = fs.get? name

/-- Lists are so if they are the same without the flags of these names. -/
theorem sameBut_of_filter {names : List String} {fs gs : FlagList}
    (h : gs.filter (·.name ∉ names) = fs.filter (·.name ∉ names)) : SameBut names fs gs := by
  intro name hname
  have hfilter (fs : FlagList) : get? (fs.filter (·.name ∉ names)) name = fs.get? name := by
    unfold get?
    rw [List.find?_filter]
    congr 1
    funext f
    by_cases hf : f.name = name
    · simp [hf, hname]
    · simp [hf]
  rw [← hfilter gs, h, hfilter]

namespace SameBut

variable {names : List String} {name : String} {fs gs hs : FlagList}

theorem symm (h : SameBut names fs gs) : SameBut names gs fs := fun name hname => (h name hname).symm

theorem trans (h : SameBut names fs gs) (h' : SameBut names gs hs) : SameBut names fs hs :=
  fun name hname => (h' name hname).trans (h name hname)

theorem isSet (h : SameBut names fs gs) (hname : name ∉ names) : gs.isSet name = fs.isSet name := by
  unfold FlagList.isSet
  rw [h name hname]

theorem truth (h : SameBut names fs gs) (hname : name ∉ names) : gs.truth name = fs.truth name := by
  unfold FlagList.truth
  rw [h name hname]

theorem number (h : SameBut names fs gs) (hname : name ∉ names) : gs.number name = fs.number name := by
  unfold FlagList.number
  rw [h name hname]

theorem textIfSet (h : SameBut names fs gs) (hname : name ∉ names) : gs.textIfSet name = fs.textIfSet name :=
  textIfSet_congr (h name hname)

theorem textFlag? (h : SameBut names fs gs) (hname : name ∉ names) :
    gs.textFlag? name = fs.textFlag? name := by
  unfold FlagList.textFlag?
  rw [h name hname]

end SameBut

end FlagList

/-- The names of the flags for the first host. -/
def Connect.sourceFlags : List String := ["host", "service", "path", "oAuthToken"]

/-- The names of the flags for the second host. -/
def Connect.destinationFlags : List String := ["host2", "service2", "path2", "oAuthToken2"]

open FlagList (SameBut)

open Connect (sourceFlags destinationFlags)

/-! ## 2. The memory -/

namespace Memory

variable {names : List String} {name : String} {fs gs : FlagList}

/-- **The memory fills no flags but those for the first host.** -/
theorem sameBut_reconcile (fs : FlagList) (s : Settings) (servers : ServerTable) :
    SameBut sourceFlags fs (reconcile fs s servers).flags := by
  intro name hname
  have hfill {slot : String} (hslot : slot ∈ sourceFlags) (fs : FlagList) (value : String) :
      (fill fs slot value).get? name = fs.get? name :=
    get?_fill_of_ne fun h => hname (h ▸ hslot)
  have hserver (fs : FlagList) (verbatim : Bool) :
      (fillFromRegistry fs servers.lookup verbatim).get? name = fs.get? name :=
    get?_fillFromServer_of_ne fs servers verbatim (fun h => hname (h ▸ by decide))
      fun h => hname (h ▸ by decide)
  have hsettings (fs : FlagList) : (fillFromSettings fs s).get? name = fs.get? name := by
    simp only [fillFromSettings, remembered, List.foldl_cons, List.foldl_nil]
    rw [hfill (by decide), hfill (by decide), hfill (by decide), hfill (by decide)]
  unfold reconcile reconcileWith
  split
  · rfl
  · split
    · split
      · exact hserver _ _
      · exact (hsettings _).trans ((hserver _ _).trans (hfill (by decide) _ _))
    · split
      · exact hserver _ _
      · rfl

/-- A flag is filled in the same way in both lists. -/
theorem sameBut_fill (h : SameBut names fs gs) (name value : String) :
    SameBut names (fill fs name value) (fill gs name value) := by
  intro other hother
  by_cases hn : other = name
  · subst hn
    exact get?_fill_congr value (h other hother)
  · rw [get?_fill_of_ne hn, get?_fill_of_ne hn]
    exact h other hother

theorem sameBut_fillFromSettings (h : SameBut names fs gs) (s : Settings) :
    SameBut names (fillFromSettings fs s) (fillFromSettings gs s) :=
  sameBut_fill (sameBut_fill (sameBut_fill (sameBut_fill h _ _) _ _) _ _) _ _

theorem sameBut_fillFromRegistry {ε : Type} (h : SameBut names fs gs) (hhost : "host" ∉ names)
    (registry : Registry ε) (verbatim : Bool) :
    SameBut names (fillFromRegistry fs registry verbatim) (fillFromRegistry gs registry verbatim) := by
  unfold fillFromRegistry
  rw [h.textFlag? hhost]
  split
  · exact h
  · split
    · exact h
    · split
      · exact h
      · exact sameBut_fill (sameBut_fill h _ _) _ _

theorem refresh_congr (h : SameBut names fs gs) (hnames : ∀ name ∈ sourceFlags, name ∉ names)
    (s : Settings) : refresh gs s = refresh fs s := by
  have hkept {slot : String} (hslot : slot ∈ sourceFlags) : kept gs slot = kept fs slot :=
    kept_congr (h slot (hnames slot hslot))
  unfold refresh
  rw [hkept (by decide), hkept (by decide), hkept (by decide), hkept (by decide)]

/-- **The memory looks at no flags but those for the first host**: where these are the same, it remembers the
    same, and fills the same. -/
theorem reconcile_congr (h : SameBut names fs gs) (hnames : ∀ name ∈ sourceFlags, name ∉ names)
    (s : Settings) (servers : ServerTable) :
    (reconcile gs s servers).settings = (reconcile fs s servers).settings ∧
      (reconcile gs s servers).refreshed = (reconcile fs s servers).refreshed ∧
      SameBut names (reconcile fs s servers).flags (reconcile gs s servers).flags := by
  have hhost : "host" ∉ names := hnames _ (by decide)
  unfold reconcile reconcileWith
  rw [h.textFlag? hhost]
  split
  · exact ⟨rfl, rfl, h⟩
  · rename_i features _
    have hserver {fs gs : FlagList} (h : SameBut names fs gs) :=
      sameBut_fillFromRegistry h hhost servers.lookup features.verbatim
    have hfilled := sameBut_fillFromSettings (hserver (sameBut_fill h "host" s.host)) s
    split
    · split
      · exact ⟨refresh_congr (hserver h) hnames s, rfl, hserver h⟩
      · exact ⟨refresh_congr hfilled hnames s, rfl, hfilled⟩
    · split
      · exact ⟨refresh_congr (hserver h) hnames s, rfl, hserver h⟩
      · exact ⟨rfl, rfl, h⟩

end Memory

/-! ## 3. Setting up -/

namespace Setup

/-- The names of the options from which a session is set up. -/
def optionNames : List String :=
  ["batch", "configDir", "config", "cache", "stderr", "syslog", "margin", "timeout", "maxCount",
    "insecureSkipVerify"]

/-- Setting up looks at no other options. -/
theorem run_congr {names : List String} {fs gs : FlagList} (h : SameBut names fs gs)
    (hnames : ∀ name ∈ optionNames, name ∉ names) (version : String) : run version gs = run version fs := by
  have hset {name : String} (hname : name ∈ optionNames) : gs.isSet name = fs.isSet name :=
    h.isSet (hnames name hname)
  have htext {name : String} (hname : name ∈ optionNames) : gs.textIfSet name = fs.textIfSet name :=
    h.textIfSet (hnames name hname)
  have htruth {name : String} (hname : name ∈ optionNames) : gs.truth name = fs.truth name :=
    h.truth (hnames name hname)
  have hnumber {name : String} (hname : name ∈ optionNames) : gs.number name = fs.number name :=
    h.number (hnames name hname)
  have hconflict : placesConflict gs = placesConflict fs := by
    unfold placesConflict
    rw [hset (by decide), hset (by decide), hset (by decide)]
  have hstore : chooseStore gs = chooseStore fs := by
    unfold chooseStore
    rw [htext (by decide), htext (by decide)]
  have hstderr : setStderrLevel gs = setStderrLevel fs := by
    unfold setStderrLevel levelText
    rw [htext (by decide), hset (by decide)]
  have hsyslog : setSyslogLevel gs = setSyslogLevel fs := by
    unfold setSyslogLevel levelText
    rw [htext (by decide), hset (by decide)]
  have hlimits : withLimits gs = withLimits fs := by
    funext s
    unfold withLimits
    rw [hset (by decide), hset (by decide), hset (by decide), hnumber (by decide), hnumber (by decide),
      hnumber (by decide), htruth (by decide)]
  have hcache : withCache gs = withCache fs := by
    funext s
    unfold withCache
    rw [htext (by decide)]
  unfold run
  rw [hset (by decide), htruth (by decide), hconflict, hstore, hstderr, hsyslog, hlimits, hcache]

end Setup

/-- The sessions differ in nothing but the remembered target, and where it is kept. -/
def Execution.SameButTarget (p q : Execution) : Prop := q.session.masked false = p.session.masked false

/-- At both places a configuration is found, and the two differ in nothing but the remembered target. -/
def Place.SameButTarget (b b' : Place) : Prop :=
  ∃ c c', b.held? = some c ∧ b'.held? = some c' ∧ c'.settings.masked false = c.settings.masked false ∧
    c'.servers = c.servers ∧ c'.extra = c.extra

/-- A step that does not look at the target: in both executions it comes to the same, and it makes no other
    difference between them. -/
def Run.SparesTarget {ε α : Type} (r : Run ε α) : Prop :=
  ∀ p q : Execution, p.SameButTarget q →
    ∃ outcome m m', r.perform p = (outcome, m) ∧ r.perform q = (outcome, m') ∧ m.SameButTarget m'

namespace Setup

variable {p q r r' : Execution}

/-- A change of the session that does not look at the target. -/
theorem sparesTarget_modifySession {f : Session → Session}
    (hf : ∀ s : Session, (f (s.masked false)).masked false = (f s).masked false) :
    Run.SparesTarget (liftM (Effect.modifySession f) : Run SetupError Unit) := by
  intro p q h
  refine ⟨_, _, _, rfl, rfl, ?_⟩
  show (f q.session).masked false = (f p.session).masked false
  rw [← hf, ← hf p.session, h]

/-- Tuning a session does not look at the target. -/
theorem tuning_sparesTarget : Tuning Run.SparesTarget where
  pure _ _ h := ⟨_, _, _, rfl, rfl, h⟩
  throw _ _ _ h := ⟨_, _, _, rfl, rfl, h⟩
  andThen h h' p q hpq := by
    obtain ⟨outcome, m, m', hm, hm', hends⟩ := h p q hpq
    rw [Run.perform_bind, Run.perform_bind, hm, hm']
    cases outcome with
    | error e => exact ⟨_, _, _, rfl, rfl, hends⟩
    | ok u => exact h' m m' hends
  look hf h p q hpq := by
    have hstderr : q.session.settings.stderr = p.session.settings.stderr := congrArg (·.settings.stderr) hpq
    have hsyslog : q.session.settings.syslog = p.session.settings.syslog := congrArg (·.settings.syslog) hpq
    obtain ⟨outcome, m, m', hm, hm', hends⟩ := h p.session p q hpq
    rw [← hf _ _ hstderr hsyslog] at hm'
    exact ⟨outcome, m, m', hm, hm', hends⟩
  log severity message p q h := by
    refine ⟨_, _, _, rfl, rfl, ?_⟩
    show (q.note severity message).session.masked false = (p.note severity message).session.masked false
    rw [session_note, session_note]
    exact h
  stderr _ := sparesTarget_modifySession fun _ => rfl
  syslog _ := sparesTarget_modifySession fun _ => rfl
  stderrLevel level p q h := by
    refine ⟨_, _, _, rfl, rfl, ?_⟩
    exact congrArg (fun s : Session => { s with stderrLevel := level }) h
  syslogLevel _ := sparesTarget_modifySession fun _ => rfl
  limits _ := sparesTarget_modifySession fun _ => rfl
  cache fs := by
    refine sparesTarget_modifySession fun _ => ?_
    unfold withCache
    cases fs.textIfSet "cache" <;> rfl

/-- Reading two such configurations makes no other difference. -/
theorem sameButTarget_of_load {b b' : Place} (hpq : p.SameButTarget q) (hb : p.At b) (hb' : q.At b')
    (h : b.SameButTarget b') : ∃ m m', loadConfiguration.perform p = (.ok (), m) ∧
      loadConfiguration.perform q = (.ok (), m') ∧ m.SameButTarget m' := by
  obtain ⟨c, c', hheld, hheld', htarget, hservers, hextra⟩ := h
  obtain ⟨remark, hc⟩ := Place.held?_eq_some_iff.1 hheld
  obtain ⟨remark', hc'⟩ := Place.held?_eq_some_iff.1 hheld'
  refine ⟨_, _, perform_loadConfiguration hb hc, perform_loadConfiguration hb' hc', ?_⟩
  unfold SameButTarget
  dsimp only
  rw [(Effect.quiet_remark remark p).session, (Effect.quiet_remark remark' q).session]
  exact masked_settingsIn hpq htarget hservers hextra

/-- The choice of batch runs makes no other difference. -/
theorem sameButTarget_choosing (fs : FlagList) (h : p.SameButTarget q) :
    (choosing fs p).SameButTarget (choosing fs q) := by
  unfold choosing
  split
  · exact congrArg (fun s : Session => { s with batch := fs.truth "batch" }) h
  · exact h

/-- If a store is chosen, there is a place, and the store is that of the place. -/
theorem place_of_chooseStore {fs : FlagList} (h : (chooseStore fs).perform p = (.ok (), q)) :
    ∃ b, place? fs p = some b ∧ q = { p with session := { p.session with store := some b.store } } := by
  rw [perform_chooseStore_of_place?] at h
  split at h
  · rename_i b hb
    cases h
    exact ⟨b, hb, rfl⟩
  · cases h

/-- **Sessions that are set up in the same way differ in nothing but the remembered target**, if no more was
    different before. -/
theorem sameButTarget_of_run {version : String} {fs : FlagList} (hpq : p.SameButTarget q)
    (hplaces : Option.Rel Place.SameButTarget (place? fs p) (place? fs q))
    (h : (run version fs).perform p = (.ok (), r)) (h' : (run version fs).perform q = (.ok (), r')) :
    r.SameButTarget r' := by
  rw [perform_run] at h h'
  by_cases hconflict : placesConflict fs = true
  · rw [if_pos hconflict] at h
    cases h
  rw [if_neg hconflict] at h h'
  have hpq := sameButTarget_choosing fs hpq
  rw [← place?_choosing fs p, ← place?_choosing fs q] at hplaces
  generalize choosing fs p = p at hpq hplaces h
  generalize choosing fs q = q at hpq hplaces h'
  unfold settle at h h'
  obtain ⟨_, m, hchosen, h⟩ := Run.ok_of_bind h
  obtain ⟨_, m', hchosen', h'⟩ := Run.ok_of_bind h'
  obtain ⟨b, hb, rfl⟩ := place_of_chooseStore hchosen
  obtain ⟨b', hb', rfl⟩ := place_of_chooseStore hchosen'
  rw [hb, hb'] at hplaces
  obtain ⟨m, m', hm, hm', hloaded⟩ :=
    sameButTarget_of_load (p := { p with session := { p.session with store := some b.store } })
      (q := { q with session := { q.session with store := some b'.store } }) hpq (at_of_place? hb)
      (at_of_place? hb') (by cases hplaces; assumption)
  rw [Run.perform_bind, hm] at h
  rw [Run.perform_bind, hm'] at h'
  obtain ⟨outcome, t, t', ht, ht', hends⟩ := tuning_sparesTarget.rest version fs m m' hloaded
  obtain ⟨-, rfl⟩ := Prod.mk.inj (ht.symm.trans h)
  obtain ⟨-, rfl⟩ := Prod.mk.inj (ht'.symm.trans h')
  exact hends

/-- The place of the configuration is chosen by no other options, either. -/
theorem place?_congr {names : List String} {fs gs : FlagList} (h : SameBut names fs gs)
    (hnames : ∀ name ∈ optionNames, name ∉ names) (p : Execution) : place? gs p = place? fs p := by
  unfold place?
  rw [h.textIfSet (hnames _ (by decide)), h.textIfSet (hnames _ (by decide))]

end Setup

/-! ## 4. The clients of a line -/

namespace Connect

variable {names : List String} {fs gs : FlagList} {i j : Invocation} {p q : Execution}

/-- The client that a session has made for the first host of the flags. -/
def clientFor (s : Session) (fs : FlagList) : Option Client :=
  (fs.textFlag? "host").bind fun (_, value, features) =>
    if features.initClient then
      let host := if value.isEmpty then s.settings.host else value
      (s.factory.make s.servers s.clientOptions (request fs host features.skipGetToken false)).toOption
    else none

/-- The client that a session has made for the second host of the flags. -/
def destinationFor (s : Session) (fs : FlagList) : Option Client :=
  (fs.textIfSet "host2").bind fun host =>
    (s.factory.make s.servers s.clientOptions (request fs host false true)).toOption

/-- Taking a host changes nothing that a client for the second one is made from. -/
theorem destinationFor_taking (s : Session) (value : String) (fs : FlagList) :
    destinationFor (s.taking value) fs = destinationFor s fs := by
  unfold Session.taking
  dsimp only
  generalize (if value.isEmpty then s.settings.host else value) = host
  split <;> rfl

theorem clientOptions_taking (s : Session) (value : String) :
    (s.taking value).clientOptions = s.clientOptions := by
  unfold Session.taking
  dsimp only
  generalize (if value.isEmpty then s.settings.host else value) = host
  split <;> rfl

/-- What is handed on by the making of the second client. -/
theorem destination_of_destination (hi : i.destination = none)
    (h : (destination i).perform p = (.ok j, q)) :
    j.client = i.client ∧ j.destination = destinationFor p.session i.flags := by
  unfold destination at h
  unfold destinationFor
  split at h
  · rename_i hnone
    cases h
    exact ⟨rfl, by rw [hi, hnone, Option.bind_none]⟩
  · rename_i host hhost
    obtain ⟨_, m, hm, h⟩ := Run.ok_of_bind h
    cases hm
    obtain ⟨c, m, hc, h⟩ := Run.ok_of_bind h
    have hmake := make_of_client (Run.ok_of_adapt hc)
    cases h
    refine ⟨rfl, ?_⟩
    rw [hhost, Option.bind_some]
    exact (congrArg Except.toOption hmake).symm

/-- What is handed on by the making of the first client. -/
theorem client_of_source_eq (hi : i.client = none) (h : (source i).perform p = (.ok j, q)) :
    j.client = clientFor p.session i.flags ∧
      destinationFor q.session i.flags = destinationFor p.session i.flags := by
  unfold clientFor
  cases hhost : i.flags.textFlag? "host" with
  | none =>
    rw [perform_source_of_no_host hhost] at h
    cases h
    exact ⟨hi, rfl⟩
  | some found =>
    obtain ⟨f, value, features⟩ := found
    obtain ⟨htaken, hnone, hmade⟩ := client_of_source hhost h
    refine ⟨?_, by rw [htaken, destinationFor_taking]⟩
    rw [Option.bind_some]
    dsimp only
    cases hc : features.initClient with
    | false => exact (hnone hc).trans hi
    | true =>
      obtain ⟨c, hj, hmake⟩ := hmade hc
      obtain ⟨hservers, -, hfactory⟩ := Session.frame_taking p.session value
      rw [htaken, hservers, hfactory, clientOptions_taking, Session.host_taking] at hmake
      rw [if_pos rfl, hj]
      exact (congrArg Except.toOption hmake).symm

/-- **What the clients are made from**: the flags, and the session before. -/
theorem clients_of_run (hclient : i.client = none) (hdestination : i.destination = none)
    (h : (run i).perform p = (.ok j, q)) :
    j.client = clientFor p.session i.flags ∧ j.destination = destinationFor p.session i.flags := by
  obtain ⟨k, m, hs, hd⟩ := Run.ok_of_bind h
  have hk := frame_of_source hs
  obtain ⟨hkclient, hkept⟩ := client_of_source_eq hclient hs
  have hflags : k.flags = i.flags := by rw [hk]
  have hnone : k.destination = none := by rw [hk, hdestination]
  obtain ⟨hjclient, hjdestination⟩ := destination_of_destination hnone hd
  rw [hjclient, hjdestination, hkclient, hflags, hkept]
  exact ⟨rfl, rfl⟩

end Connect

namespace CommandLine

/-- The place of the configuration is chosen by the options of the line. -/
theorem place?_of_line? {app : App} {argv : List String} {p : Execution} {line : Line}
    (h : line? app argv = some line) : place? app argv p = Setup.place? line.globals p := by
  obtain ⟨o, ho, hglobals⟩ := opening?_of_line? h
  rw [place?, ho, Option.bind_some, hglobals]

/-- The clients of a command that is ready, from the session that was set up. -/
theorem clients_of_read {app : App} {argv : List String} {p q : Execution} {prepared : Prepared}
    (h : (read app argv).perform p = (.ok (some prepared), q)) :
    ∃ line r, line? app argv = some line ∧
      (Setup.run app.version line.globals).perform p = (.ok (), r) ∧
      prepared.invocation.client = Connect.clientFor (remembering line.descent r.session)
        (line.descent.filled r.session.settings r.session.servers) ∧
      prepared.invocation.destination = Connect.destinationFor (remembering line.descent r.session)
        (line.descent.filled r.session.settings r.session.servers) := by
  obtain ⟨line, r, checked, t, hline, hsetup, hverdict, ht, hconnect⟩ := stages_of_read h
  have hclients := Connect.clients_of_run rfl rfl (run_of_connect hconnect)
  rw [ht, Descent.eq_of_verdict hverdict] at hclients
  exact ⟨line, r, hline, hsetup, hclients⟩

end CommandLine

/-! ## 5. Two lines -/

namespace Connect

variable {names : List String} {fs gs : FlagList}

/-- What is asked for at a host is in the flags for this host. -/
theorem request_congr (h : SameBut names fs gs) (isDestination : Bool)
    (hnames : ∀ name ∈ if isDestination then destinationFlags else sourceFlags, name ∉ names)
    (host : String) (skipGetToken : Bool) :
    request gs host skipGetToken isDestination = request fs host skipGetToken isDestination := by
  have hmark : ∀ stem ∈ ["service", "path", "oAuthToken"],
      (stem ++ if isDestination then "2" else "") ∈ if isDestination then destinationFlags else sourceFlags := by
    cases isDestination <;> decide
  have hslot {stem : String} (hstem : stem ∈ ["service", "path", "oAuthToken"]) :
      gs.textIfSet (stem ++ if isDestination then "2" else "") =
        fs.textIfSet (stem ++ if isDestination then "2" else "") :=
    h.textIfSet (hnames _ (hmark stem hstem))
  unfold request
  dsimp only
  rw [hslot (by decide), hslot (by decide), hslot (by decide)]

theorem clientFor_congr (h : SameBut names fs gs) (hnames : ∀ name ∈ sourceFlags, name ∉ names) (s : Session) :
    clientFor s gs = clientFor s fs := by
  unfold clientFor
  rw [h.textFlag? (hnames _ (by decide))]
  congr 1
  funext ⟨f, value, features⟩
  dsimp only
  rw [request_congr h false hnames]

theorem destinationFor_congr {s t : Session} (hst : t.masked false = s.masked false)
    (h : SameBut names fs gs) (hnames : ∀ name ∈ destinationFlags, name ∉ names) :
    destinationFor t gs = destinationFor s fs := by
  -- the target is no part of what it is made from
  have hmasked (s : Session) (fs : FlagList) : destinationFor (s.masked false) fs = destinationFor s fs := rfl
  rw [← hmasked t, hst, hmasked]
  unfold destinationFor
  rw [h.textIfSet (hnames _ (by decide))]
  congr 1
  funext host
  rw [request_congr h true hnames]

end Connect

/-! ## 6. Lines that differ in values -/

/-- Two lines that give the same to all flags but those of some names, be it by name or by position. -/
structure Line.SameBut (names : List String) (line line' : Line) : Prop where
  globals : FlagList.SameBut names line.globals line'.globals
  flags : FlagList.SameBut names line.descent.placed.1 line'.descent.placed.1

namespace Check

variable {names : List String} {name arg arg' : String} {fs gs : FlagList}

/-- What stands for the same name, and is the same if that is none of the names. -/
def SameBut (names : List String) (pair pair' : String × String) : Prop :=
  pair'.1 = pair.1 ∧ (pair.1 ∉ names → pair'.2 = pair.2)

theorem sameBut_placeOne (h : FlagList.SameBut names fs gs) (harg : name ∉ names → arg' = arg) :
    FlagList.SameBut names (placeOne fs name arg).1 (placeOne gs name arg').1 := by
  intro other hother
  by_cases hn : other = name
  · subst hn
    have hget := h other hother
    rw [harg hother]
    cases hf : fs.get? other with
    | none =>
      have hg := hget.trans hf
      unfold placeOne
      rw [hf, hg]
      exact hget
    | some f => rw [get?_placeOne hf, get?_placeOne (hget.trans hf)]
  · rw [get?_placeOne_of_ne hn, get?_placeOne_of_ne hn]
    exact h other hother

/-- Arguments are given to the flags that they stand for, and to no others. -/
theorem sameBut_place {pairs pairs' : List (String × String)} (hpairs : List.Forall₂ (SameBut names) pairs pairs')
    (h : FlagList.SameBut names fs gs) : FlagList.SameBut names (place fs pairs).1 (place gs pairs').1 := by
  induction hpairs generalizing fs gs with
  | nil => exact h
  | @cons pair pair' _ _ hpair _ ih =>
    obtain ⟨name, arg⟩ := pair
    obtain ⟨name', arg'⟩ := pair'
    obtain ⟨rfl, harg⟩ := hpair
    exact ih (sameBut_placeOne h harg)

end Check

namespace Grammar

variable {names : List String} {l l' : Ledger}

/-- The same flags are declared, and the same is given to them, but for the values of those that have one of the
    names. -/
def Ledger.SameBut (names : List String) : Ledger → Ledger → Prop :=
  List.Forall₂ fun e e' => e'.blueprint = e.blueprint ∧ e'.given.isEmpty = e.given.isEmpty ∧
    (e.blueprint.name ∉ names → e'.given = e.given)

theorem Entry.isSet_flag (e : Entry) : e.flag.isSet = !e.given.isEmpty := by
  rw [flag_eq]
  rcases e with ⟨blueprint, given⟩
  cases h : given.getLast? with
  | none =>
    rw [List.getLast?_eq_none_iff] at h
    rw [h]
    rfl
  | some c =>
    cases given with
    | nil => cases h
    | cons => rfl

theorem Ledger.SameBut.flags (h : l.SameBut names l') : FlagList.SameBut names l.flags l'.flags := by
  intro name hname
  induction h with
  | nil => rfl
  | @cons e e' es es' he _ ih =>
    obtain ⟨hblueprint, -, hgiven⟩ := he
    have hname' : e'.flag.name = e.flag.name := by rw [Entry.name_flag, Entry.name_flag, hblueprint]
    by_cases hn : e.flag.name = name
    · have hflag : e'.flag = e.flag := by
        rw [Entry.name_flag] at hn
        unfold Entry.flag
        rw [hblueprint, hgiven (hn ▸ hname)]
      exact (FlagList.get?_cons_of_eq (hname'.trans hn)).trans
        ((congrArg some hflag).trans (FlagList.get?_cons_of_eq hn).symm)
    · exact (FlagList.get?_cons_of_ne (hname' ▸ hn)).trans (ih.trans (FlagList.get?_cons_of_ne hn).symm)

/-- The same flags are given at all, whatever their names. -/
theorem Ledger.SameBut.isSet (h : l.SameBut names l') (name : String) :
    l'.flags.isSet name = l.flags.isSet name := by
  unfold FlagList.isSet
  induction h with
  | nil => rfl
  | @cons e e' es es' he _ ih =>
    obtain ⟨hblueprint, hempty, -⟩ := he
    have hname' : e'.flag.name = e.flag.name := by rw [Entry.name_flag, Entry.name_flag, hblueprint]
    by_cases hn : e.flag.name = name
    · rw [Ledger.flags, Ledger.flags, List.map_cons, List.map_cons, FlagList.get?_cons_of_eq (hname'.trans hn),
        FlagList.get?_cons_of_eq hn, Option.any_some, Option.any_some, Entry.isSet_flag, Entry.isSet_flag, hempty]
    · rw [Ledger.flags, Ledger.flags, List.map_cons, List.map_cons, FlagList.get?_cons_of_ne (hname' ▸ hn),
        FlagList.get?_cons_of_ne hn]
      exact ih

/-- **Two walks to a command give the same to all flags but those of some names** if they differ in nothing but
    values that are given to these, by name or by position. -/
theorem Walked.sameBut_placed {w w' : Walked} (hledger : w.ledger.SameBut names w'.ledger)
    (hrequired : w'.descent.required = w.descent.required) (hlength : w'.args.length = w.args.length)
    (hargs : List.Forall₂ (Check.SameBut names) (w.descent.required.zip w.args) (w'.descent.required.zip w'.args)) :
    FlagList.SameBut names w.descent.placed.1 w'.descent.placed.1 := by
  have hengages : w'.descent.engages = w.descent.engages := by
    have hset : w'.descent.flags.anySet w'.descent.required = w.descent.flags.anySet w.descent.required := by
      unfold FlagList.anySet
      rw [hrequired]
      exact congrArg (List.any _) (funext hledger.isSet)
    have hlength' : w'.descent.args.length = w.descent.args.length := hlength
    unfold Descent.engages Check.byPosition
    rw [hset, hrequired, hlength']
  unfold Descent.placed
  rw [hengages]
  split
  · exact Check.sameBut_place hargs hledger.flags
  · exact hledger.flags

end Grammar

namespace CommandLine

/-- What is read from the two command lines differs in nothing but what the flags of these names are given. -/
def SameBut (names : List String) (app : App) (argv argv' : List String) : Prop :=
  ∀ line line', line? app argv = some line → line? app argv' = some line' → line.SameBut names line'

/-- **Command lines are so if they differ in nothing but values that are given to these flags**, by name or by
    position. -/
theorem sameBut_of_reads {names : List String} {app : App} {s s' : Split} {globals globals' : Ledger}
    {w w' : Walked} (h : s.Reads app globals w) (h' : s'.Reads app globals' w')
    (hglobals : globals.SameBut names globals') (hledger : w.ledger.SameBut names w'.ledger)
    (hrequired : w'.descent.required = w.descent.required) (hlength : w'.args.length = w.args.length)
    (hargs : List.Forall₂ (Check.SameBut names) (w.descent.required.zip w.args)
      (w'.descent.required.zip w'.args)) : SameBut names app s.arguments s'.arguments := by
  intro line line' hline hline'
  rw [line?_of_reads h] at hline
  rw [line?_of_reads h'] at hline'
  cases hline
  cases hline'
  exact ⟨hglobals.flags, Walked.sameBut_placed hledger hrequired hlength hargs⟩

/-- Command lines are so if the flags that are read are the same without those of these names. -/
theorem sameBut_of_filter {names : List String} {app : App} {argv argv' : List String}
    (h : (line? app argv').map (fun line =>
        (line.globals.filter (·.name ∉ names), line.descent.placed.1.filter (·.name ∉ names))) =
      (line? app argv).map fun line =>
        (line.globals.filter (·.name ∉ names), line.descent.placed.1.filter (·.name ∉ names))) :
    SameBut names app argv argv' := by
  intro line line' hline hline'
  rw [hline, hline'] at h
  obtain ⟨hglobals, hflags⟩ := Prod.mk.inj (Option.some.inj h)
  exact ⟨FlagList.sameBut_of_filter hglobals, FlagList.sameBut_of_filter hflags⟩

/-! ## 7. The clients of two lines -/

variable {d d' : Descent}

/-- The memory changes no more of a session than the target. -/
theorem masked_remembering (d : Descent) (s : Session) : (remembering d s).masked false = s.masked false := by
  have hsettings : (Memory.reconcile d.placed.1 s.settings s.servers).settings.masked false =
      s.settings.masked false := by
    unfold Memory.reconcile Memory.reconcileWith
    repeat' split
    all_goals rfl
  exact congrArg (fun settings => { s.masked false with settings }) hsettings

/-- The flags that are not for the first host are the same behind the memory, too. -/
theorem sameBut_filled_source (h : FlagList.SameBut sourceFlags d.placed.1 d'.placed.1) (s t : Settings)
    (servers servers' : ServerTable) :
    FlagList.SameBut sourceFlags (d.filled s servers) (d'.filled t servers') :=
  (Memory.sameBut_reconcile d.placed.1 s servers).symm.trans
    (h.trans (Memory.sameBut_reconcile d'.placed.1 t servers'))

/-- What is given to the flags for the second host makes no difference to the memory. -/
theorem remembering_congr (h : FlagList.SameBut destinationFlags d.placed.1 d'.placed.1) (s : Session) :
    remembering d' s = remembering d s ∧ FlagList.SameBut destinationFlags
      (d.filled s.settings s.servers) (d'.filled s.settings s.servers) := by
  obtain ⟨hsettings, hrefreshed, hfilled⟩ := Memory.reconcile_congr h (by decide) s.settings s.servers
  refine ⟨?_, hfilled⟩
  unfold remembering
  dsimp only
  rw [hsettings, hrefreshed]

end CommandLine

namespace App

variable {app : App} {argv argv' : List String} {p p' q q' : Execution} {prepared prepared' : Prepared}

/-- **The client for the second host carries nothing of the first one, and the other way round.**

    Take two command lines of a tool, each of which leads to a command that is ready with its clients. Let the
    lines give the same to all flags but those for the first host, and the executions differ in nothing but the
    remembered target, and where it is kept. Then the clients for the second host are the same. And if the lines
    give the same to all flags but those for the second host, then in one execution the clients for the first
    host are the same. -/
theorem clients_apart (h : (app.parse argv).perform p = (.ok (some prepared), q))
    (h' : (app.parse argv').perform p' = (.ok (some prepared'), q')) :
    (CommandLine.SameBut sourceFlags app argv argv' → p.SameButTarget p' →
      Option.Rel Place.SameButTarget (CommandLine.place? app argv p) (CommandLine.place? app argv' p') →
      prepared'.invocation.destination = prepared.invocation.destination) ∧
    (CommandLine.SameBut destinationFlags app argv argv' → p' = p →
      prepared'.invocation.client = prepared.invocation.client) := by
  obtain ⟨line, r, hline, hsetup, hclient, hdestination⟩ := CommandLine.clients_of_read (read_of_parse h)
  obtain ⟨line', r', hline', hsetup', hclient', hdestination'⟩ := CommandLine.clients_of_read (read_of_parse h')
  refine ⟨fun hlines hpp' hplaces => ?_, fun hlines hpp' => ?_⟩
  · obtain ⟨hglobals, hflags⟩ := hlines line line' hline hline'
    rw [CommandLine.place?_of_line? hline, CommandLine.place?_of_line? hline',
      Setup.place?_congr hglobals (by decide)] at hplaces
    rw [Setup.run_congr hglobals (by decide)] at hsetup'
    have hends := Setup.sameButTarget_of_run hpp' hplaces hsetup hsetup'
    rw [hdestination, hdestination']
    refine Connect.destinationFor_congr ?_ (CommandLine.sameBut_filled_source hflags _ _ _ _)
      (by decide)
    rw [CommandLine.masked_remembering, CommandLine.masked_remembering]
    exact hends
  · subst hpp'
    obtain ⟨hglobals, hflags⟩ := hlines line line' hline hline'
    rw [Setup.run_congr hglobals (by decide), hsetup] at hsetup'
    cases hsetup'
    obtain ⟨hsession, hfilled⟩ := CommandLine.remembering_congr hflags r.session
    rw [hclient, hclient', hsession]
    exact Connect.clientFor_congr hfilled (by decide) _

/-- A command with two hosts. -/
def copy : Command :=
  { name := "copy", flags := [.ofText "host" "" ["h"] { initClient := true, remembered := true },
      .ofText "service" "" ["s"] { remembered := true }, .ofText "host2" "" ["d"] {},
      .ofText "service2" "" [] {}] }

/-- A tool with one command that has two hosts. -/
def copying : App := { name := "ngsi", commands := [copy] }

/-- An execution whose configuration is in memory, with a target remembered. -/
def withTarget (host tenant : String) : Execution :=
  { session := { store := some (.inMemory { settings := { host, tenant } }) } }

/-- A command is ready if there is one in what reading comes to. -/
theorem exists_ready {r : Except Fault (Option Prepared) × Execution} (h : r.1.toOption.join.isSome = true) :
    ∃ prepared q, r = (.ok (some prepared), q) := by
  rcases r with ⟨_ | _ | prepared, q⟩
  · cases h
  · cases h
  · exact ⟨prepared, q, rfl⟩

/-- Another target is given and remembered, and the client for the second host is the same; another second host
    is given, and the client for the first one is the same. -/
theorem clients_apart_copy :
    let argv := ["ngsi", "copy", "-h", "http://alpha", "-s", "openiot", "-d", "http://gamma"]
    let p := withTarget "http://beta" "smart"
    ∃ prepared q prepared₁ q₁ prepared₂ q₂,
      (copying.parse argv).perform p = (.ok (some prepared), q) ∧
      (copying.parse ["ngsi", "copy", "-h", "http://beta", "-d", "http://gamma"]).perform (withTarget "" "") =
        (.ok (some prepared₁), q₁) ∧
      (copying.parse ["ngsi", "copy", "-h", "http://alpha", "-s", "openiot", "-d", "http://delta",
        "--service2", "smart"]).perform p = (.ok (some prepared₂), q₂) ∧
      prepared₁.invocation.destination = prepared.invocation.destination ∧
      prepared₂.invocation.client = prepared.invocation.client := by
  intro argv p
  obtain ⟨prepared, q, h⟩ := exists_ready
    (by decide +kernel : ((copying.parse argv).perform p).1.toOption.join.isSome = true)
  obtain ⟨prepared₁, q₁, h₁⟩ := exists_ready (by decide +kernel : ((copying.parse ["ngsi", "copy", "-h",
    "http://beta", "-d", "http://gamma"]).perform (withTarget "" "")).1.toOption.join.isSome = true)
  obtain ⟨prepared₂, q₂, h₂⟩ := exists_ready (by decide +kernel : ((copying.parse ["ngsi", "copy", "-h",
    "http://alpha", "-s", "openiot", "-d", "http://delta", "--service2",
    "smart"]).perform p).1.toOption.join.isSome = true)
  refine ⟨prepared, q, prepared₁, q₁, prepared₂, q₂, h, h₁, h₂, ?_, ?_⟩
  · refine (clients_apart h h₁).1 (CommandLine.sameBut_of_filter (by decide +kernel)) rfl ?_
    obtain ⟨line, hline⟩ := CommandLine.line?_of_perform_read (read_of_parse h)
    obtain ⟨line₁, hline₁⟩ := CommandLine.line?_of_perform_read (read_of_parse h₁)
    rw [CommandLine.place?_of_line? hline, CommandLine.place?_of_line? hline₁]
    exact .some ⟨_, _, rfl, rfl, rfl, rfl, rfl⟩
  · exact (clients_apart h h₂).2 (CommandLine.sameBut_of_filter (by decide +kernel)) rfl

end App

end BrokerCli
