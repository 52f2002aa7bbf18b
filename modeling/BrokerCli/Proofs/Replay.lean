import BrokerCli.Proofs.Bare
import BrokerCli.Proofs.Forward

/-!
# Remember and replay

What `resolve` is told once need not be told again: a run of it remembers host, tenant, scope and token,
and a run without any option then makes the same client from the memory alone:

* `Tool.Recalls` -- the memory recalls a client: it has all that is needed to make this one;
* `Tool.recalls_of_read` -- what a run of `resolve` is about to save recalls its client;
* `Tool.read_bare` -- where the memory recalls a client, a run without any option is ready with it, and
  about to save what was found;
* `Tool.replayed_of_turn` -- the two runs, one after the other.
-/

namespace BrokerCli

open Grammar

namespace Tool

open Resolve (fromMemory)

/-- Before a command line is read, no option of a tool is given. -/
theorem isSet_globals (app : App) (name : String) : (Globals.flags app).isSet name = false := by
  refine FlagList.isSet_of_all_open (fun f hf => ?_) name
  rcases List.mem_append.1 hf with hf | hf
  · obtain ⟨g, _, rfl⟩ := List.mem_map.1 hf
    rfl
  · rcases List.mem_cons.1 hf with rfl | hf
    · rfl
    · rw [List.mem_singleton.1 hf]
      rfl

theorem reads_bare (program : String) : Split.Reads app ⟨program, [], Resolve.command, []⟩
    (.declare (app.flags ++ [.help, .version])) (.start Resolve.command) := by
  have htrigger : Completion.trigger ∉ ["resolve"] := by decide
  have hoption : OptionToken.ofArgument? "resolve" = none := by decide
  have hhelp : CommandLine.asksHelp "resolve" = false := by decide
  have hleaf : Resolve.command.isGroup = false := rfl
  exact ⟨htrigger, rfl, .nil _ _, hoption, hhelp, rfl, fun h => Bool.noConfusion (hleaf.symm.trans h),
    .done _⟩

/-- The command without any option is read to its end. -/
theorem line?_bare (program : String) : CommandLine.line? app [program, "resolve"] =
    some ⟨program, Globals.flags app, Descent.start Resolve.command⟩ := by
  have hline := CommandLine.line?_of_reads (reads_bare program)
  rw [CommandLine.flags_declare_globals, Walked.descent_start] at hline
  exact hline

/-- There is one command of this name. -/
theorem resolve_of_path : ∀ levels ∈ paths, levels.map (·.name) = ["resolve"] →
    levels = [Resolve.command] := by
  have hother {levels : List Command} (h : levels.map (·.name) ≠ ["resolve"]) :
      levels.map (·.name) = ["resolve"] → levels = [Resolve.command] := fun h' => absurd h' h
  exact List.forall_mem_cons.2 ⟨fun _ => rfl, List.forall_mem_cons.2 ⟨hother (by decide),
    List.forall_mem_cons.2 ⟨hother (by decide), List.forall_mem_cons.2 ⟨hother (by decide),
    List.forall_mem_cons.2 ⟨hother (by decide), List.forall_mem_cons.2 ⟨hother (by decide),
    List.forall_mem_cons.2 ⟨hother (by decide), List.forall_mem_cons.2 ⟨hother (by decide),
    List.forall_mem_cons.2 ⟨hother (by decide), List.forall_mem_nil _⟩⟩⟩⟩⟩⟩⟩⟩⟩

variable {d checked : Descent} {host : String} {features : TextFeatures}

/-- **The session behind an accepted line that names a host**, when the memory is on: the host is taken,
    and the memory is refreshed, to be written back. -/
theorem session_of_hosted (hh : Hosted d checked host features) {session : Session}
    (hflags : checked.flags = d.filled session.settings session.servers)
    (hon : session.settings.usePrevious = true) :
    (CommandLine.remembering d session).taking host = { session with
      settings := Memory.refresh checked.flags session.settings, updated := true, host } := by
  obtain ⟨f, value, hf⟩ := hh.asked
  obtain ⟨g, hg, hset⟩ := hh.found
  have hrefresh : (Memory.reconcile d.placed.1 session.settings session.servers).settings =
      Memory.refresh checked.flags session.settings := by
    rw [hflags]
    exact Memory.settings_reconcile hon hf hh.remembered
  have hrefreshed : (Memory.reconcile d.placed.1 session.settings session.servers).refreshed = true := by
    unfold Memory.reconcile Memory.reconcileWith
    simp only [hon, if_true, hf, hh.remembered]
    split <;> rfl
  have hhost : (Memory.refresh checked.flags session.settings).host = host :=
    Memory.kept_of_textFlag? hg hset
  have hnamed : host.isEmpty = false := by
    rw [Bool.eq_false_iff, Ne, String.isEmpty_iff]
    exact hh.named
  unfold Session.taking CommandLine.remembering
  simp only [hnamed, Bool.false_eq_true, if_false, hrefresh, hrefreshed, hhost, if_true, Bool.or_true]

variable {s : Settings} {servers : ServerTable} {extra : Dictionary Json} {b : Place}

theorem hosted_bare (h : s.host ≠ "") : Hosted (Descent.start Resolve.command)
    { Descent.start Resolve.command with flags := fromMemory s } s.host
    { initClient := true, remembered := true } where
  asked := ⟨_, _, rfl⟩
  found := Resolve.textFlag?_host h
  named := h
  remembered := rfl
  slots := .inl ⟨rfl, Descent.placed_of_no_required rfl⟩

/-- The checks leave a session whose memory fills the command as it is, but that it is to be saved. -/
theorem session_bare (hhost : s.host ≠ "") (hon : s.usePrevious = true) {session : Session}
    (hs : session.settings = s)
    (hverdict : (Descent.start Resolve.command).verdict session.settings session.servers =
      .ok { Descent.start Resolve.command with flags := fromMemory s }) :
    (CommandLine.remembering (Descent.start Resolve.command) session).taking s.host =
      { session with updated := true, host := s.host } := by
  subst hs
  rw [session_of_hosted (hosted_bare hhost)
    (congrArg Descent.flags (Descent.eq_of_verdict hverdict)) hon]
  simp only [Resolve.refresh_fromMemory hhost]

/-- The memory recalls a client: with nothing but what is remembered, `resolve` makes this one. -/
structure Recalls (servers : ServerTable) (s : Settings) (c : Client) : Prop where
  on : s.usePrevious = true
  leveled : s.Leveled
  named : s.host ≠ ""
  endpoint : Client.endpoint servers s.host = .ok (c.url, c.server)
  interface : c.ngsiType = .ofRecord c.server.ngsiType
  slots : ∀ slot : Slot, slot.ofClient c = slot.ofSettings s
  fetches : c.skipGetToken = false
  gate : Connect.gate Resolve.command.serverList c = none

/-- What the command without any option is ready with: it has the client of an endpoint. -/
def readyBare (program : String) (s : Settings) (options : ClientOptions) (url : String)
    (server : Server) : Prepared where
  command := Resolve.command
  category := Resolve.command.category
  invocation := { CommandLine.invocation program (CommandLine.belowTool (Globals.flags app))
    { Descent.start Resolve.command with flags := fromMemory s } with
      serverList := Resolve.command.serverList
      client := some (.ofServer options (Connect.request (fromMemory s) s.host false false) url server) }

variable {c : Client}

/-- Any client of the same endpoint works with the command, too. -/
theorem Recalls.gate_ofServer (h : Recalls servers s c) (options : ClientOptions) (r : ClientRequest) :
    Connect.gate Resolve.command.serverList (.ofServer options r c.url c.server) = none := by
  have hgate := h.gate
  unfold Connect.gate Client.gateType at hgate ⊢
  rw [h.interface] at hgate
  exact hgate

/-- The client that is made from the memory has its slots, where the server has none. -/
theorem Recalls.slots_ofServer (h : Recalls servers s c) (hserver : ∀ slot : Slot, slot.ofServer c.server = "")
    (options : ClientOptions) (slot : Slot) : slot.ofClient (.ofServer options
      (Connect.request (fromMemory s) s.host false false) c.url c.server) = slot.ofClient c := by
  have hasked : slot.ofClient (.ofServer options (Connect.request (fromMemory s) s.host false false) c.url
      c.server) = ((fromMemory s).textIfSet slot.flag).getD (slot.ofServer c.server) := by
    cases slot <;> rfl
  rw [hasked, hserver, Resolve.textIfSet_slot, h.slots]

/-- Where the memory recalls a client, the command is given it. -/
theorem connect_bare (h : Recalls servers s c) {p : Execution} {session : Session}
    (htaken : p.session.taking s.host = session) (hfactory : session.factory = .registry)
    (hservers : session.servers = servers) (hhost : session.host = s.host) (program : String) :
    ∃ q, (CommandLine.connect program (CommandLine.belowTool (Globals.flags app))
        { Descent.start Resolve.command with flags := fromMemory s }).perform p =
      (.ok (readyBare program s session.clientOptions c.url c.server), q) ∧ q.session = session := by
  subst htaken
  have hmake : (p.session.taking s.host).factory.make (p.session.taking s.host).servers
      (p.session.taking s.host).clientOptions
      (Connect.request (fromMemory s) (p.session.taking s.host).host false false) =
      .ok (.ofServer (p.session.taking s.host).clientOptions
        (Connect.request (fromMemory s) s.host false false) c.url c.server) := by
    rw [hfactory, hservers, hhost]
    exact Client.make_of_endpoint h.endpoint
  obtain ⟨f, hf, _⟩ := Resolve.textFlag?_host h.named
  let unconnected : Invocation :=
    { (readyBare program s (p.session.taking s.host).clientOptions c.url c.server).invocation with
      client := none }
  obtain ⟨q, hrun, hq⟩ := Connect.perform_run_of_host (i := unconnected) hf rfl
    (Resolve.textIfSet_second s) hmake (h.gate_ofServer _ _)
  exact ⟨q, CommandLine.connect_of_run hrun, hq⟩

/-- **The command without any option has all that it needs from the memory**: over a memory that recalls
    a client it is ready with it, and what it is about to save is what was found. -/
theorem read_bare (hc : b.held? = some ⟨s, servers, extra⟩) (h : Recalls servers s c)
    (hserver : ∀ server, servers.lookup s.host false = .ok server →
      server.tenant = "" ∧ server.scope = "") (program : String) (around : Execution) :
    let turn : Turn := ⟨[program, "resolve"], around⟩
    ∃ options q, (CommandLine.read app turn.argv).perform (turn.start b) =
        (.ok (some (readyBare program s options c.url c.server)), q) ∧
      q.session.configuration = ⟨s, servers, extra⟩ ∧ q.session.batch = false ∧
      q.session.updated = true := by
  intro turn
  obtain ⟨r, hsetup, hsettings, hbatch⟩ := Setup.perform_run_of_open (p := turn.start b) app.version
    (isSet_globals app) ⟨rfl, rfl⟩ hc rfl h.leveled
  obtain ⟨remark, hload⟩ := Place.held?_eq_some_iff.1 hc
  have hloaded := Setup.loaded_of_run ⟨rfl, rfl⟩ hload hsetup
  have hverdict : (Descent.start Resolve.command).verdict r.session.settings r.session.servers =
      .ok { Descent.start Resolve.command with flags := fromMemory s } := by
    rw [hsettings, hloaded.servers]
    exact Resolve.verdict_bare h.on h.named hserver
  obtain ⟨u, hu, hread⟩ := CommandLine.read_of_stages (line?_bare program) hsetup hverdict
  have htaken := session_bare h.named h.on hsettings hverdict
  rw [← hu] at htaken
  obtain ⟨q, hconnect, hq⟩ := connect_bare h htaken hloaded.factory hloaded.servers rfl program
  refine ⟨_, q, hread _ _ hconnect, ?_, ?_, ?_⟩
  · show Configuration.mk q.session.settings q.session.servers q.session.extra = _
    rw [hq, hsettings, hloaded.servers, hloaded.extra]
  · rw [hq]
    exact hbatch
  · rw [hq]

section Declared

variable {fs : FlagList}

/-- The flags of a line that comes to `resolve` are those that the command declares, whatever is given
    to them. -/
theorem declarations_of_verdict {split : Split} {globals : Ledger} {w : Walked}
    (hreads : split.Reads app globals w) (hlevels : w.levels = [Resolve.command])
    (hverdict : w.descent.verdict s servers = .ok checked) :
    checked.flags.map Flag.declaration = (Walked.declared Resolve.command).map Flag.declaration := by
  obtain ⟨_, _, hsame, _⟩ := Descent.demands_of_verdict hverdict
  have hchecked := hsame.trans (hreads.walked.declarations (Walked.declarations_start split.command))
  rw [hlevels] at hchecked
  exact hchecked

variable (h : fs.map Flag.declaration = (Walked.declared Resolve.command).map Flag.declaration)
include h

/-- The host that `resolve` asks for gets a client, and is remembered. -/
theorem features_of_declarations {g : Flag} (hg : fs.textFlag? "host" = some (g, host, features)) :
    features = { initClient := true, remembered := true } := by
  have hget : (Walked.declared Resolve.command).get? "host" = some .hostRequired := rfl
  obtain ⟨_, _, hdeclared, _⟩ := textFlag?_of_kind h hget rfl
  rw [hg] at hdeclared
  cases hdeclared
  rfl

/-- What `resolve` is given for a slot is kept, and nothing else. -/
theorem kept_of_declarations (slot : Slot) :
    Memory.kept fs slot.flag = (fs.textIfSet slot.flag).getD "" := by
  obtain ⟨f, features, hf, hkind⟩ : ∃ f features,
      (Walked.declared Resolve.command).get? slot.flag = some f ∧
        f.content.kind = .text "" features := by
    cases slot <;> exact ⟨_, _, rfl, rfl⟩
  obtain ⟨_, _, hflag, _⟩ := textFlag?_of_kind h hf hkind
  exact Memory.kept_eq_getD _ hflag

end Declared

variable {turn : Turn} {prepared : Prepared} {q : Execution}

/-- A line whose chain is that of `resolve` comes to this command. -/
theorem command_of_chain {split : Split} {globals : Ledger} {w : Walked} {r : Execution}
    (hread : (CommandLine.read app turn.argv).perform (turn.start b) = (.ok (some prepared), q))
    (hreads : split.Reads app globals w)
    (haccepts : turn.Accepts b ⟨split.program, globals.flags, w.descent⟩ r checked)
    (hchain : prepared.invocation.chain = ["resolve"]) :
    w.levels = [Resolve.command] ∧ w.command = Resolve.command := by
  have hlevels : w.levels = [Resolve.command] :=
    resolve_of_path _ (levels_mem_paths hreads)
      ((CommandLine.chain_of_read hread haccepts.read).symm.trans hchain)
  obtain ⟨hfirst, hbelow⟩ := List.cons_eq_cons.1 hlevels
  refine ⟨hlevels, ?_⟩
  rw [Walked.command, hbelow, hfirst]
  rfl

/-- **What a run of `resolve` is about to save recalls its client**, unless the server of the client has
    a tenant, scope or token of its own. -/
theorem recalls_of_read (hc : b.held? = some ⟨s, servers, extra⟩) (hon : s.usePrevious = true)
    (hread : (CommandLine.read app turn.argv).perform (turn.start b) = (.ok (some prepared), q))
    (hchain : prepared.invocation.chain = ["resolve"]) (hbatch : q.session.batch = false)
    (hclient : prepared.invocation.client = some c) (hserver : ∀ slot : Slot, slot.ofServer c.server = "") :
    Recalls servers q.session.settings c ∧ prepared.command = Resolve.command ∧
      q.session.settings.host = q.session.host ∧ q.session.servers = servers ∧
      q.session.extra = extra ∧ q.session.updated = true := by
  obtain ⟨split, globals, w, r, checked, hreads, haccepts, hcommand, _, hstages⟩ :=
    connected_of_read hread
  have hgate := CommandLine.gate_of_read hread hclient
  have hloaded := haccepts.loaded hc
  obtain ⟨hlevels, hresolve⟩ := command_of_chain hread hreads haccepts hchain
  rw [hresolve] at hcommand
  rcases hstages with ⟨_, hnone, _⟩ | ⟨host, features, hh, hq, hno, hmade⟩
  · rw [hnone] at hclient
    cases hclient
  have hprev : r.session.settings.usePrevious = true := by
    have hmode : r.session.batch = false := by
      rw [hq, Session.batch_taking] at hbatch
      exact hbatch
    obtain ⟨_, _, _, hsettings⟩ := Setup.settings_of_run ⟨rfl, rfl⟩ hc haccepts.setup
    rw [hsettings, hmode]
    exact hon
  rw [session_of_hosted hh haccepts.flags_eq hprev] at hq
  have hdeclared := declarations_of_verdict hreads hlevels haccepts.verdict
  obtain ⟨g, hg, hset⟩ := hh.found
  obtain rfl := features_of_declarations hdeclared hg
  obtain ⟨c', hc', hmake⟩ := hmade rfl
  cases hclient.symm.trans hc'
  rw [hq, hloaded.factory, hloaded.servers] at hmake
  obtain ⟨hendpoint, hc⟩ := Client.eq_of_make hmake
  have hhost : q.session.settings.host = host := by
    rw [hq]
    exact Memory.kept_of_textFlag? hg hset
  have hslots (slot : Slot) : slot.ofClient c = slot.ofSettings q.session.settings := by
    rw [(Slot.ofClient_of_resolve (Client.resolve_of_make hmake) slot).2, Slot.ofRequest_request,
      hserver, hq, Slot.ofSettings_refresh, kept_of_declarations hdeclared]
  have hleveled := Setup.leveled_of_run haccepts.setup
  have hrecalls : Recalls servers q.session.settings c :=
    { on := by rw [hq]; exact hprev
      leveled := by rw [hq]; exact ⟨hleveled.stderr, hleveled.syslog⟩
      named := by rw [hhost]; exact hh.named
      endpoint := by rw [hhost]; exact hendpoint
      interface := by rw [hc]; rfl
      slots := hslots
      fetches := by rw [hc]; rfl
      gate := by rw [← hcommand]; exact hgate }
  refine ⟨hrecalls, hcommand, ?_, ?_, ?_, ?_⟩
  · rw [hhost, hq]
  · rw [hq]
    exact hloaded.servers
  · rw [hq]
    exact hloaded.extra
  · rw [hq]

/-- A run that comes to `resolve`, with a client, succeeds, and saves the memory if it is on. -/
theorem saves_of_read
    (hread : (CommandLine.read app turn.argv).perform (turn.start b) = (.ok (some prepared), q))
    (hcommand : prepared.command = Resolve.command) (hclient : prepared.invocation.client = some c)
    (hbatch : q.session.batch = false) (hupdated : q.session.updated = true)
    (hon : q.session.settings.usePrevious = true) :
    ((App.run app turn.argv).perform (turn.start b)).1 = .ok () ∧
      turn.leaves b = b.save q.session.configuration := by
  have hat := CommandLine.stays_read app turn.argv (turn.start b) b ⟨rfl, rfl⟩
  rw [hread] at hat
  obtain ⟨hresult, hleft⟩ := App.at_dispatch_of_shows (a := Resolve.describe)
    (by rw [hcommand]; rfl) (by rw [hcommand]; rfl) Resolve.shows_describe hat hbatch hupdated hon
  refine ⟨?_, leaves_of_at ?_⟩
  · rw [App.perform_run, hread]
    refine hresult.trans ?_
    rw [Resolve.describe, hclient]
    rfl
  · rw [finish_of_read hread]
    exact hleft

/-- **What was told to `resolve` once need not be told again.**

    Take a place that works and at which the memory is on, and a run over it that comes to `resolve` with
    a client and is no batch run, whatever options it has. It succeeds, and what it saves is found.
    If neither the server that is registered for the host nor the one of the client has a tenant, scope
    or token of its own, then a run over what is left, of `resolve` without any option, succeeds too, and
    its client is the same: in URL, server, interface, tenant, scope and token. What is found afterwards
    is what the first run has saved. -/
theorem replayed_of_turn {first : Turn} (hc : b.held? = some ⟨s, servers, extra⟩)
    (hw : b.Works servers extra) (hon : s.usePrevious = true)
    (hread : (CommandLine.read app first.argv).perform (first.start b) = (.ok (some prepared), q))
    (hchain : prepared.invocation.chain = ["resolve"]) (hbatch : q.session.batch = false)
    (hclient : prepared.invocation.client = some c)
    (hregistered : ∀ server, servers.lookup q.session.host false = .ok server →
      ∀ slot : Slot, slot.ofServer server = "")
    (hserver : ∀ slot : Slot, slot.ofServer c.server = "") (program : String) (around : Execution) :
    let second : Turn := ⟨[program, "resolve"], around⟩
    let left := first.leaves b
    ((App.run app first.argv).perform (first.start b)).1 = .ok () ∧
      left.held? = some q.session.configuration ∧
      ((App.run app second.argv).perform (second.start left)).1 = .ok () ∧
      (∃ prepared' q' c',
        (CommandLine.read app second.argv).perform (second.start left) = (.ok (some prepared'), q') ∧
        prepared'.invocation.chain = ["resolve"] ∧ prepared'.invocation.client = some c' ∧
        c'.url = c.url ∧ c'.server = c.server ∧ c'.ngsiType = c.ngsiType ∧
        (∀ slot : Slot, slot.ofClient c' = slot.ofClient c) ∧ c'.skipGetToken = c.skipGetToken) ∧
      (second.leaves left).held? = left.held? := by
  intro second left
  obtain ⟨hrecalls, hcommand, hhost, hservers, hextra, hupdated⟩ :=
    recalls_of_read hc hon hread hchain hbatch hclient hserver
  obtain ⟨hok, hleft⟩ := saves_of_read hread hcommand hclient hbatch hupdated hrecalls.on
  have hsaved : q.session.configuration = ⟨q.session.settings, servers, extra⟩ := by
    rw [Session.configuration, hservers, hextra]
  have hheld : left.held? = some ⟨q.session.settings, servers, extra⟩ := by
    show (first.leaves b).held? = _
    rw [hleft, hsaved]
    exact hw.held _
  have hworks : left.Works servers extra := by
    show (first.leaves b).Works servers extra
    rw [hleft, hsaved]
    exact hw.save _
  have hslots : ∀ server, servers.lookup q.session.settings.host false = .ok server →
      server.tenant = "" ∧ server.scope = "" := by
    intro server hlookup
    rw [hhost] at hlookup
    exact ⟨hregistered server hlookup .tenant, hregistered server hlookup .scope⟩
  obtain ⟨options, q', hread', hsaved', hbatch', hupdated'⟩ :=
    read_bare hheld hrecalls hslots program around
  have hon' : q'.session.settings.usePrevious = true := by
    rw [show q'.session.settings = q.session.settings from congrArg Configuration.settings hsaved']
    exact hrecalls.on
  obtain ⟨hok', hleft'⟩ := saves_of_read hread' rfl rfl hbatch' hupdated' hon'
  refine ⟨hok, by rw [hheld, hsaved], hok', ⟨_, q', _, hread', rfl, rfl, rfl, rfl,
    hrecalls.interface.symm, hrecalls.slots_ofServer hserver options, hrecalls.fetches.symm⟩, ?_⟩
  rw [hheld, hleft', hsaved']
  exact hworks.held _

/-- The second run has the alias, the tenant and the token from the first one. -/
theorem replayed_of_turn_orion :
    let orion : Server := { serverType := "broker", serverHost := "http://localhost:1026" }
    let servers : ServerTable := .ofList [("orion", orion)]
    let b : Place := ⟨.inMemory { servers }, {}⟩
    let first : Turn := { argv := ["ngsi", "resolve", "-h", "orion", "--service", "smart",
      "--oAuthToken", "secret"] }
    let second : Turn := { argv := ["ngsi", "resolve"] }
    let left := first.leaves b
    ∃ q, ((CommandLine.read app first.argv).perform (first.start b)).2 = q ∧
      left.held? = some q.session.configuration ∧
      ((App.run app second.argv).perform (second.start left)).1 = .ok () ∧
      (∃ prepared' q' c',
        (CommandLine.read app second.argv).perform (second.start left) = (.ok (some prepared'), q') ∧
        prepared'.invocation.client = some c' ∧ c'.url = "http://localhost:1026" ∧ c'.server = orion ∧
        c'.tenant = "smart" ∧ c'.token = "secret") ∧
      (second.leaves left).held? = left.held? := by
  intro orion servers b first second left
  have hready : ((CommandLine.read app first.argv).perform (first.start b)).1.toOption.join.map
      (fun prepared => (prepared.invocation.chain, prepared.invocation.client)) =
      some (["resolve"], some (.ofServer {}
        { host := "orion", tenant := some "smart", token := some "secret" } "http://localhost:1026"
        orion)) := by
    decide +kernel
  have hsession : ((CommandLine.read app first.argv).perform (first.start b)).2.session.batch = false ∧
      ((CommandLine.read app first.argv).perform (first.start b)).2.session.host = "orion" := by
    decide +kernel
  have hlookup : (servers.lookup "orion" false).toOption = some orion := by decide +kernel
  have horion : ∀ slot : Slot, slot.ofServer orion = "" := fun slot => by cases slot <;> rfl
  rcases hr : (CommandLine.read app first.argv).perform (first.start b) with ⟨_ | _ | prepared, q⟩
  · simp [hr, Except.toOption] at hready
  · simp [hr, Except.toOption] at hready
  · rw [hr] at hready hsession
    obtain ⟨hchain, hclient⟩ := Prod.mk.inj (Option.some.inj hready)
    have hregistered : ∀ server, servers.lookup q.session.host false = .ok server →
        ∀ slot : Slot, slot.ofServer server = "" := by
      intro server hserver
      rw [hsession.2] at hserver
      rw [hserver] at hlookup
      cases hlookup
      exact horion
    have hworks : b.Works servers .empty := Place.works_inMemory _ 0 {} servers .empty
    obtain ⟨_, hheld, hok, ⟨prepared', q', c', hread', _, hclient', hurl, hserver, _, hslots, _⟩, hkept⟩ :=
      replayed_of_turn (s := {}) rfl hworks rfl hr hchain hsession.1 hclient hregistered horion "ngsi" {}
    exact ⟨q, rfl, hheld, hok, ⟨prepared', q', c', hread', hclient', hurl, hserver, hslots .tenant,
      hslots .token⟩, hkept⟩

end Tool

end BrokerCli
