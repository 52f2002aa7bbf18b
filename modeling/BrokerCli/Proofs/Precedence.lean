import BrokerCli.Proofs.Batch
import BrokerCli.Proofs.Replay
import BrokerCli.Proofs.Retention

/-!
# The precedence of tenant and scope

What a command line leaves open of tenant and scope comes from the server that the host means, and from
the memory only after that. But the server is asked for twice, and by two names: before the client is made,
by the host as it stands; and for the client, by what stands before a path or a query, unless the host is a
URL. Where only the second name is registered, the memory comes before the server:

* `Slot.byPrecedence` -- the value of a slot, from its sources in their order;
* `Slot.recalled` -- what is remembered in a slot with a host;
* `Memory.value_reconcile` -- the order in which the memory fills a slot;
* `ServerTable.entry?`, `Client.entry?` -- the two names. Where they agree, there is one server
  (`Slot.registered_of_endpoint`);
* `Tool.value_of_builds` -- the order in which a slot of a client is filled;
* `Tool.precedence_of_client` -- hence the precedence is kept wherever the names agree;
* `Tool.memory_before_server` -- and it is not where they do not.
-/

namespace BrokerCli

open Grammar

/-! ## 1. Sources in their order -/

namespace Slot

/-- What a source has, if it has anything. -/
def source? (v : String) : Option String := if v = "" then none else some v

/-- The value of a slot: what is given, or else what the first source has that has anything. -/
def byPrecedence (given : Option String) (sources : List String) : String :=
  (given.or (sources.findSome? source?)).getD ""

/-- What is remembered in a slot with a host; nothing, if another host is remembered. -/
def recalled (s : Settings) (host : String) (slot : Slot) : String :=
  if s.host = host then slot.ofSettings s else ""

theorem recalled_congr {s t : Settings} (hhost : t.host = s.host)
    (hslots : ∀ slot : Slot, slot.ofSettings t = slot.ofSettings s) (host : String) (slot : Slot) :
    slot.recalled t host = slot.recalled s host := by
  unfold recalled
  rw [hhost, hslots]

theorem getD_source? (v : String) : (source? v).getD "" = v := by
  unfold source?
  split
  · rename_i h
    exact h.symm
  · rfl

/-- The last source is what a value is left to that no other source has. -/
theorem getD_sources (given : Option String) (sources : List String) (v : String) :
    (given.or (sources.findSome? source?)).getD v = byPrecedence given (sources ++ [v]) := by
  unfold byPrecedence
  rw [List.findSome?_append, List.findSome?_singleton, ← Option.or_assoc]
  cases given.or (sources.findSome? source?) with
  | none => exact (getD_source? v).symm
  | some _ => rfl

theorem sources_pair (v v' : String) :
    [v, v'].findSome? source? = (source? v).or (source? v') := by
  rw [List.findSome?_cons, List.findSome?_singleton]
  cases source? v <;> rfl

/-- **When it makes no difference that the memory comes before the server of the client.** -/
theorem byPrecedence_swap_iff {given : Option String} {named kept served : String} :
    byPrecedence given [named, kept, served] = byPrecedence given [served, kept] ↔
      given ≠ none ∨ named = served ∨ (named = "" ∧ (kept = "" ∨ kept = served)) ∨
        (served = "" ∧ named = kept) := by
  cases given with
  | some v => exact iff_of_true rfl (.inl (Option.some_ne_none v))
  | none =>
    by_cases hn : named = "" <;> by_cases hs : served = "" <;> by_cases hk : kept = "" <;>
      simp [byPrecedence, source?, hn, hs, hk, eq_comm]

end Slot

namespace Memory

variable {fs : FlagList} {name value old : String} {f : Flag} {features : TextFeatures} {s : Settings}
  {servers : ServerTable} {slot : Slot}

/-- What a flag for texts holds when it was filled: what it held before, or else the value. -/
theorem textIfSet_fill (value : String) (hf : (fs.textFlag? name).isSome = true) :
    (fill fs name value).textIfSet name = (fs.textIfSet name).or (Slot.source? value) := by
  obtain ⟨⟨f, old, features⟩, hf⟩ := Option.isSome_iff_exists.1 hf
  have hheld := FlagList.textIfSet_of_textFlag? hf
  have hget := get?_fill value hf
  by_cases hset : f.isSet = true
  · rw [if_pos (.inr hset)] at hget
    rw [FlagList.textIfSet_congr (hget.trans (FlagList.textFlag?_eq_some_iff.1 hf).1.symm), hheld,
      if_pos hset]
    rfl
  · rw [hheld, if_neg hset, Option.none_or, Slot.source?]
    by_cases hv : value = ""
    · rw [if_pos hv, hv, fill_empty, hheld, if_neg hset]
    · rw [if_neg (not_or.2 ⟨hv, hset⟩)] at hget
      rw [if_neg hv]
      exact FlagList.textIfSet_of_textFlag? (FlagList.textFlag?_eq_some_iff.2 ⟨hget, rfl⟩)

theorem isSome_textFlag?_fill (value : String) (hf : (fs.textFlag? name).isSome = true) :
    ((fill fs name value).textFlag? name).isSome = true := by
  obtain ⟨⟨f, old, features⟩, hf⟩ := Option.isSome_iff_exists.1 hf
  have hget := get?_fill value hf
  have hcontent := (FlagList.textFlag?_eq_some_iff.1 hf).2
  split at hget
  · exact Option.isSome_iff_exists.2 ⟨_, FlagList.textFlag?_eq_some_iff.2 ⟨hget, hcontent⟩⟩
  · exact Option.isSome_iff_exists.2 ⟨_, FlagList.textFlag?_eq_some_iff.2 ⟨hget, rfl⟩⟩

/-- **The order in which the memory fills tenant and scope**: from the server whose alias is the host as it
    stands, and then from what is remembered with this host. -/
theorem textIfSet_reconcile_slot {g : Flag} {host : String} (servers : ServerTable)
    (hon : s.usePrevious = true) (hf : fs.textFlag? "host" = some (f, value, features))
    (hr : features.remembered = true)
    (hg : (reconcile fs s servers).flags.textFlag? "host" = some (g, host, features))
    (hset : g.isSet = true) (hslot : slot ≠ .token) (hflag : (fs.textFlag? slot.flag).isSome = true) :
    (reconcile fs s servers).flags.textIfSet slot.flag = (fs.textIfSet slot.flag).or
      ([slot.registered servers host features.verbatim, slot.recalled s host].findSome? Slot.source?) := by
  -- the host in the end is the one that was given, or else the remembered one
  have hhost : f.isSet = true ∧ value = host ∨ f.isSet = false ∧ s.host = host ∧ s.host ≠ "" := by
    obtain ⟨hget, hcontent⟩ := FlagList.textFlag?_eq_some_iff.1 hg
    rw [get?_reconcile_host s servers hf] at hget
    split at hget
    · rename_i hopen
      obtain ⟨_, _, hopen, hnamed⟩ := hopen
      cases Option.some.inj hget
      exact .inr ⟨hopen, (FlagContent.text.inj hcontent).1, hnamed⟩
    · cases Option.some.inj hget
      rw [(FlagList.textFlag?_eq_some_iff.1 hf).2] at hcontent
      exact .inl ⟨hset, (FlagContent.text.inj hcontent).1⟩
  by_cases hswitch : f.isSet = true ∧ value ≠ s.host
  · obtain ⟨hgiven, hne⟩ := hswitch
    obtain rfl : value = host := by
      rcases hhost with ⟨_, h⟩ | ⟨hopen, _⟩
      · exact h
      · exact Bool.noConfusion (hopen.symm.trans hgiven)
    have hforgotten : slot.recalled s value = "" := if_neg fun h => hne h.symm
    rw [FlagList.textIfSet_congr (get?_reconcile_of_switch servers hon hf hgiven hne hslot),
      textIfSet_fill _ hflag, Slot.sources_pair, hforgotten]
    exact congrArg _ (Option.or_none).symm
  · have hsame : f.isSet = true → value = s.host := fun h => Decidable.byContradiction fun hne =>
      hswitch ⟨h, hne⟩
    have hremembered : s.host = host := by
      rcases hhost with ⟨hgiven, h⟩ | ⟨_, h, _⟩
      · exact (hsame hgiven).symm.trans h
      · exact h
    have hnamed : (if s.host = "" then value else s.host) = host := by
      split
      · rename_i hempty
        rcases hhost with ⟨_, h⟩ | ⟨_, _, hne⟩
        · exact h
        · exact absurd hempty hne
      · exact hremembered
    have hrecalled : slot.recalled s host = slot.ofSettings s := if_pos hremembered
    rw [FlagList.textIfSet_congr (get?_reconcile_of_same servers hon hf hr hsame hslot), hnamed,
      textIfSet_fill _ (isSome_textFlag?_fill _ hflag), textIfSet_fill _ hflag, Slot.sources_pair,
      hrecalled, Option.or_assoc]

end Memory

/-! ## 2. The two names of a server -/

/-- The alias that a name is, if it is one. -/
def ServerTable.entry? (servers : ServerTable) (name : String) : Option String :=
  if servers.contains name then some name else none

/-- The alias of the server to which a host is resolved, if it is that of a registered one. -/
def Client.entry? (servers : ServerTable) (host : String) : Option String :=
  if isHttp host then none else servers.entry? (aliasOf host)

namespace Slot

variable {servers : ServerTable} {host url : String} {server : Server}

/-- What is no alias has nothing. -/
theorem registered_of_entry?_eq_none (h : servers.entry? host = none) (verbatim : Bool) (slot : Slot) :
    slot.registered servers host verbatim = "" := by
  have hnone : servers.get? host = none := by
    unfold ServerTable.entry? Dictionary.contains at h
    cases hget : servers.get? host with
    | none => rfl
    | some s =>
      rw [hget] at h
      cases h
  unfold registered ServerTable.lookup
  rw [hnone]
  split <;> rfl

theorem registered_of_lookup (hnamed : host ≠ "") (h : servers.lookup host false = .ok server)
    (slot : Slot) : slot.registered servers host false = slot.ofServer server := by
  unfold registered
  rw [if_neg (mt String.isEmpty_iff.1 hnamed), h]

/-- **A host that is found under one name has one server**: the memory is filled from the server of the
    client. -/
theorem registered_of_endpoint (hnamed : host ≠ "")
    (h : Client.endpoint servers host = .ok (url, server))
    (hentry : Client.entry? servers host = servers.entry? host) (slot : Slot) :
    slot.registered servers host false = slot.ofServer server := by
  have hanonymous (address : String) : slot.ofServer (.broker address "") = "" := by
    cases slot <;> rfl
  unfold Client.endpoint at h
  unfold Client.entry? at hentry
  split at h
  · rename_i hhttp
    rw [if_pos hhttp] at hentry
    cases h
    rw [hanonymous, registered_of_entry?_eq_none hentry.symm]
  rename_i hhttp
  rw [if_neg hhttp] at hentry
  dsimp only at h
  split at h
  · rename_i hcontains
    rw [ServerTable.entry?, if_pos hcontains] at hentry
    have hname : Client.aliasOf host = host := by
      unfold ServerTable.entry? at hentry
      split at hentry
      · exact Option.some.inj hentry
      · cases hentry
    rw [hname] at h
    split at h
    · rename_i hlookup
      cases h
      exact registered_of_lookup hnamed hlookup slot
    · cases h
  · rename_i hcontains
    rw [ServerTable.entry?, if_neg hcontains] at hentry
    split at h
    · cases h
      rw [hanonymous, registered_of_entry?_eq_none hentry.symm]
    · cases h

end Slot

namespace Tool

/-! ## 3. The clients of the tool -/

/-- **Of the commands of the tool only `resolve` has a client made for its host.** -/
theorem maker_of_path : ∀ levels ∈ paths, levels = [Resolve.command] ∨
    ∀ f features, (Walked.accumulated levels).get? "host" = some f →
      f.content.kind = .text "" features → features.initClient = false := by
  have hnone {levels : List Command} (h : (Walked.accumulated levels).get? "host" = none) (f : Flag)
      (features : TextFeatures) (hf : (Walked.accumulated levels).get? "host" = some f) :
      f.content.kind = .text "" features → features.initClient = false := by
    rw [h] at hf
    cases hf
  refine List.forall_mem_cons.2 ⟨.inl rfl, List.forall_mem_cons.2 ⟨.inr (hnone rfl),
    List.forall_mem_cons.2 ⟨.inr (hnone rfl), List.forall_mem_cons.2 ⟨.inr ?_,
    List.forall_mem_cons.2 ⟨.inr (hnone rfl), List.forall_mem_cons.2 ⟨.inr (hnone rfl),
    List.forall_mem_cons.2 ⟨.inr (hnone rfl), List.forall_mem_cons.2 ⟨.inr (hnone rfl),
    List.forall_mem_cons.2 ⟨.inr (hnone rfl), List.forall_mem_nil _⟩⟩⟩⟩⟩⟩⟩⟩⟩
  intro f features hf hkind
  cases hf
  cases hkind
  rfl

/-- Whether a command line asks for a batch run. -/
def asksBatch (argv : List String) : Bool :=
  (CommandLine.line? app argv).any fun line =>
    line.globals.isSet "batch" && line.globals.truth "batch"

variable {b : Place} {s : Settings} {servers : ServerTable} {extra : Dictionary Json} {turn : Turn}
  {line : Line} {r : Execution} {checked : Descent} {host : String} {features : TextFeatures} {c : Client}
  {slot : Slot}

/-- A run is a batch run if its command line asks for one. -/
theorem Turn.Accepts.batch_eq (h : turn.Accepts b line r checked) :
    r.session.batch = asksBatch turn.argv := by
  have hmode : r.session.batch = (Setup.choosing line.globals (turn.start b)).session.batch := by
    have hsetup := h.setup
    rw [Setup.perform_run] at hsetup
    split at hsetup
    · cases hsetup
    · have hkept := Setup.sameMode_settle app.version line.globals
        (Setup.choosing line.globals (turn.start b))
      rw [hsetup] at hkept
      exact hkept
  rw [hmode, asksBatch, h.read, Option.any_some, Setup.choosing]
  cases line.globals.isSet "batch" <;> rfl

/-- The memory is used by a run that is no batch run, if it is on. -/
theorem Turn.Accepts.usePrevious_eq (h : turn.Accepts b line r checked)
    (hc : b.held? = some ⟨s, servers, extra⟩) (hon : s.usePrevious = true) :
    r.session.settings.usePrevious = !asksBatch turn.argv := by
  obtain ⟨_, _, _, hsettings⟩ := Setup.settings_of_run ⟨rfl, rfl⟩ hc h.setup
  rw [hsettings, ← h.batch_eq]
  cases r.session.batch
  · exact hon
  · rfl

/-- A line that has a client made for its host comes to `resolve`. -/
theorem levels_of_maker {split : Split} {globals : Ledger} {w : Walked}
    (hreads : split.Reads app globals w) (hh : Hosted w.descent checked host features)
    (hinit : features.initClient = true) : w.levels = [Resolve.command] := by
  obtain ⟨f, value, hf⟩ := hh.asked
  obtain ⟨hget, hcontent⟩ := FlagList.textFlag?_eq_some_iff.1 hf
  have hdeclared := FlagList.get?_of_declarations (declarations_placed hreads) "host"
  rw [hget] at hdeclared
  obtain ⟨d, hd, hsame⟩ := Option.map_eq_some_iff.1 hdeclared.symm
  have hkinds : d.content.kind = f.content.kind := congrArg Flag.content hsame
  rw [hcontent] at hkinds
  rcases maker_of_path _ (levels_mem_paths hreads) with h | hno
  · exact h
  · exact Bool.noConfusion (hinit.symm.trans (hno d features hd hkinds))

/-- **In which order a tenant or scope of a client is filled**: from the command line; then, unless this is
    a batch run, from the server whose alias is the host as it stands, and from what is remembered with the
    host; and last from the server of the client. -/
theorem value_of_builds (hc : b.held? = some ⟨s, servers, extra⟩) (hon : s.usePrevious = true)
    (h : turn.Builds b host c) (hslot : slot ≠ .token) :
    slot.ofClient c = Slot.byPrecedence (given turn.argv slot)
      ((if asksBatch turn.argv then [] else
        [slot.registered servers host false, slot.recalled s host]) ++ [slot.ofServer c.server]) := by
  obtain ⟨split, globals, w, r, checked, features, hreads, ha, hh, hinit, _, hslots⟩ :=
    client_of_builds hc h
  obtain ⟨f, value, hf⟩ := hh.asked
  obtain ⟨g, hg, hset⟩ := hh.found
  have hlevels := levels_of_maker hreads hh hinit
  obtain rfl := features_of_declarations (declarations_of_verdict hreads hlevels ha.verdict) hg
  have hrequired : w.levels.flatMap (·.required) = [] := by
    rw [hlevels]
    rfl
  have hplaced : w.descent.placed.1 = w.descent.flags := Descent.placed_of_no_required hrequired
  have hflag : (w.descent.flags.textFlag? slot.flag).isSome = true := by
    have hdeclared : ∃ f features, (Walked.accumulated w.levels).get? slot.flag = some f ∧
        f.content.kind = .text "" features := by
      rw [hlevels]
      cases slot <;> exact ⟨_, _, rfl, rfl⟩
    obtain ⟨d, features, hd, hkind⟩ := hdeclared
    obtain ⟨g, held, hfound, _⟩ := textFlag?_of_kind (declarations_placed hreads) hd hkind
    rw [← hplaced, hfound]
    rfl
  rw [hslots, ← ha.given_eq, ← Slot.getD_sources, ha.flags_eq, Descent.filled, hplaced]
  rw [hplaced] at hf
  have hflags := ha.flags_eq
  rw [Descent.filled, hplaced] at hflags
  rw [hflags] at hg
  have hmode := ha.usePrevious_eq hc hon
  by_cases hbatch : asksBatch turn.argv = true
  · rw [hbatch] at hmode
    rw [if_pos hbatch, Memory.reconcile_of_off hmode]
    exact congrArg (Option.getD · _) Option.or_none.symm
  · rw [Bool.eq_false_iff.2 hbatch] at hmode
    obtain ⟨hhost, hremembered⟩ := ha.slots_eq hc hmode
    rw [if_neg hbatch, Memory.textIfSet_reconcile_slot _ hmode hf rfl hg hset hslot hflag,
      Slot.recalled_congr hhost hremembered, (ha.loaded hc).servers]

/-! ## 4. The precedence -/

/-- **In which order tenant and scope of a client are filled, and when that is the order that is meant.**

    Take a run of the tool over any servers and a memory that is on, that makes a client for a host. In a
    batch run a slot of the client is what the command line gives, or else what the server has to which the
    host is resolved. In any other run it is what the command line gives, or else what the server has whose
    alias is the host AS IT STANDS, or else what is remembered with this host, or else what the server of
    the client has.

    What is meant is that the server of the client comes before the memory. That is so whenever both
    servers are found under the same name: for an alias, be it a reference or not, and for a URL or an
    address that is no alias itself. For an alias with a path or a query behind it, which is no alias
    itself, the memory comes first; so that the two orders differ if and only if both have something there,
    and not the same. -/
theorem precedence_of_client (hc : b.held? = some ⟨s, servers, extra⟩) (hon : s.usePrevious = true)
    (h : turn.Builds b host c) (hslot : slot ≠ .token) :
    let given := given turn.argv slot
    let named := slot.registered servers host false
    let recalled := slot.recalled s host
    let served := slot.ofServer c.server
    Client.endpoint servers host = .ok (c.url, c.server) ∧
      (asksBatch turn.argv = true → slot.ofClient c = Slot.byPrecedence given [served]) ∧
      (asksBatch turn.argv = false →
        slot.ofClient c = Slot.byPrecedence given [named, recalled, served] ∧
        (Client.entry? servers host = servers.entry? host →
          slot.ofClient c = Slot.byPrecedence given [served, recalled]) ∧
        (servers.entry? host = none → slot.ofClient c = Slot.byPrecedence given [recalled, served]) ∧
        (slot.ofClient c = Slot.byPrecedence given [served, recalled] ↔
          given ≠ none ∨ named = served ∨ (named = "" ∧ (recalled = "" ∨ recalled = served)) ∨
            (served = "" ∧ named = recalled))) := by
  intro given named recalled served
  obtain ⟨_, _, _, _, _, _, _, _, hh, _, hendpoint, _⟩ := client_of_builds hc h
  have hvalue := value_of_builds hc hon h hslot
  refine ⟨hendpoint, fun hbatch => ?_, fun hbatch => ?_⟩
  · rw [if_pos hbatch] at hvalue
    exact hvalue
  · rw [if_neg (Bool.eq_false_iff.1 hbatch)] at hvalue
    have hswap : slot.ofClient c = Slot.byPrecedence given [served, recalled] ↔ _ :=
      (Eq.congr_left hvalue).trans Slot.byPrecedence_swap_iff
    refine ⟨hvalue, fun hentry => ?_, fun hnone => ?_, hswap⟩
    · exact hswap.2 (.inr (.inl (Slot.registered_of_endpoint hh.named hendpoint hentry slot)))
    · have hempty : named = "" := Slot.registered_of_entry?_eq_none hnone false slot
      have hfirst : Slot.byPrecedence given ([named, recalled] ++ [served]) =
          Slot.byPrecedence given [recalled, served] := by
        rw [hempty]
        rfl
      exact hvalue.trans hfirst

/-- The server of an alias comes before what is remembered with it. -/
theorem precedence_of_client_orion :
    let orion : Server :=
      { serverType := "broker", serverHost := "http://localhost:1026", tenant := "openiot" }
    let servers : ServerTable := .ofList [("orion", orion)]
    let s : Settings := { host := "orion", tenant := "smart" }
    let b : Place := ⟨.inMemory { settings := s, servers }, {}⟩
    let turn : Turn := { argv := ["ngsi", "resolve"] }
    ∃ c, turn.Builds b "orion" c ∧ c.server = orion ∧ Slot.tenant.recalled s "orion" = "smart" ∧
      c.tenant = Slot.byPrecedence (given turn.argv .tenant)
        [c.server.tenant, Slot.tenant.recalled s "orion"] ∧ c.tenant = "openiot" := by
  intro orion servers s b turn
  have hready : ((CommandLine.read app turn.argv).perform (turn.start b)).1.toOption.join.bind
      (·.invocation.client) =
      some (.ofServer {} { host := "orion", tenant := some "openiot" } "http://localhost:1026" orion) := by
    decide +kernel
  have hhost : ((CommandLine.read app turn.argv).perform (turn.start b)).2.session.host = "orion" := by
    decide +kernel
  have hbatch : asksBatch turn.argv = false := by decide +kernel
  have hentry : Client.entry? servers "orion" = servers.entry? "orion" := by decide +kernel
  rcases hr : (CommandLine.read app turn.argv).perform (turn.start b) with ⟨_ | _ | prepared, q⟩
  · simp [hr, Except.toOption] at hready
  · simp [hr, Except.toOption] at hready
  · rw [hr] at hready hhost
    have hbuilds := (builds_of_read hr).1 _ hready
    rw [hhost] at hbuilds
    obtain ⟨_, _, hother⟩ := precedence_of_client rfl rfl hbuilds (show Slot.tenant ≠ .token by decide)
    exact ⟨_, hbuilds, rfl, rfl, (hother hbatch).2.1 hentry, rfl⟩

/-- **The server of a client does not always come before the memory**: not for a host with a path. -/
theorem memory_before_server :
    ¬ ∀ (turn : Turn) (b : Place) (s : Settings) (servers : ServerTable) (extra : Dictionary Json)
      (host : String) (c : Client), b.held? = some ⟨s, servers, extra⟩ → s.usePrevious = true →
      asksBatch turn.argv = false → turn.Builds b host c → c.tenant =
        Slot.byPrecedence (given turn.argv .tenant) [c.server.tenant, Slot.tenant.recalled s host] := by
  intro h
  let orion : Server :=
    { serverType := "broker", serverHost := "http://localhost:1026", tenant := "openiot" }
  let servers : ServerTable := .ofList [("orion", orion)]
  let s : Settings := { host := "orion/v2", tenant := "smart" }
  let b : Place := ⟨.inMemory { settings := s, servers }, {}⟩
  let turn : Turn := { argv := ["ngsi", "resolve"] }
  have hready : ((CommandLine.read app turn.argv).perform (turn.start b)).1.toOption.join.bind
      (·.invocation.client) =
      some (.ofServer {} { host := "orion/v2", tenant := some "smart" } "http://localhost:1026" orion) := by
    decide +kernel
  have hhost : ((CommandLine.read app turn.argv).perform (turn.start b)).2.session.host = "orion/v2" := by
    decide +kernel
  have hbatch : asksBatch turn.argv = false := by decide +kernel
  have hgiven : given turn.argv .tenant = none := by decide +kernel
  rcases hr : (CommandLine.read app turn.argv).perform (turn.start b) with ⟨_ | _ | prepared, q⟩
  · simp [hr, Except.toOption] at hready
  · simp [hr, Except.toOption] at hready
  · rw [hr] at hready hhost
    have hbuilds := (builds_of_read hr).1 _ hready
    have htenant := h turn b s servers .empty _ _ rfl rfl hbatch hbuilds
    rw [hgiven, hhost] at htenant
    exact absurd htenant (by decide)

end Tool

end BrokerCli
