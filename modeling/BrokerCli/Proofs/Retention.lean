import BrokerCli.Proofs.Provenance
import BrokerCli.Proofs.Stages

/-!
# What becomes of a remembered tenant and scope

As long as the host stays the same, tenant and scope are not meant to be lost. But the memory is refreshed
as a whole from the flags, and so a slot for which a command has no flag is forgotten, whatever the host:

* `Slot.retained` -- what is to be kept of a slot with its host: what the registered server has in it, or
  else what is remembered;
* `Memory.ofSettings_reconcile` -- on the remembered host this is kept of a slot that has a flag, and
  nothing of one that has none;
* `Tool.slots_of_path` -- of the two commands with a host, `resolve` has flags for all slots, and
  `server get` has none;
* `Tool.retained_of_turn` -- hence the one keeps tenant and scope in every run on the remembered host, and
  the other forgets them;
* `Tool.forgotten_on_host` -- so it is not only another host that brings them to an end.
-/

namespace BrokerCli

open Grammar

/-! ## 1. What is to be kept -/

namespace Slot

/-- What the registered server that a host means has in a slot; nothing, if there is no such server. -/
def registered (servers : ServerTable) (host : String) (verbatim : Bool) (slot : Slot) : String :=
  if host.isEmpty then ""
  else match servers.lookup host verbatim with
    | .error _ => ""
    | .ok server => slot.ofServer server

/-- What is to be kept of a slot with its host: what the server has there, or else what is remembered. -/
def retained (servers : ServerTable) (host : String) (verbatim : Bool) (s : Settings) (slot : Slot) :
    String :=
  if slot.registered servers host verbatim = "" then slot.ofSettings s
  else slot.registered servers host verbatim

theorem retained_ne {servers : ServerTable} {host : String} {verbatim : Bool} {s : Settings} {slot : Slot}
    (h : slot.ofSettings s ≠ "") : slot.retained servers host verbatim s ≠ "" := by
  unfold retained
  split
  · exact h
  · assumption

end Slot

/-- A flag is not given if no text of it is. -/
theorem FlagList.isSet_of_textIfSet_eq_none {fs : FlagList} {name : String}
    (h : fs.textIfSet name = none) : fs.isSet name = false := by
  unfold textIfSet at h
  split at h
  · cases h
  · exact Bool.eq_false_iff.2 ‹_›

namespace Memory

variable {fs gs : FlagList} {name value : String} {f : Flag} {features : TextFeatures} {s : Settings}
  {servers : ServerTable} {slot : Slot}

/-! ## 2. What is kept of a flag that was filled -/

theorem kept_congr (h : fs.get? name = gs.get? name) : kept fs name = kept gs name := by
  unfold kept FlagList.textFlag?
  rw [h]

theorem kept_of_textFlag?_eq_none (h : fs.textFlag? name = none) : kept fs name = "" := by
  unfold kept
  rw [h]

/-- Filling a flag depends on this flag only. -/
theorem get?_fill_congr (value : String) (h : gs.get? name = fs.get? name) :
    (fill gs name value).get? name = (fill fs name value).get? name := by
  have hsame : gs.textFlag? name = fs.textFlag? name := by
    unfold FlagList.textFlag?
    rw [h]
  cases hf : fs.textFlag? name with
  | none => rw [fill_of_textFlag?_eq_none hf, fill_of_textFlag?_eq_none (hsame.trans hf), h]
  | some found =>
    obtain ⟨f, old, features⟩ := found
    rw [get?_fill value hf, get?_fill value (hsame.trans hf)]

theorem fill_empty (fs : FlagList) (name : String) : fill fs name "" = fs := rfl

/-- What is kept of an open flag is what it was filled with. -/
theorem kept_fill {old : String} (value : String) (hf : fs.textFlag? name = some (f, old, features))
    (hset : f.isSet = false) : kept (fill fs name value) name = value := by
  by_cases hv : value = ""
  · subst hv
    rw [fill_empty]
    simp only [kept, hf, hset, Bool.false_eq_true, if_false]
  · have hget := get?_fill value hf
    rw [if_neg (not_or.2 ⟨hv, Bool.eq_false_iff.1 hset⟩)] at hget
    exact kept_of_textFlag? (FlagList.textFlag?_eq_some_iff.2 ⟨hget, rfl⟩) rfl

/-- A flag that is filled twice keeps the first value, unless that is empty. -/
theorem kept_fill_fill {old : String} (first value : String)
    (hf : fs.textFlag? name = some (f, old, features)) (hset : f.isSet = false) :
    kept (fill (fill fs name first) name value) name = if first = "" then value else first := by
  split
  · rename_i hempty
    subst hempty
    rw [fill_empty, kept_fill value hf hset]
  · rename_i hfirst
    have hget := get?_fill first hf
    rw [if_neg (not_or.2 ⟨hfirst, Bool.eq_false_iff.1 hset⟩)] at hget
    have hfilled := FlagList.textFlag?_eq_some_iff.2 ⟨hget, rfl⟩
    have hagain := get?_fill value hfilled
    rw [if_pos (.inr rfl)] at hagain
    exact kept_of_textFlag? (FlagList.textFlag?_eq_some_iff.2 ⟨hagain, rfl⟩) rfl

/-! ## 3. What is kept of a slot -/

/-- From the server, the flags for tenant and scope are filled with what is registered. -/
theorem get?_fillFromServer_slot {host : String} (verbatim : Bool)
    (hf : fs.textFlag? "host" = some (f, host, features)) (hslot : slot ≠ .token) :
    (fillFromServer fs servers verbatim).get? slot.flag =
      (fill fs slot.flag (slot.registered servers host verbatim)).get? slot.flag := by
  unfold fillFromServer fillFromRegistry Slot.registered
  simp only [hf]
  split
  · rw [fill_empty]
  cases servers.lookup host verbatim with
  | error e => rw [fill_empty]
  | ok server =>
    cases slot with
    | tenant => exact get?_fill_of_ne (by decide)
    | scope => exact get?_fill_congr _ (get?_fill_of_ne (by decide))
    | token => exact absurd rfl hslot

/-- From the settings, the flag for a slot is filled with what is remembered. -/
theorem get?_fillFromSettings_slot (fs : FlagList) (s : Settings) (slot : Slot) :
    (fillFromSettings fs s).get? slot.flag =
      (fill fs slot.flag (slot.ofSettings s)).get? slot.flag := by
  simp only [fillFromSettings, remembered, List.foldl_cons, List.foldl_nil]
  cases slot with
  | tenant =>
    rw [get?_fill_of_ne (by decide), get?_fill_of_ne (by decide)]
    exact get?_fill_congr _ (get?_fill_of_ne (by decide))
  | scope =>
    rw [get?_fill_of_ne (by decide)]
    refine get?_fill_congr _ ?_
    rw [get?_fill_of_ne (by decide), get?_fill_of_ne (by decide)]
  | token =>
    refine get?_fill_congr _ ?_
    rw [get?_fill_of_ne (by decide), get?_fill_of_ne (by decide), get?_fill_of_ne (by decide)]

/-- The host that the flags have on the remembered host: the remembered one, or if none is remembered
    the declared one. -/
theorem host_of_fill (hf : fs.textFlag? "host" = some (f, value, features))
    (hsame : f.isSet = true → value = s.host) :
    ∃ g, (fill fs "host" s.host).textFlag? "host" =
      some (g, if s.host = "" then value else s.host, features) := by
  have hcontent := (FlagList.textFlag?_eq_some_iff.1 hf).2
  have hget := get?_fill s.host hf
  split at hget
  · rename_i hkept
    refine ⟨f, FlagList.textFlag?_eq_some_iff.2 ⟨hget, hcontent.trans ?_⟩⟩
    split
    · rfl
    · rename_i hhost
      rw [hsame (hkept.resolve_left hhost)]
  · rename_i hopen
    refine ⟨_, FlagList.textFlag?_eq_some_iff.2 ⟨hget, ?_⟩⟩
    rw [if_neg (not_or.1 hopen).1]
    rfl

/-- On the remembered host, the flag for tenant or scope is filled from the server, and then from what is
    remembered. -/
theorem get?_reconcile_of_same (servers : ServerTable) (hon : s.usePrevious = true)
    (hf : fs.textFlag? "host" = some (f, value, features)) (hr : features.remembered = true)
    (hsame : f.isSet = true → value = s.host) (hslot : slot ≠ .token) :
    (reconcile fs s servers).flags.get? slot.flag =
      (fill (fill fs slot.flag (slot.registered servers (if s.host = "" then value else s.host)
        features.verbatim)) slot.flag (slot.ofSettings s)).get? slot.flag := by
  obtain ⟨g, hg⟩ := host_of_fill hf hsame
  generalize (if s.host = "" then value else s.host) = host at hg
  rcases reconcile_cases servers hon hf with ⟨hset, hswitch, _⟩ | ⟨_, _, hflags, _⟩ | ⟨hno, _⟩
  · exact absurd (hsame hset) (hswitch hr)
  · rw [hflags, get?_fillFromSettings_slot]
    refine get?_fill_congr _ ?_
    rw [get?_fillFromServer_slot features.verbatim hg hslot]
    exact get?_fill_congr _ (get?_fill_of_ne slot.flag_ne_host)
  · exact Bool.noConfusion (hno.symm.trans hr)

/-- When the host is switched, it is filled from the server only. -/
theorem get?_reconcile_of_switch (servers : ServerTable) (hon : s.usePrevious = true)
    (hf : fs.textFlag? "host" = some (f, value, features)) (hset : f.isSet = true)
    (hswitch : value ≠ s.host) (hslot : slot ≠ .token) :
    (reconcile fs s servers).flags.get? slot.flag =
      (fill fs slot.flag (slot.registered servers value features.verbatim)).get? slot.flag := by
  rcases reconcile_cases servers hon hf with ⟨_, _, hflags, _⟩ | ⟨_, hsame, _⟩ | ⟨_, hopen, _⟩
  · rw [hflags]
    exact get?_fillFromServer_slot features.verbatim hf hslot
  · exact absurd (hsame hset) hswitch
  · exact Bool.noConfusion (hopen.symm.trans hset)

/-- **What the memory keeps of tenant and scope on the remembered host**, if the command line does not
    give them: a slot that has a flag is kept, and one that has none is forgotten. -/
theorem ofSettings_reconcile (servers : ServerTable) (hon : s.usePrevious = true)
    (hf : fs.textFlag? "host" = some (f, value, features)) (hr : features.remembered = true)
    (hsame : f.isSet = true → value = s.host) (hslot : slot ≠ .token)
    (hgiven : fs.isSet slot.flag = false) :
    slot.ofSettings (reconcile fs s servers).settings =
      if (fs.textFlag? slot.flag).isSome then
        slot.retained servers (if s.host = "" then value else s.host) features.verbatim s
      else "" := by
  rw [settings_reconcile hon hf hr, Slot.ofSettings_refresh,
    kept_congr (get?_reconcile_of_same servers hon hf hr hsame hslot)]
  cases hflag : fs.textFlag? slot.flag with
  | none =>
    rw [fill_of_textFlag?_eq_none hflag, fill_of_textFlag?_eq_none hflag]
    exact kept_of_textFlag?_eq_none hflag
  | some found =>
    obtain ⟨h, old, features'⟩ := found
    have hset : h.isSet = false := by
      rw [FlagList.isSet, (FlagList.textFlag?_eq_some_iff.1 hflag).1] at hgiven
      exact hgiven
    rw [kept_fill_fill _ _ hflag hset]
    rfl

end Memory

namespace Tool

/-! ## 4. The commands with a host -/

/-- **Of the commands with a host, `resolve` has flags for all slots, and `server get` has none.** -/
theorem slots_of_path : ∀ levels ∈ paths, (Walked.accumulated levels).get? "host" = none ∨
    (levels.map (·.name) = ["resolve"] ∧ levels.flatMap (·.required) = [] ∧
      (∃ features, DeclaresHost levels features ∧ features.verbatim = false) ∧
      ∀ slot : Slot, ∃ f features, (Walked.accumulated levels).get? slot.flag = some f ∧
        f.content.kind = .text "" features) ∨
    (levels.map (·.name) = ["server", "get"] ∧
      ∀ slot : Slot, (Walked.accumulated levels).get? slot.flag = none) := by
  refine List.forall_mem_cons.2 ⟨?_, List.forall_mem_cons.2 ⟨?_, List.forall_mem_cons.2 ⟨?_,
    List.forall_mem_cons.2 ⟨?_, List.forall_mem_cons.2 ⟨?_, List.forall_mem_cons.2 ⟨?_,
    List.forall_mem_cons.2 ⟨?_, List.forall_mem_cons.2 ⟨?_, List.forall_mem_cons.2 ⟨?_,
    List.forall_mem_nil _⟩⟩⟩⟩⟩⟩⟩⟩⟩
  · refine .inr (.inl ⟨rfl, rfl, ⟨_, ⟨⟨_, rfl, rfl, .inl rfl⟩, rfl, rfl, .inl ⟨rfl, rfl⟩⟩, rfl⟩,
      fun slot => ?_⟩)
    cases slot <;> exact ⟨_, _, rfl, rfl⟩
  · exact .inl rfl
  · exact .inl rfl
  · refine .inr (.inr ⟨rfl, fun slot => ?_⟩)
    cases slot <;> rfl
  · exact .inl rfl
  · exact .inl rfl
  · exact .inl rfl
  · exact .inl rfl
  · exact .inl rfl

variable {split : Split} {globals : Ledger} {w : Walked} {checked : Descent} {host : String}
  {features : TextFeatures} {settings s : Settings} {servers : ServerTable} {slot : Slot}

/-- The host of an accepted line, when it is the remembered one: it was not given, or it was given
    again. -/
theorem same_host_of_hosted (hh : Hosted w.descent checked settings.host features)
    (hflags : checked.flags = w.descent.filled settings servers) {f : Flag} {value : String}
    {features' : TextFeatures}
    (hf : w.descent.placed.1.textFlag? "host" = some (f, value, features')) (hset : f.isSet = true) :
    value = settings.host := by
  obtain ⟨g, hg, _⟩ := hh.found
  obtain ⟨hget, hcontent⟩ := FlagList.textFlag?_eq_some_iff.1 hg
  rw [hflags, Descent.filled, Memory.get?_reconcile_host settings servers hf,
    if_neg fun h => Bool.noConfusion (hset.symm.trans h.2.2.1)] at hget
  obtain rfl := Option.some.inj hget
  rw [(FlagList.textFlag?_eq_some_iff.1 hf).2] at hcontent
  exact (FlagContent.text.inj hcontent).1

/-- **What the refreshed memory holds of tenant and scope, when an accepted line is for the remembered
    host** and does not give them. -/
theorem retained_of_hosted (hr : split.Reads app globals w)
    (hh : Hosted w.descent checked settings.host features)
    (hflags : checked.flags = w.descent.filled settings servers) (hon : settings.usePrevious = true)
    (hslot : slot ≠ .token) (hgiven : w.descent.flags.textIfSet slot.flag = none) :
    (w.descent.chain = ["resolve"] ∧ slot.ofSettings (Memory.refresh checked.flags settings) =
        slot.retained servers settings.host false settings) ∨
      (w.descent.chain = ["server", "get"] ∧
        slot.ofSettings (Memory.refresh checked.flags settings) = "") := by
  obtain ⟨f, value, hf⟩ := hh.asked
  have hkept (hunset : w.descent.placed.1.isSet slot.flag = false) :
      slot.ofSettings (Memory.refresh checked.flags settings) =
        if (w.descent.placed.1.textFlag? slot.flag).isSome then
          slot.retained servers settings.host features.verbatim settings
        else "" := by
    rw [hflags, Descent.filled, ← Memory.settings_reconcile hon hf hh.remembered,
      Memory.ofSettings_reconcile servers hon hf hh.remembered (same_host_of_hosted hh hflags hf) hslot
        hunset, if_neg hh.named]
  have hdeclarations := declarations_placed hr
  rcases slots_of_path _ (levels_mem_paths hr) with
    hnone | ⟨hchain, hrequired, ⟨features', hdeclares, hverbatim⟩, hslots⟩ | ⟨hchain, hslots⟩
  · rw [textFlag?_placed_of_none hr hnone] at hf
    cases hf
  · refine .inl ⟨hchain, ?_⟩
    obtain ⟨g, held, hg, _⟩ := textFlag?_of_declared hdeclarations hdeclares
    rw [hf] at hg
    cases hg
    have hplaced : w.descent.placed.1 = w.descent.flags := Descent.placed_of_no_required hrequired
    obtain ⟨declared, features', hdeclared, hkind⟩ := hslots slot
    obtain ⟨g, held, hfound, _⟩ := textFlag?_of_kind hdeclarations hdeclared hkind
    have hunset : w.descent.placed.1.isSet slot.flag = false := by
      rw [hplaced]
      exact FlagList.isSet_of_textIfSet_eq_none hgiven
    rw [hkept hunset, hfound, hverbatim]
    rfl
  · refine .inr ⟨hchain, ?_⟩
    have hget := get?_eq_none_of_declared hdeclarations (hslots slot)
    have hunset : w.descent.placed.1.isSet slot.flag = false := by
      rw [FlagList.isSet, hget]
      rfl
    have hnone : w.descent.placed.1.textFlag? slot.flag = none := by
      rw [FlagList.textFlag?, hget]
      rfl
    rw [hkept hunset, hnone]
    rfl

/-! ## 5. Runs on the remembered host -/

variable {turn : Turn} {b : Place} {extra : Dictionary Json} {line : Line} {r : Execution}

/-- A session that uses what is remembered has the host and the slots that are found at the place. -/
theorem Turn.Accepts.slots_eq (h : turn.Accepts b line r checked)
    (hc : b.held? = some ⟨s, servers, extra⟩) (hon : r.session.settings.usePrevious = true) :
    r.session.settings.host = s.host ∧
      ∀ slot : Slot, slot.ofSettings r.session.settings = slot.ofSettings s := by
  obtain ⟨stderr, syslog, cacheFile, hsettings⟩ := Setup.settings_of_run ⟨rfl, rfl⟩ hc h.setup
  cases hmode : r.session.batch with
  | true =>
    rw [hsettings, hmode] at hon
    cases hon
  | false =>
    rw [hsettings, hmode]
    exact ⟨rfl, fun slot => by cases slot <;> rfl⟩

/-- **What becomes of a remembered tenant or scope while the host stays the same.**

    Refreshing the memory keeps it if there is a flag for it, and only then: what the server has in its
    place, or else what was remembered. So a run of the tool for the remembered host, whose command line
    does not give it, leaves the place as it was, or keeps it, if the command is `resolve`; but the
    command `server get` forgets it. -/
theorem retained_of_turn (hon : s.usePrevious = true) (hslot : slot ≠ .token)
    (hs : slot.ofSettings s ≠ "") :
    (∀ (fs : FlagList) (f : Flag) (value : String) (features : TextFeatures),
      fs.textFlag? "host" = some (f, value, features) → features.remembered = true →
      (f.isSet = true → value = s.host) → fs.isSet slot.flag = false →
      let t := (Memory.reconcile fs s servers).settings
      (slot.ofSettings t ≠ "" ↔ (fs.textFlag? slot.flag).isSome = true) ∧
        ((fs.textFlag? slot.flag).isSome = true → slot.ofSettings t =
          slot.retained servers (if s.host = "" then value else s.host) features.verbatim s)) ∧
    ∀ (turn : Turn) (b : Place) (extra : Dictionary Json), b.held? = some ⟨s, servers, extra⟩ →
      b.Works servers extra → s.host ≠ "" → (turn.past b).host = s.host →
      given turn.argv slot = none →
      turn.leaves b = b ∨ ∃ line t, CommandLine.line? app turn.argv = some line ∧
        turn.leaves b = b.save ⟨t, servers, extra⟩ ∧ t.host = s.host ∧
        ((line.descent.chain = ["resolve"] ∧ slot.ofSettings t ≠ "" ∧
            slot.ofSettings t = slot.retained servers s.host false s) ∨
          (line.descent.chain = ["server", "get"] ∧ slot.ofSettings t = "")) := by
  refine ⟨fun fs f value features hf hr hsame hunset => ?_,
    fun turn b extra hc hw hnamed hhost hgiven => ?_⟩
  · have hkept := Memory.ofSettings_reconcile servers hon hf hr hsame hslot hunset
    dsimp only
    rw [hkept]
    split
    · rename_i hflag
      exact ⟨iff_of_true (Slot.retained_ne hs) hflag, fun _ => rfl⟩
    · rename_i hflag
      exact ⟨iff_of_false (fun h => h rfl) hflag, fun h => absurd h hflag⟩
  · rcases left_of_turn hc hw with h | ⟨_, _, hnohost, _⟩ |
      ⟨line, r, checked, host, features, haccepts, hh, hprev, hpast, hsaved⟩
    · exact .inl h
    · exact absurd (hhost.symm.trans hnohost) hnamed
    · obtain ⟨hsamehost, hslots⟩ := haccepts.slots_eq hc hprev
      have hremembered : slot.retained servers r.session.settings.host false r.session.settings =
          slot.retained servers s.host false s := by
        unfold Slot.retained
        rw [hsamehost, hslots]
      obtain rfl : host = r.session.settings.host := hpast.symm.trans (hhost.trans hsamehost.symm)
      have hflags := haccepts.flags_eq
      rw [(haccepts.loaded hc).servers] at hflags
      have hline := haccepts.given_eq slot
      obtain ⟨split, globals, w, _, hreads, rfl⟩ := CommandLine.reads_of_line? haccepts.read
      obtain ⟨g, hg, hset⟩ := hh.found
      refine .inr ⟨_, _, haccepts.read, hsaved, (Memory.kept_of_textFlag? hg hset).trans hsamehost, ?_⟩
      rcases retained_of_hosted hreads hh hflags hprev hslot (hline.trans hgiven) with
        ⟨hchain, hkept⟩ | ⟨hchain, hlost⟩
      · rw [hkept, hremembered]
        exact .inl ⟨hchain, Slot.retained_ne hs, rfl⟩
      · exact .inr ⟨hchain, hlost⟩

/-- The tenant is remembered with an address, and kept by a run that names neither. -/
theorem retained_of_turn_resolve :
    let s : Settings := { host := "http://orion", tenant := "openiot" }
    let b : Place := ⟨.inMemory { settings := s }, {}⟩
    let turn : Turn := { argv := ["ngsi", "resolve"] }
    s.usePrevious = true ∧ s.tenant ≠ "" ∧ (turn.past b).host = s.host ∧
      given turn.argv .tenant = none ∧
      (turn.leaves b = b ∨ ∃ line t, CommandLine.line? app turn.argv = some line ∧
        turn.leaves b = b.save ⟨t, .empty, .empty⟩ ∧ t.host = s.host ∧
        ((line.descent.chain = ["resolve"] ∧ t.tenant ≠ "" ∧
            t.tenant = Slot.tenant.retained .empty s.host false s) ∨
          (line.descent.chain = ["server", "get"] ∧ t.tenant = ""))) := by
  intro s b turn
  have hhost : (turn.past b).host = s.host := by decide +kernel
  have hgiven : given turn.argv .tenant = none := by decide +kernel
  have hworks : b.Works .empty .empty := Place.works_inMemory _ 0 {} .empty .empty
  have hslot : Slot.tenant ≠ .token := by decide
  have hs : Slot.tenant.ofSettings s ≠ "" := by decide
  exact ⟨rfl, hs, hhost, hgiven,
    (retained_of_turn rfl hslot hs).2 turn b .empty rfl hworks (by decide) hhost hgiven⟩

/-- **It is not only another host that brings a tenant to an end**: looking at the registered server of
    the remembered host does so too. -/
theorem forgotten_on_host :
    ¬ ∀ (turn : Turn) (b : Place) (s t : Settings) (servers : ServerTable) (extra : Dictionary Json),
      b.held? = some ⟨s, servers, extra⟩ → b.Works servers extra → s.usePrevious = true →
      s.host ≠ "" → (turn.past b).host = s.host → s.tenant ≠ "" → given turn.argv .tenant = none →
      (turn.leaves b).held? = some ⟨t, servers, extra⟩ → t.tenant ≠ "" := by
  intro h
  let servers : ServerTable :=
    .ofList [("orion", { serverType := "broker", serverHost := "http://localhost:1026" })]
  let s : Settings := { host := "orion", tenant := "openiot", scope := "/madrid" }
  let t : Settings := { host := "orion" }
  let b : Place := ⟨.inMemory { settings := s, servers }, {}⟩
  let turn : Turn := { argv := ["ngsi", "server", "get"] }
  have hhost : (turn.past b).host = s.host := by decide +kernel
  have hgiven : given turn.argv .tenant = none := by decide +kernel
  have hheld : (turn.leaves b).held? = some ⟨t, servers, .empty⟩ := by decide +kernel
  exact h turn b s t servers .empty rfl (Place.works_inMemory _ 0 {} servers .empty) rfl (by decide)
    hhost (by decide) hgiven hheld rfl

end Tool

end BrokerCli
