import BrokerCli.CommandLine
import BrokerCli.Tool.Remembered

/-!
# Where the values of an identity come from

Tenant, scope and token are the SLOTS of an identity. Flags, settings, servers, requests and clients
all have them:

* `Slot` -- one of the three, with the name of its flag and its value wherever there is one;
* `Settings.Forgets` -- settings of which some are forgotten, and none is made up. It is all that the
  commands on the settings do (`forgets_cleared`, `forgets_of_forgetAll`);
* `Memory.reconcile_cases` -- the three ways in which the memory takes part in a command line;
* `Memory.textIfSet_of_reconcile` -- the memory fills a slot from the server that the host means, or
  with what is remembered with THIS host.
-/

namespace BrokerCli

/-! ## 1. Slots -/

/-- A part of an identity. -/
inductive Slot where
  | tenant
  | scope
  | token
deriving DecidableEq, Repr

namespace Slot

/-- The name of the flag for a slot. -/
def flag : Slot → String
  | tenant => "service"
  | scope => "path"
  | token => "oAuthToken"

/-- What is remembered in a slot. -/
def ofSettings (s : Settings) : Slot → String
  | tenant => s.tenant
  | scope => s.scope
  | token => s.token

/-- What a registered server has in a slot. -/
def ofServer (s : Server) : Slot → String
  | tenant => s.tenant
  | scope => s.scope
  | token => s.token

/-- What a command line asks for in a slot. -/
def ofRequest (r : ClientRequest) : Slot → Option String
  | tenant => r.tenant
  | scope => r.scope
  | token => r.token

/-- What a client has in a slot. -/
def ofClient (c : Client) : Slot → String
  | tenant => c.tenant
  | scope => c.scope
  | token => c.token

theorem eq_of_flag_eq {a b : Slot} (h : a.flag = b.flag) : a = b := by
  revert h
  cases a <;> cases b <;> decide

theorem flag_ne_host (slot : Slot) : slot.flag ≠ "host" := by
  cases slot <;> decide

theorem ofRequest_request (fs : FlagList) (host : String) (skipGetToken : Bool) (slot : Slot) :
    slot.ofRequest (Connect.request fs host skipGetToken false) = fs.textIfSet slot.flag := by
  cases slot <;> rfl

theorem ofSettings_refresh (fs : FlagList) (s : Settings) (slot : Slot) :
    slot.ofSettings (Memory.refresh fs s) = Memory.kept fs slot.flag := by
  cases slot <;> rfl

/-- A client has what its request asks for, and otherwise what its server has. -/
theorem ofClient_of_resolve {servers : ServerTable} {options : ClientOptions} {r : ClientRequest}
    {c : Client} (h : Client.resolve servers options r = .ok c) (slot : Slot) :
    Client.endpoint servers r.host = .ok (c.url, c.server) ∧
      slot.ofClient c = (slot.ofRequest r).getD (slot.ofServer c.server) := by
  unfold Client.resolve at h
  split at h
  · rename_i url s he
    cases h
    refine ⟨he, ?_⟩
    cases slot <;> rfl
  · cases h

end Slot

/-! ## 2. Forgetting -/

/-- The settings `t` are `s` with some of the host and the slots forgotten. -/
structure Settings.Forgets (s t : Settings) : Prop where
  host : t.host = "" ∨ t.host = s.host
  slots : ∀ slot : Slot, slot.ofSettings t = "" ∨ slot.ofSettings t = slot.ofSettings s

namespace Settings

variable {s t u : Settings}

theorem Forgets.refl (s : Settings) : s.Forgets s := ⟨.inr rfl, fun _ => .inr rfl⟩

theorem Forgets.trans (hst : s.Forgets t) (htu : t.Forgets u) : s.Forgets u := by
  refine ⟨?_, fun slot => ?_⟩
  · rcases htu.host with h | h
    · exact .inl h
    · rw [h]
      exact hst.host
  · rcases htu.slots slot with h | h
    · exact .inl h
    · rw [h]
      exact hst.slots slot

/-- Settings with the same host and the same slots forget nothing. -/
theorem forgets_of_eq (hh : t.host = s.host) (ht : t.tenant = s.tenant) (hs : t.scope = s.scope)
    (hk : t.token = s.token) : s.Forgets t := by
  refine ⟨.inr hh, fun slot => .inr ?_⟩
  cases slot with
  | tenant => exact ht
  | scope => exact hs
  | token => exact hk

/-- Settings in which nothing is remembered forget everything. -/
theorem forgets_of_empty (hh : t.host = "") (ht : t.tenant = "") (hs : t.scope = "")
    (hk : t.token = "") : s.Forgets t := by
  refine ⟨.inl hh, fun slot => .inl ?_⟩
  cases slot with
  | tenant => exact ht
  | scope => exact hs
  | token => exact hk

theorem forgets_batch (s : Settings) : s.Forgets .batch := forgets_of_empty rfl rfl rfl rfl

theorem forgets_cleared (s t : Settings) : s.Forgets t.cleared := forgets_of_empty rfl rfl rfl rfl

theorem forgets_without (s : Settings) (i : Item) : s.Forgets (s.without i) := by
  refine ⟨?_, fun slot => ?_⟩
  · cases i with
    | host => exact .inl rfl
    | _ => exact .inr rfl
  · cases i with
    | tenant =>
      cases slot with
      | tenant => exact .inl rfl
      | _ => exact .inr rfl
    | scope =>
      cases slot with
      | scope => exact .inl rfl
      | _ => exact .inr rfl
    | token =>
      cases slot with
      | token => exact .inl rfl
      | _ => exact .inr rfl
    | _ => exact .inr (by cases slot <;> rfl)

theorem forgets_tidied (s : Settings) : s.Forgets s.tidied := by
  unfold tidied
  split
  · refine ⟨.inr rfl, fun slot => ?_⟩
    cases slot with
    | token => exact .inr rfl
    | _ => exact .inl rfl
  · exact .refl s

theorem forgets_of_forgetNamed? {name : String} (h : s.forgetNamed? name = some t) :
    s.Forgets t := by
  obtain ⟨i, _, rfl⟩ := Option.map_eq_some_iff.1 h
  exact (forgets_without s i).trans (forgets_tidied _)

end Settings

/-- **Whatever items are named, the command only forgets.** -/
theorem Tool.Remembered.forgets_of_forgetAll {names : List String} {s t : Settings}
    (h : forgetAll s names = .ok t) : s.Forgets t := by
  induction names generalizing s with
  | nil =>
    cases h
    exact .refl _
  | cons name names ih =>
    unfold forgetAll at h
    split at h
    · rename_i s' hs
      exact (Settings.forgets_of_forgetNamed? hs).trans (ih h)
    · cases h

/-! ## 3. Filling a flag -/

namespace FlagList

variable {fs gs : FlagList} {name : String}

theorem textIfSet_congr (h : fs.get? name = gs.get? name) : fs.textIfSet name = gs.textIfSet name := by
  unfold textIfSet isSet text
  rw [h]

theorem textFlag?_eq_some_iff {f : Flag} {value : String} {features : TextFeatures} :
    fs.textFlag? name = some (f, value, features) ↔
      fs.get? name = some f ∧ f.content = .text value features := by
  unfold textFlag? Flag.text?
  constructor
  · intro h
    obtain ⟨g, hg, h⟩ := Option.bind_eq_some_iff.1 h
    obtain ⟨pair, hpair, h⟩ := Option.map_eq_some_iff.1 h
    cases h
    refine ⟨hg, ?_⟩
    split at hpair
    · rename_i hc
      cases hpair
      exact hc
    · cases hpair
  · rintro ⟨hg, hc⟩
    rw [hg, Option.bind_some, hc]
    rfl

/-- The text of a flag for texts that is given. -/
theorem textIfSet_of_textFlag? {f : Flag} {value : String} {features : TextFeatures}
    (h : fs.textFlag? name = some (f, value, features)) :
    fs.textIfSet name = if f.isSet then some value else none := by
  obtain ⟨hg, hc⟩ := textFlag?_eq_some_iff.1 h
  simp only [textIfSet, isSet, text, hg, Option.any_some, Option.map_some, Option.getD_some,
    Flag.valueText, hc]

end FlagList

namespace Memory

variable {fs gs : FlagList} {name value : String}

theorem get?_fill_of_ne {other : String} (h : other ≠ name) :
    (fill fs name value).get? other = fs.get? other := by
  unfold fill
  split
  · rfl
  split
  · rename_i f _ hf
    split
    · rfl
    · obtain ⟨hg, _⟩ := FlagList.textFlag?_eq_some_iff.1 hf
      have hn : f.name = name := FlagList.name_of_get? hg
      rw [FlagList.update, hg]
      exact FlagList.get?_replace_of_ne ((f.name_withText value).trans hn) h
  · rfl

/-- What becomes of the flag that is to be filled. -/
theorem get?_fill {f : Flag} {old : String} {features : TextFeatures} (value : String)
    (h : fs.textFlag? name = some (f, old, features)) :
    (fill fs name value).get? name =
      if value = "" ∨ f.isSet = true then some f else some (f.setTo (.text value features)) := by
  obtain ⟨hg, hc⟩ := FlagList.textFlag?_eq_some_iff.1 h
  have hn : f.name = name := FlagList.name_of_get? hg
  have hhas : fs.has name = true := by
    rw [FlagList.has, hg]
    rfl
  have hfilled : f.withText value = f.setTo (.text value features) := by
    rw [Flag.withText, hc]
  unfold fill
  simp only [h, String.isEmpty_iff]
  by_cases hv : value = ""
  · rw [if_pos hv, if_pos (.inl hv), hg]
  by_cases hs : f.isSet = true
  · rw [if_neg hv, if_pos hs, if_pos (.inr hs), hg]
  · rw [if_neg hv, if_neg hs, if_neg (not_or.2 ⟨hv, hs⟩), FlagList.update, hg, ← hfilled]
    exact FlagList.get?_replace ((f.name_withText value).trans hn) hhas

/-- Only a flag for texts is filled. -/
theorem fill_of_textFlag?_eq_none (h : fs.textFlag? name = none) : fill fs name value = fs := by
  unfold fill
  rw [h]
  split <;> rfl

/-- What a flag holds after it was filled: what it was given before, or else the value. -/
theorem textIfSet_of_fill {other x : String} (h : (fill fs name value).textIfSet other = some x) :
    fs.textIfSet other = some x ∨ (other = name ∧ x = value ∧ value ≠ "") := by
  by_cases ho : other = name
  · subst ho
    cases hf : fs.textFlag? other with
    | none =>
      rw [fill_of_textFlag?_eq_none hf] at h
      exact .inl h
    | some found =>
      obtain ⟨f, old, features⟩ := found
      have hget := get?_fill value hf
      split at hget
      · rw [FlagList.textIfSet_congr (hget.trans (FlagList.textFlag?_eq_some_iff.1 hf).1.symm)] at h
        exact .inl h
      · rename_i hv
        have htext := FlagList.textFlag?_eq_some_iff.2 ⟨hget, rfl⟩
        rw [FlagList.textIfSet_of_textFlag? htext] at h
        exact .inr ⟨rfl, (Option.some.inj h).symm, (not_or.1 hv).1⟩
  · rw [FlagList.textIfSet_congr (get?_fill_of_ne ho)] at h
    exact .inl h

/-- A flag that was filled is not filled a second time. -/
theorem get?_fill_again (h : gs.get? name = (fill fs name value).get? name) :
    (fill gs name value).get? name = gs.get? name := by
  have hsame : gs.textFlag? name = (fill fs name value).textFlag? name := by
    unfold FlagList.textFlag?
    rw [h]
  cases hg : gs.textFlag? name with
  | none => rw [fill_of_textFlag?_eq_none hg]
  | some found =>
    obtain ⟨g, held, features⟩ := found
    have hgg := (FlagList.textFlag?_eq_some_iff.1 hg).1
    rw [get?_fill value hg, hgg]
    split
    · rfl
    rename_i hv
    exfalso
    cases hf : fs.textFlag? name with
    | none =>
      rw [fill_of_textFlag?_eq_none hf, hf, hg] at hsame
      cases hsame
    | some found =>
      obtain ⟨f, old, features'⟩ := found
      have hget := get?_fill value hf
      rw [← h, hgg] at hget
      split at hget
      · rename_i hs
        cases hget
        exact hv hs
      · cases hget
        exact hv (.inr rfl)

/-! ## 4. Filling all flags -/

/-- From the server, no flag but those for tenant and scope is filled. -/
theorem get?_fillFromServer_of_ne (fs : FlagList) (servers : ServerTable) (verbatim : Bool)
    (ht : name ≠ "service") (hs : name ≠ "path") :
    (fillFromServer fs servers verbatim).get? name = fs.get? name := by
  unfold fillFromServer fillFromRegistry
  split
  · rfl
  split
  · rfl
  split
  · rfl
  · rw [get?_fill_of_ne hs, get?_fill_of_ne ht]

theorem get?_fillFromServer_host (fs : FlagList) (servers : ServerTable) (verbatim : Bool) :
    (fillFromServer fs servers verbatim).get? "host" = fs.get? "host" :=
  get?_fillFromServer_of_ne fs servers verbatim (by decide) (by decide)

/-- What a slot is given from the server that the host means, or was given before. -/
theorem textIfSet_of_fillFromServer {servers : ServerTable} {verbatim : Bool} {slot : Slot}
    {x : String} (h : (fillFromServer fs servers verbatim).textIfSet slot.flag = some x) :
    fs.textIfSet slot.flag = some x ∨ ∃ f host features s,
      fs.textFlag? "host" = some (f, host, features) ∧ servers.lookup host verbatim = .ok s ∧
        slot.ofServer s = x := by
  unfold fillFromServer fillFromRegistry at h
  split at h
  · exact .inl h
  rename_i f host features hf
  split at h
  · exact .inl h
  split at h
  · exact .inl h
  rename_i s hs
  rcases textIfSet_of_fill h with h | ⟨hslot, rfl, _⟩
  · rcases textIfSet_of_fill h with h | ⟨hslot, rfl, _⟩
    · exact .inl h
    · obtain rfl : slot = .tenant := Slot.eq_of_flag_eq hslot
      exact .inr ⟨f, host, features, s, hf, hs, rfl⟩
  · obtain rfl : slot = .scope := Slot.eq_of_flag_eq hslot
    exact .inr ⟨f, host, features, s, hf, hs, rfl⟩

/-- From the settings, the flag for the host is filled like any other. -/
theorem get?_fillFromSettings_host (fs : FlagList) (s : Settings) :
    (fillFromSettings fs s).get? "host" = (fill fs "host" s.host).get? "host" := by
  simp only [fillFromSettings, remembered, List.foldl_cons, List.foldl_nil]
  rw [get?_fill_of_ne (by decide), get?_fill_of_ne (by decide), get?_fill_of_ne (by decide)]

/-- Flags that are filled from all sides have the host that was filled in first. -/
theorem get?_filled_host (fs : FlagList) (s : Settings) (servers : ServerTable) (verbatim : Bool) :
    (fillFromSettings (fillFromServer (fill fs "host" s.host) servers verbatim) s).get? "host" =
      (fill fs "host" s.host).get? "host" := by
  have hserver := get?_fillFromServer_host (fill fs "host" s.host) servers verbatim
  exact (get?_fillFromSettings_host _ s).trans ((get?_fill_again hserver).trans hserver)

/-- What a slot is given from the settings, or was given before. -/
theorem textIfSet_of_fillFromSettings {s : Settings} {slot : Slot} {x : String}
    (h : (fillFromSettings fs s).textIfSet slot.flag = some x) :
    fs.textIfSet slot.flag = some x ∨ slot.ofSettings s = x := by
  simp only [fillFromSettings, remembered, List.foldl_cons, List.foldl_nil] at h
  rcases textIfSet_of_fill h with h | ⟨hslot, rfl, _⟩
  · rcases textIfSet_of_fill h with h | ⟨hslot, rfl, _⟩
    · rcases textIfSet_of_fill h with h | ⟨hslot, rfl, _⟩
      · rcases textIfSet_of_fill h with h | ⟨hslot, _, _⟩
        · exact .inl h
        · exact absurd hslot slot.flag_ne_host
      · obtain rfl : slot = .tenant := Slot.eq_of_flag_eq hslot
        exact .inr rfl
    · obtain rfl : slot = .scope := Slot.eq_of_flag_eq hslot
      exact .inr rfl
  · obtain rfl : slot = .token := Slot.eq_of_flag_eq hslot
    exact .inr rfl

/-! ## 5. Flags and memory together -/

variable {s : Settings} {servers : ServerTable} {f : Flag} {host : String} {features : TextFeatures}

/-- A memory that is off takes no part. -/
theorem reconcile_of_off (hoff : s.usePrevious = false) :
    reconcile fs s servers = { flags := fs, settings := s, refreshed := false } := by
  simp only [reconcile, reconcileWith, hoff, Bool.false_eq_true, if_false]

/-- Without a flag for a host the memory takes no part. -/
theorem reconcile_of_no_host (hf : fs.textFlag? "host" = none) :
    reconcile fs s servers = { flags := fs, settings := s, refreshed := false } := by
  simp only [reconcile, reconcileWith, hf, ite_self]

/-- Without a flag for a host there is none when the memory has taken part. -/
theorem textFlag?_reconcile_of_none (hf : fs.textFlag? "host" = none) :
    (reconcile fs s servers).flags.textFlag? "host" = none := by
  rw [reconcile_of_no_host hf]
  exact hf

/-- **How a memory that is on takes part**: a host that was given is for it another one than the
    remembered one; or the host is the remembered one; or the host was left open, and its flag takes no
    part in the memory. -/
theorem reconcile_cases (servers : ServerTable) (hon : s.usePrevious = true)
    (hf : fs.textFlag? "host" = some (f, value, features)) :
    let r := reconcile fs s servers
    (f.isSet = true ∧ (features.remembered = true → value ≠ s.host) ∧
        r.flags = fillFromServer fs servers features.verbatim ∧ r.settings = refresh r.flags s) ∨
      (features.remembered = true ∧ (f.isSet = true → value = s.host) ∧
        r.flags =
          fillFromSettings (fillFromServer (fill fs "host" s.host) servers features.verbatim) s ∧
        r.settings = refresh r.flags s) ∨
      (features.remembered = false ∧ f.isSet = false ∧ r.flags = fs ∧ r.settings = s) := by
  dsimp only
  unfold reconcile reconcileWith
  simp only [hon, if_true, hf]
  split
  · rename_i hr
    split
    · rename_i hswitch
      obtain ⟨hset, hne⟩ := Bool.and_eq_true_iff.1 hswitch
      exact .inl ⟨hset, fun _ => of_decide_eq_true hne, rfl, rfl⟩
    · rename_i hswitch
      refine .inr (.inl ⟨hr, fun hset => Decidable.byContradiction fun hne => ?_, rfl, rfl⟩)
      exact hswitch (Bool.and_eq_true_iff.2 ⟨hset, decide_eq_true hne⟩)
  · rename_i hr
    split
    · exact .inl ⟨‹_›, fun h => absurd h hr, rfl, rfl⟩
    · exact .inr (.inr ⟨Bool.eq_false_iff.2 hr, Bool.eq_false_iff.2 ‹_›, rfl, rfl⟩)

/-- A memory that takes part is refreshed as a whole. -/
theorem settings_reconcile (hon : s.usePrevious = true)
    (hf : fs.textFlag? "host" = some (f, value, features)) (hr : features.remembered = true) :
    (reconcile fs s servers).settings = refresh (reconcile fs s servers).flags s := by
  rcases reconcile_cases servers hon hf with ⟨_, _, _, h⟩ | ⟨_, _, _, h⟩ | ⟨hno, _⟩
  · exact h
  · exact h
  · exact Bool.noConfusion (hno.symm.trans hr)

/-- The flag for the host, when the memory has taken part: it holds what is remembered if it was left
    open, and otherwise it is what it was. -/
theorem get?_reconcile_host (s : Settings) (servers : ServerTable)
    (hf : fs.textFlag? "host" = some (f, value, features)) :
    (reconcile fs s servers).flags.get? "host" =
      if s.usePrevious = true ∧ features.remembered = true ∧ f.isSet = false ∧ s.host ≠ "" then
        some (f.setTo (.text s.host features))
      else some f := by
  have hget := (FlagList.textFlag?_eq_some_iff.1 hf).1
  cases hon : s.usePrevious with
  | false =>
    rw [reconcile_of_off hon, if_neg fun h => Bool.noConfusion h.1]
    exact hget
  | true =>
    rcases reconcile_cases servers hon hf with
      ⟨hset, _, hflags, _⟩ | ⟨hr, _, hflags, _⟩ | ⟨hno, _, hflags, _⟩
    · rw [hflags, get?_fillFromServer_host, hget,
        if_neg fun h => Bool.noConfusion (hset.symm.trans h.2.2.1)]
    · rw [hflags, get?_filled_host, get?_fill s.host hf]
      split
      · rename_i hkept
        rw [if_neg]
        rintro ⟨_, _, hset, hhost⟩
        exact hkept.elim hhost fun h => Bool.noConfusion (hset.symm.trans h)
      · rename_i hopen
        obtain ⟨hhost, hset⟩ := not_or.1 hopen
        rw [if_pos ⟨rfl, hr, Bool.eq_false_iff.2 hset, hhost⟩]
    · rw [hflags, hget, if_neg fun h => Bool.noConfusion (hno.symm.trans h.2.1)]

/-- **Where the values of the slots come from**, when the memory takes part in a command line that has
    a host in the end: from the command line itself, from the server that the host means, or from what
    is remembered -- and then the remembered host is this host. -/
theorem textIfSet_of_reconcile (hon : s.usePrevious = true)
    (hf : fs.textFlag? "host" = some (f, value, features)) (hr : features.remembered = true)
    (hhost : (reconcile fs s servers).flags.textIfSet "host" = some host) {slot : Slot} {x : String}
    (hx : (reconcile fs s servers).flags.textIfSet slot.flag = some x) :
    fs.textIfSet slot.flag = some x ∨
      (∃ server, servers.lookup host features.verbatim = .ok server ∧ slot.ofServer server = x) ∨
      (s.host = host ∧ slot.ofSettings s = x) := by
  rcases reconcile_cases servers hon hf with
    ⟨hset, _, hflags, _⟩ | ⟨_, hgiven, hflags, _⟩ | ⟨hno, _⟩
  · rw [hflags] at hhost hx
    rw [FlagList.textIfSet_congr (get?_fillFromServer_host fs servers _),
      FlagList.textIfSet_of_textFlag? hf, if_pos hset] at hhost
    cases hhost
    rcases textIfSet_of_fillFromServer hx with h | ⟨_, _, _, server, hf', hlookup, hslot⟩
    · exact .inl h
    · rw [hf] at hf'
      cases hf'
      exact .inr (.inl ⟨server, hlookup, hslot⟩)
  · rw [hflags] at hhost hx
    rw [FlagList.textIfSet_congr (get?_filled_host fs s servers features.verbatim)] at hhost
    -- Whether the host is given or filled in: it is the remembered one.
    have hsame : s.host = host := by
      rcases textIfSet_of_fill hhost with h | ⟨_, h, _⟩
      · rw [FlagList.textIfSet_of_textFlag? hf] at h
        split at h
        · rename_i hset
          cases h
          exact (hgiven hset).symm
        · cases h
      · exact h.symm
    rcases textIfSet_of_fillFromSettings hx with h | h
    · rcases textIfSet_of_fillFromServer h with h | ⟨f', host', _, server, hf', hlookup, hslot⟩
      · rw [FlagList.textIfSet_congr (get?_fill_of_ne slot.flag_ne_host)] at h
        exact .inl h
      · rw [FlagList.textIfSet_of_textFlag? hf'] at hhost
        split at hhost
        · cases hhost
          exact .inr (.inl ⟨server, hlookup, hslot⟩)
        · cases hhost
    · exact .inr (.inr ⟨hsame, h⟩)
  · exact Bool.noConfusion (hno.symm.trans hr)

/-- The memory keeps nothing but what a flag is given. -/
theorem textIfSet_of_kept (h : kept fs name ≠ "") : fs.textIfSet name = some (kept fs name) := by
  unfold kept at h ⊢
  split at h
  · rename_i f value features hf
    split at h
    · rename_i hset
      rw [FlagList.textIfSet_of_textFlag? hf, if_pos hset, if_pos hset]
    · exact absurd rfl h
  · exact absurd rfl h

theorem kept_of_textFlag? (hf : fs.textFlag? name = some (f, value, features))
    (hset : f.isSet = true) : kept fs name = value := by
  simp only [kept, hf, hset, if_true]

end Memory

end BrokerCli
