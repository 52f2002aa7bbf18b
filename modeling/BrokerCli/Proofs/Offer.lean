import BrokerCli.Proofs.Retention
import Mathlib.Logic.Function.Basic

/-!
# The memory as a table

The memory fills the flags one after another, and asks them in between for the host that has become of it.
Here it is said at once what each flag is offered, whatever the order of the flags, and however often a name
occurs among them:

* `Flag.offered` -- a flag takes what it is offered if it holds texts, was left open, and is offered anything;
* `FlagList.offered` -- a TABLE is offered to the flags: under every name only the first flag is asked
  (`getElem?_offered`). Two tables one after the other are one table (`offered_offered`), and filling one
  flag is a table with one entry (`Memory.fill_eq_offered`);
* `Memory.offer` -- the table of the memory: what a registry has of the host comes before what is remembered
  with it;
* `Memory.reconcileWith_of_host` -- flags and memory together offer this table;
* `Memory.reconciled_by_table` -- with any registry, and whether or not the memory takes part.
-/

namespace BrokerCli

/-! ## 1. One flag -/

namespace Flag

variable (f : Flag) (value other : String)

/-- The flag when a value is offered to it. -/
def offered : Flag := if f.isSet || value.isEmpty then f else f.withText value

@[simp] theorem name_offered : (f.offered value).name = f.name := by
  unfold offered
  split
  · rfl
  · exact f.name_withText value

@[simp] theorem offered_empty : f.offered "" = f := by
  simp [offered]

variable {f}

/-- A flag that was given keeps its value. -/
theorem offered_of_set (h : f.isSet = true) : f.offered value = f := by
  simp [offered, h]

/-- An open flag for texts takes what it is offered. -/
theorem offered_of_open {old : String} {features : TextFeatures} (hc : f.content = .text old features)
    (hs : f.isSet = false) (hv : value ≠ "") : f.offered value = f.setTo (.text value features) := by
  simp [offered, withText, hc, hs, hv]

/-- Only a flag for texts takes anything. -/
theorem offered_of_not_text (h : f.text? = none) : f.offered value = f := by
  unfold text? at h
  unfold offered withText
  split at h
  · cases h
  · exact ite_self f

/-- Of two offers a flag takes the first that has anything. -/
theorem offered_offered :
    (f.offered value).offered other = f.offered (if value = "" then other else value) := by
  by_cases hv : value = ""
  · rw [if_pos hv, hv, offered_empty]
  rw [if_neg hv]
  by_cases hs : f.isSet = true
  · rw [offered_of_set value hs, offered_of_set other hs]
  cases hc : f.content with
  | text old features =>
    rw [offered_of_open value hc (Bool.eq_false_iff.2 hs) hv]
    exact offered_of_set other rfl
  | truth b =>
    have hno : f.text? = none := by simp only [text?, hc]
    rw [offered_of_not_text value hno, offered_of_not_text other hno]
  | number n =>
    have hno : f.text? = none := by simp only [text?, hc]
    rw [offered_of_not_text value hno, offered_of_not_text other hno]

end Flag

/-! ## 2. All flags -/

namespace FlagList

variable {f : Flag} {fs : FlagList} {name : String} {table : String → String}

theorem get?_cons_of_eq (h : f.name = name) : get? (f :: fs) name = some f := by
  simp [get?, h]

theorem get?_cons_of_ne (h : f.name ≠ name) : get? (f :: fs) name = get? fs name := by
  simp [get?, h]

/-- The flags when a value is offered to each name: behind the first flag of a name nothing is left of the
    offer. -/
def offered (table : String → String) : FlagList → FlagList
  | [] => []
  | f :: fs => f.offered (table f.name) :: offered (Function.update table f.name "") fs

@[simp] theorem names_offered (table : String → String) (fs : FlagList) :
    (offered table fs).names = fs.names := by
  induction fs generalizing table with
  | nil => rfl
  | cons f fs ih =>
    show (f.offered _).name :: names (offered _ fs) = f.name :: names fs
    rw [Flag.name_offered, ih]

@[simp] theorem offered_nothing (fs : FlagList) : offered (fun _ => "") fs = fs := by
  induction fs with
  | nil => rfl
  | cons f fs ih =>
    have hsame : Function.update (fun _ => "") f.name "" = fun _ => "" := Function.update_eq_self f.name _
    rw [offered, hsame, ih, Flag.offered_empty]

/-- **Which flags are offered anything**: only the first one of a name. -/
theorem getElem?_offered (table : String → String) (fs : FlagList) (i : Nat) :
    (offered table fs)[i]? = fs[i]?.map fun f =>
      if f.name ∈ (names fs).take i then f else f.offered (table f.name) := by
  induction fs generalizing table i with
  | nil => rfl
  | cons f fs ih =>
    cases i with
    | zero => rfl
    | succ i =>
      show (offered _ fs)[i]? = fs[i]?.map fun g =>
        if g.name ∈ f.name :: (names fs).take i then g else g.offered (table g.name)
      rw [ih]
      refine congrArg (Option.map · fs[i]?) (funext fun g => ?_)
      by_cases hg : g.name = f.name
      · rw [hg, Function.update_self, Flag.offered_empty, ite_self, if_pos List.mem_cons_self]
      · simp only [Function.update_of_ne hg, List.mem_cons, hg, false_or]

/-- The flag of a name when the table is offered. -/
theorem get?_offered (table : String → String) (fs : FlagList) (name : String) :
    (offered table fs).get? name = (fs.get? name).map (·.offered (table name)) := by
  induction fs generalizing table with
  | nil => rfl
  | cons f fs ih =>
    rw [offered]
    by_cases hn : f.name = name
    · rw [get?_cons_of_eq ((f.name_offered _).trans hn), get?_cons_of_eq hn, hn]
      rfl
    · rw [get?_cons_of_ne (mt (f.name_offered _).symm.trans hn), get?_cons_of_ne hn, ih,
        Function.update_of_ne (Ne.symm hn)]

/-- Two tables, one after the other, are one table: the second is asked where the first has nothing. -/
theorem offered_offered (first second : String → String) (fs : FlagList) :
    offered second (offered first fs) =
      offered (fun name => if first name = "" then second name else first name) fs := by
  induction fs generalizing first second with
  | nil => rfl
  | cons f fs ih =>
    have hrest : (fun name => if Function.update first f.name "" name = "" then
        Function.update second f.name "" name else Function.update first f.name "" name) =
          Function.update (fun name => if first name = "" then second name else first name) f.name "" := by
      funext name
      by_cases hn : name = f.name
      · subst hn
        simp only [Function.update_self, if_true]
      · simp only [Function.update_of_ne hn]
    rw [offered, offered, offered, Flag.name_offered, Flag.offered_offered, ih, hrest]

end FlagList

namespace Memory

variable {f : Flag} {fs : FlagList} {name : String} {features : TextFeatures} {s : Settings}

/-! ## 3. Filling is offering -/

theorem fill_cons_of_ne (value : String) (h : f.name ≠ name) :
    fill (f :: fs) name value = f :: fill fs name value := by
  have hget : FlagList.get? (f :: fs) name = fs.get? name := FlagList.get?_cons_of_ne h
  have htext : FlagList.textFlag? (f :: fs) name = FlagList.textFlag? fs name := by
    rw [FlagList.textFlag?, hget, FlagList.textFlag?]
  unfold fill
  rw [htext]
  split
  · rfl
  split
  · split
    · rfl
    · unfold FlagList.update
      rw [hget]
      split
      · simp [FlagList.replace, h]
      · rfl
  · rfl

/-- The first flag of the name is offered the value. -/
theorem fill_cons_of_eq (value : String) (h : f.name = name) :
    fill (f :: fs) name value = f.offered value :: fs := by
  have hget : FlagList.get? (f :: fs) name = some f := FlagList.get?_cons_of_eq h
  unfold fill Flag.offered
  by_cases hv : value = ""
  · simp [hv]
  cases hc : f.content with
  | text old features =>
    have htext : FlagList.textFlag? (f :: fs) name = some (f, old, features) :=
      FlagList.textFlag?_eq_some_iff.2 ⟨hget, hc⟩
    by_cases hs : f.isSet = true
    · simp [hv, htext, hs]
    · simp [hv, htext, hs, FlagList.update, hget, FlagList.replace, h]
  | truth b => simp [hv, FlagList.textFlag?, hget, Flag.text?, Flag.withText, hc]
  | number n => simp [hv, FlagList.textFlag?, hget, Flag.text?, Flag.withText, hc]

/-- Filling one flag is a table with one entry. -/
theorem fill_eq_offered (fs : FlagList) (name value : String) :
    fill fs name value = fs.offered (Function.update (fun _ => "") name value) := by
  induction fs with
  | nil =>
    unfold fill
    split <;> rfl
  | cons f fs ih =>
    by_cases hn : f.name = name
    · rw [fill_cons_of_eq value hn, FlagList.offered, hn, Function.update_self, Function.update_idem,
        Function.update_eq_self, FlagList.offered_nothing]
    · have hrest : Function.update (Function.update (fun _ => "") name value) f.name "" =
          Function.update (fun _ => "") name value := by
        rw [Function.update_comm (Ne.symm hn), Function.update_eq_self]
      rw [fill_cons_of_ne value hn, FlagList.offered, Function.update_of_ne hn, Flag.offered_empty,
        hrest, ih]

/-! ## 4. The table -/

variable {ε : Type}

/-- What a registry has of a host; no host is not asked for. -/
def record? (registry : Registry ε) (host : String) (verbatim : Bool) : Option Server :=
  if host = "" then none else (registry host verbatim).toOption

/-- What a server has for the flag of a name. -/
def recorded (record : Option Server) : String → String
  | "service" => (record.map (·.tenant)).getD ""
  | "path" => (record.map (·.scope)).getD ""
  | _ => ""

/-- What is remembered for the flag of a name. -/
def recalled (s : Settings) : String → String
  | "host" => s.host
  | "service" => s.tenant
  | "path" => s.scope
  | "oAuthToken" => s.token
  | _ => ""

/-- **The table of the memory**: what the flag of a name is offered. The server that the host means comes
    first, and then what is remembered, if that belongs to the host. -/
def offer (record : Option Server) (belongs : Bool) (s : Settings) (name : String) : String :=
  if recorded record name = "" then if belongs then recalled s name else "" else recorded record name

/-- A value behind which there is nothing. -/
theorem value_or_nothing (v : String) : (if v = "" then "" else v) = v := by
  split
  · rename_i h
    exact h.symm
  · rfl

theorem recorded_none : recorded none = fun _ => "" := by
  funext name
  unfold recorded
  split <;> rfl

/-- A registry fills the flags with what it has of their host. -/
theorem fillFromRegistry_eq_offered {host : String} (registry : Registry ε) (verbatim : Bool)
    (hf : fs.textFlag? "host" = some (f, host, features)) :
    fillFromRegistry fs registry verbatim = fs.offered (recorded (record? registry host verbatim)) := by
  unfold fillFromRegistry record?
  simp only [hf, String.isEmpty_iff]
  by_cases hhost : host = ""
  · rw [if_pos hhost, if_pos hhost, recorded_none, FlagList.offered_nothing]
  rw [if_neg hhost, if_neg hhost]
  cases registry host verbatim with
  | error e =>
    show fs = fs.offered (recorded none)
    rw [recorded_none, FlagList.offered_nothing]
  | ok server =>
    show fill (fill fs "service" server.tenant) "path" server.scope = fs.offered (recorded (some server))
    rw [fill_eq_offered, fill_eq_offered, FlagList.offered_offered]
    refine congrArg (FlagList.offered · fs) (funext fun name => ?_)
    by_cases ht : name = "service"
    · subst ht
      simp [recorded]
    by_cases hs : name = "path"
    · subst hs
      simp [recorded]
    · simp [recorded, ht, hs]

/-- The memory fills the flags with what is remembered. -/
theorem fillFromSettings_eq_offered (fs : FlagList) (s : Settings) :
    fillFromSettings fs s = fs.offered (recalled s) := by
  simp only [fillFromSettings, remembered, List.foldl_cons, List.foldl_nil, fill_eq_offered,
    FlagList.offered_offered]
  refine congrArg (FlagList.offered · fs) (funext fun name => ?_)
  by_cases hhost : name = "host"
  · subst hhost
    simp [recalled, value_or_nothing]
  by_cases ht : name = "service"
  · subst ht
    simp [recalled, value_or_nothing]
  by_cases hs : name = "path"
  · subst hs
    simp [recalled]
  by_cases hk : name = "oAuthToken"
  · subst hk
    simp [recalled]
  · simp [recalled, hhost, ht, hs, hk]

/-! ## 5. Flags and memory together -/

/-- The host that the registry is asked for: the one that was given, or else the remembered one, or else
    the declared one. -/
def asked (f : Flag) (value : String) (s : Settings) : String :=
  if f.isSet then value else if s.host = "" then value else s.host

/-- Whether another host than the remembered one was given. -/
def switches (f : Flag) (value : String) (s : Settings) : Bool := f.isSet && value ≠ s.host

variable {value : String}

theorem asked_of_set (h : f.isSet = true) : asked f value s = value := if_pos h

/-- Unless the host is switched, the registry is asked for the remembered one if there is one. -/
theorem asked_of_same (h : f.isSet = true → value = s.host) :
    asked f value s = if s.host = "" then value else s.host := by
  unfold asked
  split
  · rename_i hset
    rw [← h hset, ite_self]
  · rfl

/-- To a host that was given only the registry has anything to add. -/
theorem fillFromRegistry_of_set (registry : Registry ε) (verbatim : Bool)
    (hf : fs.textFlag? "host" = some (f, value, features)) (hset : f.isSet = true) :
    fillFromRegistry fs registry verbatim =
      fs.offered (offer (record? registry (asked f value s) verbatim) false s) := by
  rw [fillFromRegistry_eq_offered registry verbatim hf, asked_of_set hset]
  refine congrArg (FlagList.offered · fs) (funext fun name => ?_)
  exact (value_or_nothing _).symm

/-- To the remembered host the registry adds what it has, and then the memory. -/
theorem fillFromSettings_of_same (registry : Registry ε) (verbatim : Bool)
    (hf : fs.textFlag? "host" = some (f, value, features)) (hsame : f.isSet = true → value = s.host) :
    fillFromSettings (fillFromRegistry (fill fs "host" s.host) registry verbatim) s =
      fs.offered (offer (record? registry (asked f value s) verbatim) true s) := by
  obtain ⟨g, hg⟩ := host_of_fill hf hsame
  rw [fillFromSettings_eq_offered, fillFromRegistry_eq_offered registry verbatim hg,
    ← asked_of_same hsame, fill_eq_offered, FlagList.offered_offered, FlagList.offered_offered]
  refine congrArg (FlagList.offered · fs) (funext fun name => ?_)
  by_cases hname : name = "host"
  · subst hname
    simp [offer, recorded, recalled]
  · rw [Function.update_of_ne hname]
    rfl

/-- **What a memory that takes part offers to the flags.** -/
theorem reconcileWith_of_host (registry : Registry ε) (hon : s.usePrevious = true)
    (hf : fs.textFlag? "host" = some (f, value, features))
    (hpart : features.remembered = true ∨ f.isSet = true) :
    let gs := fs.offered (offer (record? registry (asked f value s) features.verbatim)
      (features.remembered && !switches f value s) s)
    reconcileWith registry fs s =
      { flags := gs, settings := refresh gs s, refreshed := true,
        switched := if features.remembered && switches f value s then some (s.host, value) else none } := by
  unfold reconcileWith switches
  simp only [hon, if_true, hf]
  by_cases hr : features.remembered = true
  · rw [if_pos hr, hr]
    by_cases hswitch : (f.isSet && decide (value ≠ s.host)) = true
    · have hset : f.isSet = true := (Bool.and_eq_true_iff.1 hswitch).1
      rw [hswitch, if_pos rfl, fillFromRegistry_of_set registry _ hf hset]
      rfl
    · have hsame : f.isSet = true → value = s.host := by
        intro hset
        by_contra hne
        exact hswitch (Bool.and_eq_true_iff.2 ⟨hset, decide_eq_true hne⟩)
      rw [Bool.eq_false_iff.2 hswitch, if_neg Bool.false_ne_true,
        fillFromSettings_of_same registry _ hf hsame]
      rfl
  · have hset : f.isSet = true := hpart.resolve_left hr
    rw [if_neg hr, if_pos hset, Bool.eq_false_iff.2 hr, fillFromRegistry_of_set registry _ hf hset]
    rfl

/-- A memory that takes no part leaves everything as it is. -/
theorem reconcileWith_of_no_part (registry : Registry ε)
    (h : s.usePrevious = false ∨ fs.textFlag? "host" = none ∨ ∃ f value features,
      fs.textFlag? "host" = some (f, value, features) ∧ features.remembered = false ∧ f.isSet = false) :
    reconcileWith registry fs s = { flags := fs, settings := s, refreshed := false } := by
  unfold reconcileWith
  rcases h with hoff | hnone | ⟨f, value, features, hf, hr, hset⟩
  · simp only [hoff, Bool.false_eq_true, if_false]
  · simp only [hnone, ite_self]
  · cases hon : s.usePrevious with
    | false => rfl
    | true => simp only [if_true, hf, hr, hset, Bool.false_eq_true, if_false]

/-- Whatever comes of flags and memory, the flags are offered some table. -/
theorem exists_offered (registry : Registry ε) (fs : FlagList) (s : Settings) :
    ∃ table, (reconcileWith registry fs s).flags = fs.offered table := by
  by_cases hpart : s.usePrevious = true ∧ ∃ f value features,
      fs.textFlag? "host" = some (f, value, features) ∧ (features.remembered = true ∨ f.isSet = true)
  · obtain ⟨hon, f, value, features, hf, hpart⟩ := hpart
    exact ⟨_, congrArg Reconciled.flags (reconcileWith_of_host registry hon hf hpart)⟩
  · refine ⟨fun _ => "", ?_⟩
    rw [FlagList.offered_nothing, reconcileWith_of_no_part]
    by_cases hon : s.usePrevious = true
    · refine .inr ?_
      cases hf : fs.textFlag? "host" with
      | none => exact .inl rfl
      | some found =>
        obtain ⟨f, value, features⟩ := found
        have hno := not_or.1 fun h => hpart ⟨hon, f, value, features, hf, h⟩
        exact .inr ⟨f, value, features, rfl, Bool.eq_false_iff.2 hno.1, Bool.eq_false_iff.2 hno.2⟩
    · exact .inl (Bool.eq_false_iff.2 hon)

/-- The memory overwrites no flag that was given, and none that holds no text. -/
theorem get?_reconcile_of_closed (s : Settings) (servers : ServerTable) {name : String}
    (hf : fs.get? name = some f) (h : f.isSet = true ∨ f.text? = none) :
    (reconcile fs s servers).flags.get? name = some f := by
  obtain ⟨table, htable⟩ := exists_offered servers.lookup fs s
  have hflags : (reconcile fs s servers).flags = fs.offered table := htable
  rw [hflags, FlagList.get?_offered, hf]
  refine congrArg some ?_
  rcases h with hset | htext
  · exact Flag.offered_of_set _ hset
  · exact Flag.offered_of_not_text _ htext

/-- **The precedence of the memory, as a table**: for any registry, any flags and any settings.

    Let the memory be on, and the flag for the host be one for texts. If it takes part in the memory, or
    was given, then the flags are as many as before, in their order, and

    * a flag behind the first of its name stays as it is, and so does one that was given, and one that is
      not for texts;
    * every other flag takes what the table has for its name, and stays open if that is nothing. Tenant and
      scope come from the server that the registry has for the host, and host, tenant, scope and token from
      the settings -- but not if the host is switched, nor if its flag takes no part in the memory;
    * what is remembered then is what is given by the flags in the end, and the memory counts as refreshed.

    Otherwise nothing happens at all. -/
theorem reconciled_by_table (registry : Registry ε) (fs : FlagList) (s : Settings) :
    let r := reconcileWith registry fs s
    (s.usePrevious = false ∨ fs.textFlag? "host" = none →
      r = { flags := fs, settings := s, refreshed := false }) ∧
    ∀ f value features, s.usePrevious = true → fs.textFlag? "host" = some (f, value, features) →
      let record := record? registry (asked f value s) features.verbatim
      let belongs := features.remembered && !switches f value s
      (features.remembered = false ∧ f.isSet = false →
        r = { flags := fs, settings := s, refreshed := false }) ∧
      (features.remembered = true ∨ f.isSet = true →
        (∀ i : Nat, r.flags[i]? = fs[i]?.map fun g =>
          if g.name ∈ fs.names.take i then g else g.offered (offer record belongs s g.name)) ∧
        r.settings = { s with
          host := kept r.flags "host"
          tenant := kept r.flags "service"
          scope := kept r.flags "path"
          token := kept r.flags "oAuthToken" } ∧
        r.refreshed = true ∧
        r.switched =
          if features.remembered && switches f value s then some (s.host, value) else none) := by
  intro r
  refine ⟨fun hno => reconcileWith_of_no_part registry (hno.imp_right .inl), ?_⟩
  intro f value features hon hf record belongs
  refine ⟨fun hno => ?_, fun hpart => ?_⟩
  · exact reconcileWith_of_no_part registry (.inr (.inr ⟨f, value, features, hf, hno⟩))
  · have hr : r = _ := reconcileWith_of_host registry hon hf hpart
    rw [hr]
    exact ⟨FlagList.getElem?_offered _ fs, rfl, rfl, rfl⟩

/-- An open tenant is taken from the server of the remembered host; a flag for a scope that holds no text is
    not filled, and the scope is forgotten. -/
theorem reconciled_by_table_orion :
    let registry : Registry Unit := fun host _ =>
      if host = "orion" then .ok { serverHost := "http://orion", tenant := "openiot", scope := "/" }
      else .error ()
    let token : Flag := { Flag.oauthToken with isSet := true, content := .text "secret" {} }
    let scope : Flag := { name := "path", content := .truth false }
    let fs : FlagList := [.tenant, .hostRequired, token, scope, .tenant]
    let s : Settings := { host := "orion", tenant := "smart", scope := "/old", token := "old" }
    let r := reconcileWith registry fs s
    r.flags[0]? = some (Flag.tenant.withText "openiot") ∧ r.flags[3]? = some scope ∧
      r.flags[4]? = some Flag.tenant ∧
      r.settings = { host := "orion", tenant := "openiot", scope := "", token := "secret" } := by
  intro registry token scope fs s r
  obtain ⟨hflags, hsettings, _, _⟩ :=
    ((reconciled_by_table registry fs s).2 .hostRequired _ _ rfl rfl).2 (.inl rfl)
  refine ⟨(hflags 0).trans ?_, (hflags 3).trans ?_, (hflags 4).trans ?_, hsettings.trans ?_⟩
  · decide +kernel
  · decide +kernel
  · decide +kernel
  · decide +kernel

end Memory

end BrokerCli
