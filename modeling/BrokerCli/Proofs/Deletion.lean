import BrokerCli.Proofs.Course
import BrokerCli.Proofs.Forward

/-!
# Forgetting several items at once

`settings delete` is given a list of names. The items are forgotten one by one, and the host takes the
tenant and the scope along whenever there is none left. What becomes of the list as a whole does not show
any of that:

* `Item.names`, `Item.IsName`, `Item.Among` -- what an item is called, and which items a list of names
  means;
* `Settings.emptied` -- the settings with the slots of some items empty, each by itself. Emptied slots that
  are tidied are the invariant: to forget one item more is to empty one more, and to tidy again
  (`Settings.forget_tidied_emptied`);
* `Settings.forgetting` -- emptied and tidied for a list of names. Only which items are meant matters
  (`forgetting_congr`), and once is as good as twice (`forgetting_forgetting`);
* `Tool.Remembered.forgetAll_eq` -- the run through the list: the first name that means nothing, or else
  the settings with all of them forgotten;
* `Tool.Remembered.delete_all_or_nothing` -- what the command comes to.
-/

namespace BrokerCli

namespace Settings

/-! ## 1. Names -/

namespace Item

/-- What an item is called. -/
def names : Item → List String
  | host => ["host"]
  | tenant => ["service", "fiware-service", "tenant"]
  | scope => ["path", "fiware-servicepath", "scope"]
  | token => ["token"]
  | syslog => ["syslog"]
  | stderr => ["stderr"]
  | logFile => ["logfile", "loglevel"]

/-- Something is called so, in whatever letters. -/
def IsName (name : String) : Prop := ∃ i : Item, Text.lower name ∈ i.names

/-- One of these names is the item's, in whatever letters. -/
def Among (i : Item) (list : List String) : Prop := ∃ name ∈ list, Text.lower name ∈ i.names

instance (i : Item) : DecidablePred i.Among := fun list =>
  inferInstanceAs (Decidable (∃ name ∈ list, Text.lower name ∈ i.names))

variable {i : Item} {name : String} {list list' : List String}

/-- A name stands for the item that is called so. -/
theorem ofName?_eq_some_iff : ofName? name = some i ↔ Text.lower name ∈ i.names := by
  unfold ofName?
  generalize Text.lower name = low
  constructor
  · intro h
    split at h <;> cases h <;> decide
  · intro h
    cases i <;> simp only [names, List.mem_cons, List.not_mem_nil, or_false] at h
    case tenant | scope => obtain rfl | rfl | rfl := h <;> rfl
    case logFile => obtain rfl | rfl := h <;> rfl
    all_goals
      subst h
      rfl

theorem isName_iff : IsName name ↔ ∃ i, ofName? name = some i := by
  simp only [IsName, ofName?_eq_some_iff]

instance (name : String) : Decidable (IsName name) :=
  decidable_of_iff ((ofName? name).isSome) (Option.isSome_iff_exists.trans isName_iff.symm)

theorem not_isName_iff : ¬ IsName name ↔ ofName? name = none := by
  rw [isName_iff, ← Option.isSome_iff_exists, Option.not_isSome_iff_eq_none]

theorem not_among_nil : ¬ i.Among [] := nofun

/-- A name in front of a list means one item more. -/
theorem among_cons {first : Item} (h : ofName? name = some first) :
    i.Among (name :: list) ↔ i = first ∨ i.Among list := by
  unfold Among
  rw [List.exists_mem_cons_iff, ← ofName?_eq_some_iff, h, Option.some_inj, eq_comm]

theorem among_congr (h : ∀ name, name ∈ list ↔ name ∈ list') : i.Among list ↔ i.Among list' := by
  simp only [Among, h]

end Item

/-! ## 2. Empty slots -/

variable {s : Settings} {list list' : List String}

/-- The settings with the slots of some items empty, whatever the other slots hold. -/
def emptied (s : Settings) (gone : Item → Prop) [DecidablePred gone] : Settings :=
  { s with
    host := if gone .host then "" else s.host
    tenant := if gone .tenant then "" else s.tenant
    scope := if gone .scope then "" else s.scope
    token := if gone .token then "" else s.token
    syslog := if gone .syslog then "" else s.syslog
    stderr := if gone .stderr then "" else s.stderr
    logFile := if gone .logFile then "" else s.logFile
    logLevel := if gone .logFile then "" else s.logLevel }

theorem emptied_congr {gone gone' : Item → Prop} [DecidablePred gone] [DecidablePred gone']
    (h : ∀ i, gone i ↔ gone' i) : s.emptied gone = s.emptied gone' := by
  simp only [emptied, h]

/-- To forget the slots of one item is to empty these. -/
theorem without_eq_emptied (s : Settings) (i : Item) : s.without i = s.emptied (· = i) := by
  cases i <;> simp [without, emptied]

/-- Slots are emptied one after the other, or all at once. -/
theorem emptied_emptied (s : Settings) (gone gone' : Item → Prop) [DecidablePred gone]
    [DecidablePred gone'] : (s.emptied gone).emptied gone' = s.emptied fun i => gone' i ∨ gone i := by
  simp only [emptied, ite_or]

/-- Settings that are tidied in the end need not be tidied before: what had no host has none. -/
theorem tidied_emptied_tidied (s : Settings) (gone : Item → Prop) [DecidablePred gone] :
    (s.tidied.emptied gone).tidied = (s.emptied gone).tidied := by
  by_cases hhost : s.host.isEmpty
  · have htidied : s.tidied = { s with tenant := "", scope := "" } := if_pos hhost
    have hstill : (if gone .host then "" else s.host).isEmpty = true := by
      split
      · rfl
      · exact hhost
    rw [htidied]
    simp only [tidied, emptied, hstill, if_true]
  · have htidied : s.tidied = s := if_neg hhost
    rw [htidied]

/-- **Settings in which some items were forgotten, and then one more.** -/
theorem forget_tidied_emptied (s : Settings) (gone : Item → Prop) [DecidablePred gone] (i : Item) :
    (s.emptied gone).tidied.forget i = (s.emptied fun j => j = i ∨ gone j).tidied := by
  rw [forget, without_eq_emptied, tidied_emptied_tidied, emptied_emptied]

/-- The settings with everything forgotten that a list of names means. -/
def forgetting (s : Settings) (list : List String) : Settings := (s.emptied (·.Among list)).tidied

/-- **Order and number of the names do not matter.** -/
theorem forgetting_congr (h : ∀ name, name ∈ list ↔ name ∈ list') :
    s.forgetting list = s.forgetting list' :=
  congrArg tidied (emptied_congr fun _ => Item.among_congr h)

/-- **What is forgotten once is forgotten.** -/
theorem forgetting_forgetting (s : Settings) (list : List String) :
    (s.forgetting list).forgetting list = s.forgetting list := by
  unfold forgetting
  rw [tidied_emptied_tidied, emptied_emptied]
  exact congrArg tidied (emptied_congr fun _ => or_self_iff)

end Settings

/-! ## 3. The run through the list -/

namespace Tool.Remembered

open Settings

variable {s : Settings} {name : String} {list list' : List String}

/-- A name that means something is dealt with, and the run goes on. -/
theorem forgetAll_cons {first : Item} (h : Item.ofName? name = some first) :
    forgetAll s (name :: list) = forgetAll (s.forget first) list := by
  rw [forgetAll, forgetNamed?, h, Option.map_some]

/-- The run goes on from settings in which some items are forgotten. -/
theorem forgetAll_tidied_emptied (s : Settings) (gone : Item → Prop) [DecidablePred gone]
    (hknown : ∀ name ∈ list, Item.IsName name) :
    forgetAll (s.emptied gone).tidied list = .ok (s.emptied fun i => i.Among list ∨ gone i).tidied := by
  induction list generalizing gone with
  | nil =>
    refine congrArg (fun s : Settings => Except.ok s.tidied) (emptied_congr fun i => ?_)
    exact (or_iff_right Item.not_among_nil).symm
  | cons name list ih =>
    obtain ⟨hname, hlist⟩ := List.forall_mem_cons.1 hknown
    obtain ⟨first, hfirst⟩ := Item.isName_iff.1 hname
    rw [forgetAll_cons hfirst, forget_tidied_emptied, ih _ hlist]
    refine congrArg (fun s : Settings => Except.ok s.tidied) (emptied_congr fun i => ?_)
    rw [Item.among_cons hfirst, or_left_comm, or_assoc]

/-- **If all names mean something, all that they mean is forgotten.** -/
theorem forgetAll_of_isName (hne : list ≠ []) (hknown : ∀ name ∈ list, Item.IsName name) :
    forgetAll s list = .ok (s.forgetting list) := by
  obtain ⟨name, list, rfl⟩ := List.exists_cons_of_ne_nil hne
  obtain ⟨hname, hlist⟩ := List.forall_mem_cons.1 hknown
  obtain ⟨first, hfirst⟩ := Item.isName_iff.1 hname
  -- The settings that are found need not be tidy: they are behind the first name.
  rw [forgetAll_cons hfirst, forget, without_eq_emptied, forgetAll_tidied_emptied s _ hlist]
  refine congrArg (fun s : Settings => Except.ok s.tidied) (emptied_congr fun i => ?_)
  rw [Item.among_cons hfirst, or_comm]

/-- **Otherwise it is the first name without a meaning that counts.** -/
theorem forgetAll_of_unknown (hbefore : ∀ name ∈ list, Item.IsName name) (hname : ¬ Item.IsName name) :
    forgetAll s (list ++ name :: list') = .error name := by
  induction list generalizing s with
  | nil => rw [List.nil_append, forgetAll, forgetNamed?, Item.not_isName_iff.1 hname, Option.map_none]
  | cons known list ih =>
    obtain ⟨hknown, hlist⟩ := List.forall_mem_cons.1 hbefore
    obtain ⟨i, hi⟩ := Item.isName_iff.1 hknown
    rw [List.cons_append, forgetAll_cons hi]
    exact ih hlist

/-- A list with a name that means nothing has a first one. -/
theorem exists_first_unknown (h : ¬ ∀ name ∈ list, Item.IsName name) :
    ∃ before name after, list = before ++ name :: after ∧ (∀ name ∈ before, Item.IsName name) ∧
      ¬ Item.IsName name := by
  obtain ⟨name, hmem, hname⟩ : ∃ name ∈ list, ¬ Item.IsName name := by simpa using h
  have hfound : (list.find? fun name => !decide (Item.IsName name)).isSome :=
    List.find?_isSome.2 ⟨name, hmem, by simp [hname]⟩
  obtain ⟨name, hfound⟩ := Option.isSome_iff_exists.1 hfound
  obtain ⟨hname, before, after, hlist, hbefore⟩ := List.find?_eq_some_iff_append.1 hfound
  exact ⟨before, name, after, hlist, by simpa using hbefore, by simpa using hname⟩

end Tool.Remembered

/-! ## 4. The command -/

namespace Execution

variable {p : Execution} {b : Place}

/-- The execution with other settings. -/
def withSettings (p : Execution) (s : Settings) : Execution :=
  { p with session := { p.session with settings := s } }

theorem At.withSettings (hb : p.At b) (s : Settings) : (p.withSettings s).At b := ⟨hb.store, hb.files⟩

end Execution

namespace Tool.Remembered

open Settings

variable {p : Execution} {b : Place} {i : Invocation} {name : String}

/-- **Settings that can be saved are saved at once**, unless it is a batch run; then nothing is left to be
    written back. -/
theorem place_saveNow_of_takes (activity : String) (number : Nat) (hb : p.At b)
    (ht : b.takes p.session.configuration = true) :
    let q := (saveNow activity number).perform p
    q.1 = .ok () ∧ q.2.session.configuration = p.session.configuration ∧ q.2.session.updated = false ∧
      q.2.At (if p.session.batch then b else b.save p.session.configuration) := by
  have hplace : (Session.save.perform p).2.At
      (if p.session.batch then b else b.save p.session.configuration) := by
    cases hbatch : p.session.batch with
    | true =>
      rw [Session.perform_save_of_batch hbatch]
      exact (Effect.quiet_log .debug "batch mode, config not saved").stays p b hb
    | false => exact Session.at_save hb hbatch
  have hconfiguration := Session.configuration_save p
  obtain ⟨_, _, hok⟩ := Session.place_save hb
  obtain ⟨u, hok⟩ := hok ht
  unfold saveNow
  rw [Run.perform_bind, Run.perform_adapt]
  generalize Session.save.perform p = saved at hplace hconfiguration hok
  obtain ⟨outcome, q⟩ := saved
  dsimp only at hplace hconfiguration hok
  subst hok
  exact ⟨rfl, hconfiguration, rfl, hplace.store, hplace.files⟩

/-- The names that the command is given. -/
def named (i : Invocation) : List String := Text.split ',' (i.flags.text "items")

theorem named_ne_nil (i : Invocation) : named i ≠ [] :=
  fun h => Text.pieces_ne_nil ',' _ (List.map_eq_nil_iff.1 h)

/-- Names that all mean something are forgotten and saved. -/
theorem perform_delete_of_isName (hknown : ∀ name ∈ named i, Item.IsName name) (p : Execution) :
    (delete i).perform p =
      (saveNow "settingsDelete" 3).perform (p.withSettings (p.session.settings.forgetting (named i))) := by
  unfold delete
  rw [Run.perform_bind, Run.perform_lift, Effect.perform_session]
  dsimp only
  rw [← named, forgetAll_of_isName (named_ne_nil i) hknown]
  dsimp only
  rw [Run.perform_bind, Run.perform_lift, Effect.modifySettings, Effect.perform_modifySession]
  rfl

/-- At a name that means nothing the command gives up, and nothing has happened. -/
theorem perform_delete_of_unknown {before after : List String}
    (hlist : named i = before ++ name :: after) (hbefore : ∀ name ∈ before, Item.IsName name)
    (hname : ¬ Item.IsName name) (p : Execution) : (delete i).perform p =
      (.error (.raise "settingsDelete" 2 (Text.lower name ++ " not found")), p) := by
  unfold delete
  rw [Run.perform_bind, Run.perform_lift, Effect.perform_session]
  dsimp only
  rw [← named, hlist, forgetAll_of_unknown hbefore hname]
  rfl

/-- What the command comes to when all names mean something. -/
theorem place_delete_of_isName (hknown : ∀ name ∈ named i, Item.IsName name) (hb : p.At b)
    (hw : b.Works p.session.servers p.session.extra) :
    let c : Configuration :=
      ⟨p.session.settings.forgetting (named i), p.session.servers, p.session.extra⟩
    let q := (delete i).perform p
    q.1 = .ok () ∧ q.2.session.configuration = c ∧ q.2.session.updated = false ∧
      q.2.At (if p.session.batch then b else b.save c) := by
  rw [perform_delete_of_isName hknown]
  generalize p.session.settings.forgetting (named i) = s
  exact place_saveNow_of_takes "settingsDelete" 3 (hb.withSettings s) (hw.takes s)

/-- **The command forgets everything that it is told, or nothing at all.**

    Take any settings and any list of items, over a place that works. The command succeeds if and only if
    all names of the list mean something. Then the settings are those from before with just the slots empty
    that are named, and tenant and scope if there is no host. They are saved at once, so that they are what
    is found at the place, with the servers and the unknown parts as they were; only a batch run saves
    nothing. Another list with the same names, in whatever order and however often, comes to the same; and
    the same command over what was saved leaves just that.

    Otherwise the fault names the first name that means nothing, and the execution is as it was: settings,
    store and files. -/
theorem delete_all_or_nothing (i : Invocation) (hb : p.At b)
    (hw : b.Works p.session.servers p.session.extra) :
    let c : Configuration :=
      ⟨p.session.settings.forgetting (named i), p.session.servers, p.session.extra⟩
    let q := (delete i).perform p
    (q.1 = .ok () ↔ ∀ name ∈ named i, Item.IsName name) ∧
    (q.1 = .ok () →
      q.2.session.configuration = c ∧ q.2.session.updated = false ∧
      (p.session.batch = false → q.2.At (b.save c) ∧ (b.save c).held? = some c) ∧
      (p.session.batch = true → q.2.At b) ∧
      (∀ i', (∀ name, name ∈ named i' ↔ name ∈ named i) → (delete i').perform p = q) ∧
      (∀ p', p'.At (b.save c) → p'.session.configuration = c →
        let q' := (delete i).perform p'
        q'.1 = .ok () ∧ q'.2.session.configuration = c ∧
          ∃ b', q'.2.At b' ∧ b'.held? = some c)) ∧
    (q.1 ≠ .ok () → q.2 = p ∧ ∃ before name after, named i = before ++ name :: after ∧
      (∀ name ∈ before, Item.IsName name) ∧ ¬ Item.IsName name ∧
      q.1 = .error (.raise "settingsDelete" 2 (Text.lower name ++ " not found"))) := by
  intro c q
  by_cases hknown : ∀ name ∈ named i, Item.IsName name
  · obtain ⟨hok, hconfiguration, hdone, hplace⟩ := place_delete_of_isName hknown hb hw
    refine ⟨iff_of_true hok hknown, fun _ => ⟨hconfiguration, hdone, fun hbatch => ?_, fun hbatch => ?_,
      fun i' hsame => ?_, fun p' hb' hc' => ?_⟩, fun h => absurd hok h⟩
    · rw [hbatch] at hplace
      exact ⟨hplace, hw.held _⟩
    · rw [hbatch] at hplace
      exact hplace
    · have hknown' : ∀ name ∈ named i', Item.IsName name :=
        fun name hname => hknown name ((hsame name).1 hname)
      rw [perform_delete_of_isName hknown', forgetting_congr hsame]
      exact (perform_delete_of_isName hknown p).symm
    · obtain ⟨hsettings, hservers, hextra⟩ := Configuration.mk.inj hc'
      have hagain : (⟨p'.session.settings.forgetting (named i), p'.session.servers,
          p'.session.extra⟩ : Configuration) = c := by
        rw [hsettings, hservers, hextra, forgetting_forgetting]
      have hw' : (b.save c).Works p'.session.servers p'.session.extra := by
        rw [hservers, hextra]
        exact hw.save _
      obtain ⟨hok', hconfiguration', _, hplace'⟩ := place_delete_of_isName hknown hb' hw'
      rw [hagain] at hconfiguration' hplace'
      refine ⟨hok', hconfiguration', _, hplace', ?_⟩
      split
      · exact hw.held _
      · exact (hw.save _).held _
  · obtain ⟨before, name, after, hlist, hbefore, hname⟩ := exists_first_unknown hknown
    have hq : q = (.error (.raise "settingsDelete" 2 (Text.lower name ++ " not found")), p) :=
      perform_delete_of_unknown hlist hbefore hname p
    have hfault : q.1 ≠ .ok () := by
      rw [hq]
      exact nofun
    refine ⟨iff_of_false hfault hknown, fun h => absurd h hfault, fun _ => ?_⟩
    rw [hq]
    exact ⟨rfl, before, name, after, hlist, hbefore, hname, rfl⟩

/-- What is remembered with a host, in memory. -/
def remembered : Configuration where
  settings :=
    { usePrevious := true, host := "orion", tenant := "openiot", scope := "/madrid", token := "0123",
      logFile := "ngsi.log", logLevel := "debug" }

/-- The host takes tenant and scope along; behind a name that means nothing it is still there. -/
theorem delete_all_or_nothing_host :
    let b : Place := ⟨.inMemory remembered, {}⟩
    let p : Execution := { session := { settings := remembered.settings, store := some b.store } }
    let given (items : String) : Invocation :=
      { flags := [{ name := "items", content := .text items {} }] }
    p.At b ∧ b.Works p.session.servers p.session.extra ∧
      ((delete (given "LogLevel,host,Host")).perform p).2.session.configuration =
        { settings := { usePrevious := true, token := "0123" } } ∧
      (delete (given "host,Color")).perform p =
        (.error (.raise "settingsDelete" 2 "color not found"), p) := by
  intro b p given
  have hb : p.At b := ⟨rfl, rfl⟩
  have hw : b.Works p.session.servers p.session.extra := Place.works_inMemory remembered 0 {} _ _
  obtain ⟨hok, hdone, _⟩ := delete_all_or_nothing (given "LogLevel,host,Host") hb hw
  obtain ⟨hok', _, hfault⟩ := delete_all_or_nothing (given "host,Color") hb hw
  obtain ⟨hconfiguration, _⟩ := hdone (hok.2 (by decide +kernel))
  obtain ⟨hleft, before, name, after, hlist, hbefore, hname, hfault⟩ :=
    hfault (mt hok'.1 (by decide +kernel))
  have hsettings : remembered.settings.forgetting (named (given "LogLevel,host,Host")) =
      { usePrevious := true, token := "0123" } := by decide +kernel
  refine ⟨hb, hw, by rw [hconfiguration, hsettings], ?_⟩
  have hgiven : named (given "host,Color") = ["host", "Color"] := by decide +kernel
  rw [hgiven] at hlist
  obtain _ | ⟨_, _ | ⟨_, before⟩⟩ := before
  · cases hlist
    exact absurd (by decide +kernel) hname
  · cases hlist
    exact Prod.ext (hfault.trans (by decide +kernel)) hleft
  · simp at hlist

end Tool.Remembered

end BrokerCli
