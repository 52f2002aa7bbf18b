import BrokerCli.Proofs.Custody
import BrokerCli.Proofs.Forward
import BrokerCli.Proofs.Heading

/-!
# The tool does not lock itself out

A run fails if a level of the log that is remembered cannot be read; and what an option says of a level is
remembered in the session before it is read. Still nothing that cannot be read is ever saved. A run that
saves has come to a command, so its session is set up, and the levels have been read; and from then on a
level is at most forgotten:

* `Settings.leveled_iff` -- the levels can be read: each of them is empty, or names a level;
* `Execution.KeepsLevels` -- such levels stay such, and what is saved has such levels. The course of a run
  moves along this relation (`Execution.course_keepsLevels`);
* `Spot` -- where a configuration outlives a run: in memory, or in the file at a place. What is there keeps
  levels that can be read in one run (`App.leveledIn_of_run`), and so in any number of runs (`Tool.After`);
* `RunError.OfLevel` -- the failures that are about a level. A run without an option for one does not come
  to them where the levels can be read (`App.not_ofLevel_of_run`);
* `Tool.never_locked_out` -- the two together.
-/

namespace BrokerCli

open Execution

/-! ## 1. Levels that can be read -/

theorem LogLevel.readable_iff {remembered default : String} (h : ∃ level, parse default = .ok level) :
    Readable remembered default ↔ remembered = "" ∨ ∃ level, parse remembered = .ok level := by
  unfold Readable
  by_cases hempty : remembered.isEmpty = true
  · rw [if_pos hempty]
    exact iff_of_true h (.inl (String.isEmpty_iff.1 hempty))
  · rw [if_neg hempty]
    have hne : remembered ≠ "" := fun he => hempty (String.isEmpty_iff.2 he)
    exact (or_iff_right hne).symm

namespace Settings

variable {s t : Settings}

/-- **The levels can be read** if each is empty or names a level. -/
theorem leveled_iff : s.Leveled ↔
    (s.stderr = "" ∨ ∃ level, LogLevel.parse s.stderr = .ok level) ∧
      (s.syslog = "" ∨ ∃ level, LogLevel.parse s.syslog = .ok level) := by
  rw [← LogLevel.readable_iff ⟨.err, LogLevel.parse_name .err⟩,
    ← LogLevel.readable_iff ⟨.off, LogLevel.parse_name .off⟩]
  exact ⟨fun h => ⟨h.stderr, h.syslog⟩, fun h => ⟨h.1, h.2⟩⟩

theorem leveled_of_empty (hstderr : s.stderr = "") (hsyslog : s.syslog = "") : s.Leveled :=
  leveled_iff.2 ⟨.inl hstderr, .inl hsyslog⟩

/-- A level that is forgotten can be read. -/
theorem Eases.leveled (h : s.Eases t) (hs : s.Leveled) : t.Leveled := by
  obtain ⟨hstderr, hsyslog⟩ := leveled_iff.1 hs
  refine leveled_iff.2 ⟨?_, ?_⟩
  · rcases h.stderr with hsame | hempty
    · rw [hsame]
      exact hstderr
    · exact .inl hempty
  · rcases h.syslog with hsame | hempty
    · rw [hsame]
      exact hsyslog
    · exact .inl hempty

end Settings

/-- Levels that can be read stay such, and what was saved at the place has such levels. -/
def Execution.KeepsLevels (p q : Execution) : Prop :=
  p.session.settings.Leveled → q.session.settings.Leveled ∧
    ∀ b, p.At b → ∃ b', q.At b' ∧ b.Becomes (fun c => c.settings.Leveled) b'

instance : IsPreorder Execution KeepsLevels where
  refl _ h := ⟨h, fun b hb => ⟨b, hb, .same⟩⟩
  trans p q r h h' hp := by
    obtain ⟨hq, hplace⟩ := h hp
    obtain ⟨hr, hplace'⟩ := h' hq
    refine ⟨hr, fun b hb => ?_⟩
    obtain ⟨b', hb', hbecomes⟩ := hplace b hb
    obtain ⟨b'', hb'', hbecomes'⟩ := hplace' b' hb'
    exact ⟨b'', hb'', hbecomes.trans hbecomes'⟩

theorem Execution.course_keepsLevels : Course KeepsLevels where
  change p q h hfiles hp :=
    ⟨h.settings.leveled hp, fun b hb => ⟨b, ⟨h.store.trans hb.store, hfiles.trans hb.files⟩, .same⟩⟩
  save p hp := by
    have hsettings : (Session.save.perform p).2.session.settings = p.session.settings :=
      congrArg Configuration.settings (Session.configuration_save p)
    refine ⟨hsettings ▸ hp, fun b hb => ?_⟩
    rcases (Session.place_save hb).1 with hsame | hsaved
    · exact ⟨b, hsame, .same⟩
    · exact ⟨_, hsaved, .save .same hp⟩

/-! ## 2. Where a configuration outlives a run -/

/-- Where a configuration outlives a run: in memory, or in the file at a place. -/
inductive Spot where
  | memory
  | file (l : Location)
deriving DecidableEq, Repr

/-- Where the configuration of a place is, if it is kept at all. -/
def Place.spot? (b : Place) : Option Spot :=
  match b.store with
  | .memory .. => some .memory
  | .file (some path) => some (.file (b.files.meant path))
  | .file none => none

/-- The configuration there, if there is one, has levels that can be read. -/
def Execution.LeveledIn (p : Execution) : Spot → Prop
  | .memory => ∃ c saves readOnly,
      p.session.store = some (.memory c saves readOnly) ∧ c.settings.Leveled
  | .file l => ∀ c, p.files.held? l = some c → c.settings.Leveled

section

variable {app : App} {argv : List String} {p q : Execution} {k : Spot}

/-- What a run loads from there has levels that can be read, and so has what it loads from nowhere. -/
theorem CommandLine.leveled_of_place? {b : Place} {c : Configuration} (hk : p.LeveledIn k)
    (hb : place? app argv p = some b) (hs : b.spot? = none ∨ b.spot? = some k)
    (hc : b.held? = some c) : c.settings.Leveled := by
  have hdefault : ({} : Configuration).settings.Leveled := Settings.leveled_of_empty rfl rfl
  have hfiles := App.files_of_place? hb
  obtain ⟨o, _, hplace⟩ := Option.bind_eq_some_iff.1 hb
  obtain ⟨store, files⟩ := b
  dsimp only at hfiles
  subst hfiles
  cases store with
  | memory held saves readOnly =>
    rcases hs with hs | hs
    · cases hs
    cases hs
    cases hc
    obtain ⟨c', _, _, hstore, hleveled⟩ := hk
    cases Setup.store_of_place? hplace hstore
    exact hleveled
  | file path =>
    cases path with
    | none =>
      cases hc
      exact hdefault
    | some path =>
      cases hthere : p.files.isThere path with
      | false =>
        rw [Place.held?_of_not_isThere hthere] at hc
        cases hc
        exact hdefault
      | true =>
        rcases hs with hs | hs
        · cases hs
        cases hs
        exact hk c (Place.held?_meant hthere hc)

/-- **A run leaves levels that can be read there**, whatever levels its options give. -/
theorem App.leveledIn_of_run (hacts : app.Acts fun a => ∀ i, (a i).Respects KeepsLevels)
    (hk : p.LeveledIn k) (argv : List String) : ((run app argv).perform p).2.LeveledIn k := by
  by_cases h : app.Dispatches argv p
  · obtain ⟨prepared, m, hread, _⟩ := h
    obtain ⟨line, r, hline, hsetup, hcourse⟩ := course_of_read course_keepsLevels hacts hread
    obtain ⟨b, c, hb, _, hr, _⟩ := Setup.found_of_run hsetup
    obtain ⟨_, hplace⟩ := hcourse (Setup.leveled_of_run hsetup)
    obtain ⟨b', hb', hbecomes⟩ := hplace b hr
    cases k with
    | memory =>
      obtain ⟨c, saves, readOnly, hstore, hleveled⟩ := hk
      obtain ⟨c', saves', hstore', hkind⟩ := hbecomes.memory_cases (Setup.store_of_place? hb hstore)
      refine ⟨c', saves', readOnly, hb'.store.trans (congrArg some hstore'), ?_⟩
      rcases hkind with rfl | hsaved
      · exact hleveled
      · exact hsaved
    | file l =>
      intro c hc
      rw [hb'.files] at hc
      obtain ⟨mode, content, text, hl, hutf, htext⟩ := FileSystem.held?_eq_some_iff.1 hc
      rcases hbecomes.file_cases hl with hbefore | ⟨c', before, hleveled, hleft⟩
      · rw [(Setup.at_of_place? hb).files.symm] at hbefore
        exact hk c (FileSystem.held?_eq_some_iff.2 ⟨mode, content, text, hbefore, hutf, htext⟩)
      · rcases FileSystem.settings_of_left hl hleft hc with rfl | hsettings
        · exact Settings.leveled_of_empty rfl rfl
        · rw [hsettings]
          exact hleveled
  · have hspares := spares_of_not_dispatches h
    cases k with
    | memory =>
      obtain ⟨c, saves, readOnly, hstore, hleveled⟩ := hk
      exact ⟨c, saves, readOnly, hspares.store _ hstore, hleveled⟩
    | file l =>
      intro c hc
      rw [hspares.files] at hc
      exact hk c hc

/-! ## 3. Failures about a level -/

/-- The failure is about a level of the log. -/
def SetupError.OfLevel : SetupError → Prop
  | stderrLevel _ => True
  | syslogLevel _ => True
  | _ => False

/-- It is the third or the fourth check of the setting up that reports such a failure. -/
theorem SetupError.ofLevel_iff (e : SetupError) :
    e.OfLevel ↔ e.fault.site = ⟨"InitCmd", 3⟩ ∨ e.fault.site = ⟨"InitCmd", 4⟩ := by
  cases e with
  | stderrLevel e => exact iff_of_true trivial (.inl rfl)
  | syslogLevel e => exact iff_of_true trivial (.inr rfl)
  | _ => exact iff_of_false id (by rintro (h | h) <;> cases h)

/-- The failure is about a level of the log, in the setting up of the session. -/
def RunError.OfLevel : RunError → Prop
  | parse (.setup e) => e.OfLevel
  | _ => False

/-- **Without options for the levels a session can be set up as far as the levels are concerned**, if those
    that it finds can be read. -/
theorem Setup.not_ofLevel_of_run {version : String} {fs : FlagList} {e : SetupError}
    (hstderr : fs.isSet "stderr" = false) (hsyslog : fs.isSet "syslog" = false)
    (hl : ∀ b c, place? fs p = some b → b.held? = some c → c.settings.Leveled)
    (h : ((run version fs).perform p).1 = .error e) : ¬ e.OfLevel := by
  rw [perform_run] at h
  split at h
  · cases h
    exact id
  have hchosen := perform_chooseStore_of_place? fs (choosing fs p)
  rw [place?_choosing] at hchosen
  unfold settle at h
  rw [Run.perform_bind, hchosen] at h
  cases hb : place? fs p with
  | none =>
    rw [hb] at h
    cases h
    exact id
  | some b =>
    have hat := at_of_place? ((place?_choosing fs p).trans hb)
    rw [hb] at h
    dsimp only at h
    generalize { choosing fs p with
      session := { (choosing fs p).session with store := some b.store } } = m at h hat
    rw [Run.perform_bind] at h
    cases hload : b.store.load b.files with
    | error failure =>
      rw [perform_loadConfiguration_of_error hat hload] at h
      cases h
      exact id
    | ok found =>
      obtain ⟨c, remark⟩ := found
      have hleveled : (settingsIn m.session.batch c).Leveled := by
        unfold settingsIn
        split
        · exact Settings.leveled_of_empty rfl rfl
        · exact hl b c hb (Place.held?_eq_some_iff.2 ⟨remark, hload⟩)
      rw [perform_loadConfiguration hat hload] at h
      dsimp only at h
      let remarked := ((Effect.remark remark).perform m).2
      let loaded : Execution := { remarked with session := { remarked.session with
        settings := settingsIn m.session.batch c, servers := c.servers, extra := c.extra } }
      obtain ⟨r, hr, _⟩ := settings_of_rest (p := loaded) version hstderr hsyslog hleveled
      rw [hr] at h
      cases h

namespace CommandLine

/-- What stands behind the tool's options has nothing to do with the setting up. -/
theorem error_ne_setup_of_readBehindGlobals {program : String} {globals : FlagList} {c : Cursor}
    {e : SetupError} : ((readBehindGlobals app program globals c).perform p).1 ≠ .error (.setup e) := by
  intro h
  unfold readBehindGlobals at h
  split at h
  · cases h
  split at h
  · cases h
  split at h
  · cases h
  rename_i name c _ _ _
  rw [Run.perform_bind, Run.perform_adapt] at h
  rcases hf : (findCommand app program (belowTool globals) name c).perform p with ⟨failure | _ | d, m⟩
  all_goals rw [hf] at h
  · cases h
  · cases h
  · simp only [Run.mapError_ok, Run.perform_bind, Run.perform_adapt] at h
    rcases hc : (connect program (belowTool globals) d).perform m with ⟨failure | prepared, m'⟩
    all_goals
      rw [hc] at h
      cases h

/-- A command line fails in the setting up only if its options are read to their end. -/
theorem setup_of_read {e : SetupError} (h : ((read app argv).perform p).1 = .error (.setup e)) :
    ∃ o, opening? app argv = some o ∧ ((Setup.run app.version o.globals).perform p).1 = .error e := by
  cases ho : opening? app argv with
  | none =>
    exfalso
    unfold opening? at ho
    unfold read at h
    split at h
    · cases h
    rename_i program c hn
    simp only [hn] at ho
    split at h
    · cases h
    rename_i ht
    rw [if_neg ht] at ho
    split at h
    · cases h
    rename_i c' ha
    simp only [ha] at ho
    unfold readArguments at h
    split at h
    · cases h
    · cases h
    · rename_i hread
      simp only [hread] at ho
      cases ho
  | some o =>
    refine ⟨o, rfl, ?_⟩
    rw [read_of_opening? ho, Run.perform_bind, Run.perform_adapt] at h
    rcases hs : (Setup.run app.version o.globals).perform p with ⟨failure | u, m⟩
    · rw [hs] at h
      cases h
      rfl
    · rw [hs] at h
      exact absurd h error_ne_setup_of_readBehindGlobals

end CommandLine

namespace App

/-- What a command comes to is no failure of the setting up. -/
theorem not_ofLevel_of_dispatch {prepared : Prepared} {e : RunError}
    (h : ((dispatch prepared).perform p).1 = .error e) : ¬ e.OfLevel := by
  cases hg : prepared.command.isGroup with
  | true =>
    unfold dispatch at h
    rw [hg] at h
    cases h
  | false =>
    rw [result_dispatch hg] at h
    unfold act at h
    split at h
    · rename_i action _
      rw [Run.perform_adapt] at h
      cases hr : ((action prepared.invocation).perform p).1 <;> rw [hr] at h <;> cases h
      exact id
    · cases h
      exact id

/-- **A run without options for the levels does not fail because of them**, if those that it finds can be
    read. -/
theorem not_ofLevel_of_run
    (hopen : ∀ o, CommandLine.opening? app argv = some o →
      o.globals.isSet "stderr" = false ∧ o.globals.isSet "syslog" = false)
    (hl : ∀ b c, CommandLine.place? app argv p = some b → b.held? = some c → c.settings.Leveled)
    {e : RunError} (h : ((run app argv).perform p).1 = .error e) : ¬ e.OfLevel := by
  rw [perform_run] at h
  dsimp only at h
  rcases hr : (CommandLine.read app argv).perform p with ⟨failure | _ | prepared, m⟩
  · rw [hr] at h
    unfold conclude at h
    dsimp only at h
    split at h
    · cases h
    cases h
    intro hlevel
    cases failure with
    | setup e =>
      obtain ⟨o, ho, hsetup⟩ := CommandLine.setup_of_read (congrArg Prod.fst hr)
      obtain ⟨hstderr, hsyslog⟩ := hopen o ho
      refine Setup.not_ofLevel_of_run hstderr hsyslog (fun b c hb => hl b c ?_) hsetup hlevel
      rw [CommandLine.place?, ho]
      exact hb
    | _ => exact hlevel
  · rw [hr] at h
    cases h
  · rw [hr] at h
    exact not_ofLevel_of_dispatch h

end App

end

/-! ## 4. One run after the other -/

/-- What one run left there is what is found there next. -/
def Spot.Finds (p q : Execution) : Spot → Prop
  | memory => ∀ c saves readOnly, p.session.store = some (.memory c saves readOnly) →
      ∃ saves' readOnly', q.session.store = some (.memory c saves' readOnly')
  | file l => q.files.held? l = p.files.held? l

/-- Where a run may begin after some runs of the tool, one after the other, of which each finds there what
    the one before has left. All else may be another: the session is a new one, the store may have become
    one that refuses to be saved to, and other files may have changed. -/
inductive Tool.After (k : Spot) (p : Execution) : Execution → Prop where
  | start : After k p p
  | run {q r : Execution} (h : After k p q) (argv : List String)
      (hr : k.Finds ((App.run app argv).perform q).2 r) : After k p r

namespace Tool

variable {k : Spot} {p q : Execution}

/-- Levels that can be read there are found there by the next run. -/
theorem leveledIn_of_finds (h : k.Finds p q) (hp : p.LeveledIn k) : q.LeveledIn k := by
  cases k with
  | memory =>
    obtain ⟨c, saves, readOnly, hstore, hleveled⟩ := hp
    obtain ⟨saves', readOnly', hstore'⟩ := h c saves readOnly hstore
    exact ⟨c, saves', readOnly', hstore', hleveled⟩
  | file l =>
    intro c hc
    exact hp c (h ▸ hc)

theorem After.leveledIn (h : After k p q) (hp : p.LeveledIn k) : q.LeveledIn k := by
  induction h with
  | start => exact hp
  | run _ argv hr ih =>
    exact leveledIn_of_finds hr (App.leveledIn_of_run (acts_respecting course_keepsLevels) ih argv)

/-- **The tool does not lock itself out.**

    Take a memory store, or the file at a place, of which the remembered levels can be read, and any runs of
    the tool on it, one after the other: with any options, batch runs or not, and whether their saves succeed,
    fail or are cut short. After each of them the levels that are remembered there can be read. So a later run that keeps
    its configuration there, or keeps none, and gives no option for a level, does not fail because of a
    level. -/
theorem never_locked_out (h : After k p q) (hp : p.LeveledIn k) :
    q.LeveledIn k ∧ ∀ argv, ((App.run app argv).perform q).2.LeveledIn k ∧
      ((∀ o, CommandLine.opening? app argv = some o →
          o.globals.isSet "stderr" = false ∧ o.globals.isSet "syslog" = false) →
        (∀ b, CommandLine.place? app argv q = some b → b.spot? = none ∨ b.spot? = some k) →
        ∀ e, ((App.run app argv).perform q).1 = .error e → ¬ e.OfLevel) := by
  have hq := h.leveledIn hp
  refine ⟨hq, fun argv => ⟨?_, fun hopen hspot e he => ?_⟩⟩
  · exact App.leveledIn_of_run (acts_respecting course_keepsLevels) hq argv
  · exact App.not_ofLevel_of_run hopen
      (fun b c hb hc => CommandLine.leveled_of_place? hq hb (hspot b hb) hc) he

/-- One run fails because of the level that it gives; the next one does not fail because of a level. -/
theorem never_locked_out_loud :
    let p : Execution := { session := { store := some (.inMemory { settings := { stderr := "info" } }) } }
    let first := (App.run app ["ngsi", "--stderr", "loud", "settings", "list"]).perform p
    let q : Execution := { session := { store := first.2.session.store } }
    first.1.toBool = false ∧ p.LeveledIn .memory ∧ After .memory p q ∧ q.LeveledIn .memory ∧
      ∀ e, ((App.run app ["ngsi", "settings", "list"]).perform q).1 = .error e → ¬ e.OfLevel := by
  intro p first q
  have hp : p.LeveledIn .memory :=
    ⟨_, 0, false, rfl, Settings.leveled_iff.2 ⟨.inr ⟨.info, LogLevel.parse_name .info⟩, .inl rfl⟩⟩
  have hq : After .memory p q := .run .start _ fun _ saves readOnly h => ⟨saves, readOnly, h⟩
  have hstore : q.session.store = some (.inMemory { settings := { stderr := "info" } }) := by
    decide +kernel
  obtain ⟨hleveled, hnext⟩ := never_locked_out hq hp
  refine ⟨by decide +kernel, hp, hq, hleveled, (hnext ["ngsi", "settings", "list"]).2 ?_ ?_⟩
  · intro o ho
    have hoptions : (CommandLine.opening? app ["ngsi", "settings", "list"]).map (fun o =>
        (o.globals.isSet "stderr", o.globals.isSet "syslog")) = some (false, false) := by decide +kernel
    rw [ho] at hoptions
    exact Prod.mk.inj (Option.some.inj hoptions)
  · intro b hb
    obtain ⟨o, _, hplace⟩ := Option.bind_eq_some_iff.1 hb
    refine .inr ?_
    rw [Place.spot?, Setup.store_of_place? hplace hstore]
    rfl

end Tool

end BrokerCli
