import BrokerCli.Proofs.Course
import BrokerCli.Proofs.Paths

/-!
# What a run does to files

A configuration file holds more than the settings: servers, and parts that the tool does not know. A run
is not to touch a file unless it comes to a command, and then only to change the settings:

* `App.Dispatches` -- the run comes to a command that is no group. Any other run spares files and store
  (`App.spares_of_not_dispatches`), and a run that cannot load its configuration is of this kind
  (`App.not_dispatches_of_unloadable`);
* `Place.Becomes` -- the place after saves of configurations of a kind; `Becomes.node?` is what they can
  do to one node;
* `Execution.Preserves` -- a step that keeps servers and unknown parts, and saves no other ones. The
  course of a run moves along this relation (`Execution.course_preserves`);
* `App.node?_of_run` -- all that a run can do to one node: where the path of the run means its place, the
  text of a configuration with the servers and unknown parts that the run has loaded is put there;
* `FileSystem.Astray` -- a path means a place, but cannot be followed to it. A run over such a path loads
  nothing, makes the directories that were missing, and then writes over what is there. But for that
  servers and unknown parts are never lost (`Tool.unowned_kept`), and what is no configuration is never
  overwritten (`Tool.untouched_unless_dispatched`).
-/

namespace BrokerCli

open Execution

section

variable {app : App} {argv : List String} {p q : Execution}

/-! ## 1. Runs that come to a command -/

/-- The run comes to a command that is no group. -/
def App.Dispatches (app : App) (argv : List String) (p : Execution) : Prop :=
  ∃ prepared q, (CommandLine.read app argv).perform p = (.ok (some prepared), q) ∧
    prepared.command.isGroup = false

/-- **A run that comes to no command writes nothing**, whatever else has become of its session. -/
theorem App.spares_of_not_dispatches (h : ¬ app.Dispatches argv p) :
    p.Spares ((run app argv).perform p).2 := by
  have hread := CommandLine.spares_read app argv p
  rw [perform_run]
  dsimp only
  rcases hr : (CommandLine.read app argv).perform p with ⟨e | _ | prepared, q⟩
  all_goals rw [hr] at hread
  · simp only [conclude]
    split <;> exact hread
  · exact hread
  · cases hg : prepared.command.isGroup with
    | true => exact trans_of Spares hread (quiet_dispatch_of_group hg q).spares
    | false => exact absurd ⟨prepared, q, hr, hg⟩ h

namespace CommandLine

/-- Where the run keeps its configuration. -/
def place? (app : App) (argv : List String) (p : Execution) : Option Place :=
  (opening? app argv).bind fun o => Setup.place? o.globals p

/-- The file in which the run keeps its configuration, if it keeps it in a file. -/
def path? (app : App) (argv : List String) (p : Execution) : Option String :=
  (place? app argv p).bind fun b => match b.store with
    | .file path => path
    | .memory .. => none

/-- A line that is read to its end has options of the tool that are read to their end. -/
theorem opening?_of_line? {line : Line} (h : line? app argv = some line) :
    ∃ o, opening? app argv = some o ∧ o.globals = line.globals := by
  rw [line?_eq_bind] at h
  obtain ⟨o, ho, hline⟩ := Option.bind_eq_some_iff.1 h
  exact ⟨o, ho, (perform_readBehindGlobals hline {}).2.1.symm⟩

end CommandLine

namespace Setup

/-- **A session that is set up has found a configuration** at the place of the run, and has its servers
    and unknown parts from there. -/
theorem found_of_run {version : String} {fs : FlagList} {r : Execution}
    (h : (run version fs).perform p = (.ok (), r)) :
    ∃ b c, place? fs p = some b ∧ b.held? = some c ∧ r.At b ∧
      r.session.servers = c.servers ∧ r.session.extra = c.extra := by
  rw [perform_run] at h
  split at h
  · cases h
  have hchosen := perform_chooseStore_of_place? fs (choosing fs p)
  rw [place?_choosing] at hchosen
  unfold settle at h
  rw [Run.perform_bind, hchosen] at h
  cases hb : place? fs p with
  | none =>
    rw [hb] at h
    cases h
  | some b =>
    have hat := at_of_place? ((place?_choosing fs p).trans hb)
    rw [hb] at h
    dsimp only at h
    generalize { choosing fs p with
      session := { (choosing fs p).session with store := some b.store } } = m at h hat
    rw [Run.perform_bind] at h
    cases hload : b.store.load b.files with
    | error e =>
      rw [perform_loadConfiguration_of_error hat hload] at h
      cases h
    | ok found =>
      obtain ⟨c, remark⟩ := found
      have hremark := (Effect.quiet_remark remark m).settles.stays b hat
      rw [perform_loadConfiguration hat hload] at h
      have htunes := congrArg Prod.snd h ▸ tunes_rest version fs _
      exact ⟨b, c, rfl, Place.held?_eq_some_iff.2 ⟨remark, hload⟩,
        htunes.settles.stays b ⟨hremark.store, hremark.files⟩, htunes.servers, htunes.extra⟩

end Setup

/-- **A run that cannot load its configuration comes to no command.** -/
theorem App.not_dispatches_of_unloadable {b : Place} (hb : CommandLine.place? app argv p = some b)
    (hc : b.held? = none) : ¬ app.Dispatches argv p := by
  rintro ⟨prepared, q, hread, _⟩
  obtain ⟨line, r, _, _, hline, hsetup, _⟩ := CommandLine.stages_of_read hread
  obtain ⟨o, ho, hglobals⟩ := CommandLine.opening?_of_line? hline
  obtain ⟨b', c, hb', hc', _⟩ := Setup.found_of_run hsetup
  rw [CommandLine.place?, ho, Option.bind_some, hglobals, hb'] at hb
  cases hb
  rw [hc] at hc'
  cases hc'

/-! ## 2. Saves at a place -/

/-- The place after some saves of configurations of a kind. -/
inductive Place.Becomes (P : Configuration → Prop) (b : Place) : Place → Prop where
  | same : Becomes P b b
  | save {b' : Place} {c : Configuration} (h : Becomes P b b') (hc : P c) : Becomes P b (b'.save c)

namespace Place

variable {P Q : Configuration → Prop} {b b' b'' : Place}

theorem Becomes.trans (h : b.Becomes P b') (h' : b'.Becomes P b'') : b.Becomes P b'' := by
  induction h' with
  | same => exact h
  | save _ hc ih => exact ih.save hc

/-- Saves elsewhere than in a file change no file. -/
theorem Becomes.files_eq (h : b.Becomes P b') (hs : ∀ path, b.store ≠ .file (some path)) :
    b'.files = b.files ∧ ∀ path, b'.store ≠ .file (some path) := by
  induction h with
  | same => exact ⟨rfl, hs⟩
  | @save b' c _ _ ih =>
    obtain ⟨hfiles, hstore⟩ := ih
    rw [← hfiles]
    unfold Place.save Store.save
    split
    · exact ⟨rfl, hstore⟩
    · exact ⟨rfl, fun _ h => Store.noConfusion h⟩
    · exact ⟨rfl, hstore⟩
    · rename_i path h
      exact absurd h (hstore path)

/-- **All that saves in a file can do to a node**: it stays, or, at the place that the path means, it
    becomes a file with what is left of the text of a configuration of the kind that is saved. -/
theorem Becomes.node? {path : String} (h : b.Becomes P b') (hs : b.store = .file (some path))
    {l : Location} {n : Node} (hl : b.files.node? l = some n) :
    b'.store = .file (some path) ∧ b'.files.current = b.files.current ∧
      b'.files.mishaps ⊆ b.files.mishaps ∧
      (b'.files.node? l = some n ∨ b.files.meant path = l ∧ ∃ c mode left, P c ∧
        b'.files.node? l = some (.file mode left) ∧ b.files.MayLeave c.text.toUTF8 left) := by
  induction h with
  | same => exact ⟨hs, rfl, List.Subset.refl _, .inl hl⟩
  | @save b' c _ hc ih =>
    obtain ⟨hstore, hcurrent, hmishaps, hnode⟩ := ih
    have hsave : b'.save c = ⟨.file (some path), (Store.saveFile b'.files path c).1⟩ := by
      simp only [Place.save, hstore, Store.save]
    obtain ⟨hcurrent', _, hmishaps'⟩ := Store.rest_saveFile b'.files path c
    rw [hsave]
    refine ⟨rfl, hcurrent'.trans hcurrent, List.Subset.trans hmishaps' hmishaps, ?_⟩
    -- whatever the saves before have left, this one leaves it or puts its own text there
    have hnext {n' : Node} (h : b'.files.node? l = some n') := Store.node?_saveFile path c h
    rcases hnode with hnode | ⟨hplace, c', mode, left, hc', hnode, hleft⟩
    all_goals
      rcases hnext hnode with hkept | ⟨hplace', mode', left', hnode', hleft'⟩
    · exact .inl hkept
    · rw [FileSystem.meant_congr hcurrent] at hplace'
      exact .inr ⟨hplace', c, mode', left', hc, hnode', hleft'.mono hmishaps⟩
    · exact .inr ⟨hplace, c', mode, left, hc', hkept, hleft⟩
    · exact .inr ⟨hplace, c, mode', left', hc, hnode', hleft'.mono hmishaps⟩

/-- **Where files come from**: a file behind some saves was there before, or holds what is left of the text
    of a configuration of the kind that is saved. -/
theorem Becomes.file_cases (h : b.Becomes P b') {l : Location} {mode : Nat} {content : ByteArray}
    (hl : b'.files.node? l = some (.file mode content)) :
    b.files.node? l = some (.file mode content) ∨
      ∃ c fs, P c ∧ FileSystem.MayLeave fs c.text.toUTF8 content := by
  induction h with
  | same => exact .inl hl
  | @save b' c _ hc ih =>
    unfold Place.save Store.save at hl
    split at hl
    · exact ih hl
    · exact ih hl
    · exact ih hl
    · rcases Store.file_of_saveFile hl with hbefore | hleft
      · exact ih hbefore
      · exact .inr ⟨c, b'.files, hc, hleft⟩

/-- What is in memory behind some saves was there before, or is a configuration of the kind that is
    saved. -/
theorem Becomes.memory_cases (h : b.Becomes P b') {c : Configuration} {saves : Nat} {readOnly : Bool}
    (hb : b.store = .memory c saves readOnly) :
    ∃ c' saves', b'.store = .memory c' saves' readOnly ∧ (c' = c ∨ P c') := by
  induction h with
  | same => exact ⟨c, saves, hb, .inl rfl⟩
  | @save b' c₁ _ hc ih =>
    obtain ⟨c', saves', hstore, hkind⟩ := ih
    unfold Place.save
    rw [hstore]
    cases readOnly with
    | true => exact ⟨c', saves', rfl, hkind⟩
    | false => exact ⟨c₁, saves' + 1, rfl, .inr hc⟩

end Place

/-! ## 3. Steps that keep what the tool does not own -/

/-- A configuration with these servers and unknown parts. -/
def Configuration.Holds (servers : ServerTable) (extra : Dictionary Json) (c : Configuration) : Prop :=
  c.servers = servers ∧ c.extra = extra

/-- Servers and unknown parts are as they were, and what was saved at the place had these. -/
structure Execution.Preserves (p q : Execution) : Prop where
  servers : q.session.servers = p.session.servers
  extra : q.session.extra = p.session.extra
  place : ∀ b, p.At b → ∃ b', q.At b' ∧
    b.Becomes (Configuration.Holds p.session.servers p.session.extra) b'

namespace Execution

instance : IsPreorder Execution Preserves where
  refl _ := ⟨rfl, rfl, fun b hb => ⟨b, hb, .same⟩⟩
  trans p q r h h' := by
    refine ⟨h'.servers.trans h.servers, h'.extra.trans h.extra, fun b hb => ?_⟩
    obtain ⟨b', hb', hbecomes⟩ := h.place b hb
    obtain ⟨b'', hb'', hbecomes'⟩ := h'.place b' hb'
    rw [h.servers, h.extra] at hbecomes'
    exact ⟨b'', hb'', hbecomes.trans hbecomes'⟩

end Execution

/-- A save is of the session's own configuration; and what else a run does changes the settings only. -/
theorem Execution.course_preserves : Course Preserves where
  change p q h hfiles :=
    ⟨h.servers, h.extra, fun b hb => ⟨b, ⟨h.store.trans hb.store, hfiles.trans hb.files⟩, .same⟩⟩
  save p := by
    have hconfiguration := Session.configuration_save p
    refine ⟨congrArg Configuration.servers hconfiguration, congrArg Configuration.extra hconfiguration,
      fun b hb => ?_⟩
    rcases (Session.place_save hb).1 with hsame | hsaved
    · exact ⟨b, hsame, .same⟩
    · exact ⟨_, hsaved, .save .same ⟨rfl, rfl⟩⟩

/-- An action that keeps what the tool does not own. -/
def Action.Preserves (a : Action) : Prop := ∀ i, (a i).Respects Execution.Preserves

/-- **All commands of the tool keep what it does not own.** -/
theorem Tool.acts_preserving : Tool.app.Acts Action.Preserves :=
  acts_respecting Execution.course_preserves

namespace App

/-- **What a run makes of the place where it keeps its configuration**: it saves configurations with the
    servers and unknown parts that it has loaded there. -/
theorem becomes_of_run (hacts : app.Acts Action.Preserves) (h : app.Dispatches argv p) :
    ∃ b c b', CommandLine.place? app argv p = some b ∧ b.held? = some c ∧
      ((run app argv).perform p).2.At b' ∧
      b.Becomes (Configuration.Holds c.servers c.extra) b' := by
  obtain ⟨prepared, q, hread, _⟩ := h
  obtain ⟨line, r, hline, hsetup, hcourse⟩ := course_of_read Execution.course_preserves hacts hread
  obtain ⟨o, ho, hglobals⟩ := CommandLine.opening?_of_line? hline
  obtain ⟨b, c, hb, hc, hr, hservers, hextra⟩ := Setup.found_of_run hsetup
  obtain ⟨b', hb', hbecomes⟩ := hcourse.place b hr
  rw [hservers, hextra] at hbecomes
  refine ⟨b, c, b', ?_, hc, hb', hbecomes⟩
  rw [CommandLine.place?, ho, Option.bind_some, hglobals]
  exact hb

/-- The place of a run is among its files. -/
theorem files_of_place? {b : Place} (h : CommandLine.place? app argv p = some b) : b.files = p.files := by
  unfold CommandLine.place? at h
  obtain ⟨o, _, hb⟩ := Option.bind_eq_some_iff.1 h
  exact (Setup.at_of_place? hb).files.symm

/-- **All that a run can do to a node**: it stays; or, where the path of the run means its place, it becomes
    a file with what is left of the text of a configuration, with the servers and unknown parts that the run
    has loaded. -/
theorem node?_of_run (hacts : app.Acts Action.Preserves) (argv : List String) {l : Location} {n : Node}
    (hl : p.files.node? l = some n) :
    let q := ((run app argv).perform p).2
    q.files.node? l = some n ∨ ∃ (path : String) (c c' : Configuration) (mode : Nat) (left : ByteArray),
      CommandLine.path? app argv p = some path ∧ p.files.meant path = l ∧
      Place.held? ⟨.file (some path), p.files⟩ = some c ∧ c'.Holds c.servers c.extra ∧
      q.files.node? l = some (.file mode left) ∧ p.files.MayLeave c'.text.toUTF8 left := by
  by_cases h : app.Dispatches argv p
  · obtain ⟨b, c, b', hb, hc, hat, hbecomes⟩ := becomes_of_run hacts h
    have hfiles := files_of_place? hb
    dsimp only
    rw [hat.files]
    rw [← hfiles] at hl ⊢
    by_cases hs : ∃ path, b.store = .file (some path)
    · obtain ⟨path, hs⟩ := hs
      have hpath : CommandLine.path? app argv p = some path := by
        rw [CommandLine.path?, hb, Option.bind_some, hs]
      have hplace : Place.mk (.file (some path)) b.files = b := by rw [← hs]
      obtain ⟨_, _, _, hnode | ⟨hmeant, c', mode, left, hholds, hfile, hleft⟩⟩ := hbecomes.node? hs hl
      · exact .inl hnode
      · exact .inr ⟨path, c, c', mode, left, hpath, hmeant, hplace.symm ▸ hc, hholds, hfile, hleft⟩
    · left
      rw [(hbecomes.files_eq fun path h => hs ⟨path, h⟩).1]
      exact hl
  · left
    rw [(spares_of_not_dispatches h).files]
    exact hl

end App

/-! ## 4. Paths that go astray, and writes that are cut short -/

/-- **The path goes astray**: its text means the place, but it cannot be followed to it, because some
    directory on its way is not there. -/
def FileSystem.Astray (fs : FileSystem) (path : String) (l : Location) : Prop :=
  fs.meant path = l ∧ fs.isThere path = false

/-- The run goes astray to a place. -/
def App.Strays (app : App) (argv : List String) (p : Execution) (l : Location) : Prop :=
  ∃ path, CommandLine.path? app argv p = some path ∧ p.files.Astray path l

/-- The file at the place holds only the first bytes of the text of a configuration. -/
def FileSystem.Torn (fs : FileSystem) (l : Location) (c : Configuration) (m : Mishap) : Prop :=
  m.written < c.text.toUTF8.size ∧
    ∃ mode, fs.node? l = some (.file mode (c.text.toUTF8.extract 0 m.written))

/-- The run tears the file at the place: a write to it goes wrong, so that only the first bytes of the text of
    a configuration are there, where something else was. -/
def App.Tears (app : App) (argv : List String) (p : Execution) (l : Location) : Prop :=
  let q := ((run app argv).perform p).2
  q.files.node? l ≠ p.files.node? l ∧ ∃ m c, some m ∈ p.files.mishaps ∧ q.files.Torn l c m

namespace App

variable {l : Location}

/-- What is no configuration is left alone by a run that does not go astray to it. -/
theorem node?_of_unreadable (hacts : app.Acts Action.Preserves) {n : Node}
    (hl : p.files.node? l = some n) (hh : p.files.held? l = none) (hs : ¬ app.Strays argv p l) :
    ((run app argv).perform p).2.files.node? l = some n := by
  rcases node?_of_run hacts argv hl with hkept | ⟨path, c, _, _, _, hpath, hmeant, hc, _⟩
  · exact hkept
  · cases hthere : p.files.isThere path with
    | false => exact absurd ⟨path, hpath, hmeant, hthere⟩ hs
    | true =>
      have hheld := Place.held?_meant hthere hc
      rw [hmeant, hh] at hheld
      cases hheld

/-- **What a run makes of a file with a configuration**: the file stays as it is; or the text of a
    configuration was written to it, with the same servers and unknown parts, or with none of them if the
    run goes astray to it. The file holds that configuration, or the run has torn it. -/
theorem held?_of_run (hacts : app.Acts Action.Preserves) (argv : List String) {c : Configuration}
    (hc : p.files.held? l = some c) (hn : c.toJson.Integral) :
    let q := ((run app argv).perform p).2
    q.files.node? l = p.files.node? l ∨ ∃ c', c'.toJson.Integral ∧
      (c'.Holds c.servers c.extra ∨ app.Strays argv p l ∧ c'.Holds .empty .empty) ∧
      (q.files.held? l = some c' ∨ ∃ m, some m ∈ p.files.mishaps ∧ q.files.Torn l c' m) := by
  obtain ⟨_, _, _, hl, _, _⟩ := FileSystem.held?_eq_some_iff.1 hc
  have hempty : ({} : Configuration).Fits (Configuration.depthLimit - 1) ∧
      ({} : Configuration).toJson.Integral := by
    have hread : Store.readConfiguration "" "" = .ok {} := rfl
    exact ⟨Store.fits_of_readConfiguration hread, fun _ hn => absurd hn List.not_mem_nil⟩
  rcases node?_of_run hacts argv hl with hkept | ⟨path, c₀, c', mode, left, hpath, hmeant, hc₀, hholds,
    hfile, hleft⟩
  · exact .inl (hkept.trans hl.symm)
  right
  -- the text says what was loaded at the path, and it can be read again
  have hloaded : c₀.Fits (Configuration.depthLimit - 1) ∧ c₀.toJson.Integral ∧
      (c'.Holds c.servers c.extra ∨ app.Strays argv p l ∧ c'.Holds .empty .empty) := by
    cases hthere : p.files.isThere path with
    | true =>
      have hheld := Place.held?_meant hthere hc₀
      rw [hmeant, hc] at hheld
      cases hheld
      exact ⟨FileSystem.fits_of_held? hc, hn, .inl hholds⟩
    | false =>
      rw [Place.held?_of_not_isThere hthere] at hc₀
      cases hc₀
      exact ⟨hempty.1, hempty.2, .inr ⟨⟨path, hpath, hmeant, hthere⟩, hholds⟩⟩
  obtain ⟨hfits, hintegral, hkind⟩ := hloaded
  have hn' : c'.toJson.Integral := Configuration.integral_congr hholds.1 hholds.2 hintegral
  have hfits' : c'.Fits (Configuration.depthLimit - 1) :=
    ⟨hholds.1 ▸ hfits.servers, hholds.2 ▸ hfits.extra⟩
  refine ⟨c', hn', hkind, ?_⟩
  rcases hleft with rfl | ⟨m, hm, rfl⟩
  · exact .inl (FileSystem.held?_of_text hfits' hn' hfile)
  · by_cases hall : m.written < c'.text.toUTF8.size
    · exact .inr ⟨m, hm, hall, mode, hfile⟩
    · rw [← Nat.max_eq_left (Nat.le_of_not_lt hall), ByteArray.extract_zero_max_size] at hfile
      exact .inl (FileSystem.held?_of_text hfits' hn' hfile)

end App

end

namespace Tool

variable {l : Location} {c : Configuration}

/-! ## 5. What is no configuration -/

/-- **A run that comes to no command leaves everything as it was; so what cannot be loaded is not
    overwritten.**

    Whatever keeps a run from a command that is no group, the files are as they were, and so is the store,
    with the number of its saves. A run that cannot load its configuration is of this kind. And a run of
    the tool leaves alone whatever is no configuration, at the place of its own configuration or
    elsewhere, unless it goes astray to it. -/
theorem untouched_unless_dispatched (argv : List String) (p : Execution) :
    (∀ app : App, ¬ app.Dispatches argv p → p.Spares ((App.run app argv).perform p).2) ∧
    (∀ (app : App) (b : Place), CommandLine.place? app argv p = some b → b.held? = none →
      ¬ app.Dispatches argv p) ∧
    ∀ (l : Location) (n : Node), p.files.node? l = some n → p.files.held? l = none →
      ¬ app.Strays argv p l → ((App.run app argv).perform p).2.files.node? l = some n :=
  ⟨fun _ => App.spares_of_not_dispatches, fun _ _ => App.not_dispatches_of_unloadable,
    fun _ _ => App.node?_of_unreadable acts_preserving⟩

/-- The settings are to be cleared in a file that is no configuration. -/
theorem untouched_unless_dispatched_clear :
    let n : Node := .file 0o644 "\x7b".toUTF8
    let p := start { nodes := [(["c.json"], n)] } {}
    let argv := ["ngsi", "--config", "c.json", "settings", "clear"]
    p.Spares ((App.run app argv).perform p).2 ∧
      ((App.run app argv).perform p).2.files.node? ["c.json"] = some n := by
  intro n p argv
  have hplace : CommandLine.place? app argv p = some ⟨.file (some "c.json"), p.files⟩ := by
    have ho : (CommandLine.opening? app argv).map (fun o => (o.globals.textIfSet "config",
        o.globals.textIfSet "configDir")) = some (some "c.json", none) := by
      decide +kernel +revert
    obtain ⟨o, ho, hoptions⟩ := Option.map_eq_some_iff.1 ho
    obtain ⟨hfile, hdirectory⟩ := Prod.mk.inj hoptions
    rw [CommandLine.place?, ho, Option.bind_some]
    simp only [Setup.place?, hfile, hdirectory]
    rfl
  have hnothing : Place.held? ⟨.file (some "c.json"), p.files⟩ = none := by decide +kernel
  have hthere : p.files.isThere "c.json" = true := by decide +kernel
  have hstays : ¬ app.Strays argv p ["c.json"] := by
    rintro ⟨path, hpath, _, hnot⟩
    rw [CommandLine.path?, hplace] at hpath
    cases hpath
    exact Bool.noConfusion (hnot.symm.trans hthere)
  obtain ⟨hspares, hunloadable, hkept⟩ := untouched_unless_dispatched argv p
  exact ⟨hspares app (hunloadable app _ hplace hnothing),
    hkept ["c.json"] n rfl (by decide +kernel) hstays⟩

/-- **What is no configuration is overwritten by a run that goes astray to it**: the directory that was
    missing on the way is made between loading and saving. -/
theorem overwritten_astray :
    ¬ ∀ (files : FileSystem) (argv : List String) (l : Location) (n : Node), files.node? l = some n →
      files.held? l = none → (run files {} argv).2.files.node? l = some n := by
  intro h
  let n : Node := .file 0o644 "\x7b\"settings\": ".toUTF8
  let files : FileSystem := { nodes := [(["conf.json"], n)] }
  let argv := ["ngsi", "--config", "sub/../conf.json", "resolve", "--host", "http://h"]
  have hthere : files.node? ["conf.json"] = some n := rfl
  have hnothing : files.held? ["conf.json"] = none := by decide +kernel
  have hwritten : (run files {} argv).2.files.held? ["conf.json"] =
      some { settings := { host := "http://h" } } := by decide +kernel
  have hkept := (h files argv ["conf.json"] n hthere hnothing).trans hthere.symm
  rw [FileSystem.held?_congr hkept, hnothing] at hwritten
  cases hwritten

/-! ## 6. What is not the tool's own -/

/-- The files after some runs of the tool, one after the other, of which none goes astray to the place, and
    none tears the file there. -/
inductive Sequel (l : Location) (fs : FileSystem) : FileSystem → Prop where
  | start : Sequel l fs fs
  | run {p : Execution} (h : Sequel l fs p.files) (argv : List String) (hs : ¬ app.Strays argv p l)
      (ht : ¬ app.Tears argv p l) : Sequel l fs ((App.run app argv).perform p).2.files

/-- Servers and unknown parts stay what they are, whatever runs there are. -/
theorem Sequel.held? {fs fs' : FileSystem} (h : Sequel l fs fs') (hc : fs.held? l = some c)
    (hn : c.toJson.Integral) :
    ∃ c', fs'.held? l = some c' ∧ c'.toJson.Integral ∧ c'.Holds c.servers c.extra := by
  induction h with
  | start => exact ⟨c, hc, hn, rfl, rfl⟩
  | @run p _ argv hs ht ih =>
    obtain ⟨c', hc', hn', hservers, hextra⟩ := ih
    by_cases hsame : ((App.run app argv).perform p).2.files.node? l = p.files.node? l
    · exact ⟨c', (FileSystem.held?_congr hsame).trans hc', hn', hservers, hextra⟩
    · rcases App.held?_of_run acts_preserving argv hc' hn' with
        hsame' | ⟨c'', hn'', hholds | ⟨hstrays, _⟩, hc'' | ⟨m, hm, htorn⟩⟩
      · exact absurd hsame' hsame
      · exact ⟨c'', hc'', hn'', hholds.1.trans hservers, hholds.2.trans hextra⟩
      · exact absurd ⟨hsame, m, c'', hm, htorn⟩ ht
      · exact absurd hstrays hs
      · exact absurd hstrays hs

/-- **No run loses or alters what the tool does not own.**

    Take a file that holds a configuration, in whose unknown parts the numbers are integers, and any runs
    of the tool, one after the other, none of which has gone astray to the file or torn it. After one more
    run the file is as it was before, or the text of a configuration was written to it with the servers and
    the unknown parts that it held at first. There are two exceptions. If this run goes astray to the file,
    the configuration may be one without any servers or unknown parts. And if the write to the file goes
    wrong, the file holds only the first bytes of the text; otherwise it holds the configuration. -/
theorem unowned_kept {fs : FileSystem} (hc : fs.held? l = some c) (hn : c.toJson.Integral)
    {p : Execution} (h : Sequel l fs p.files) (argv : List String) :
    let q := ((App.run app argv).perform p).2
    q.files.node? l = p.files.node? l ∨ ∃ c',
      (c'.Holds c.servers c.extra ∨ app.Strays argv p l ∧ c'.Holds .empty .empty) ∧
      (q.files.held? l = some c' ∨ ∃ m, some m ∈ p.files.mishaps ∧ q.files.Torn l c' m) := by
  obtain ⟨c₁, hc₁, hn₁, hservers, hextra⟩ := h.held? hc hn
  rcases App.held?_of_run acts_preserving argv hc₁ hn₁ with hsame | ⟨c', _, hholds, hfile⟩
  · exact .inl hsame
  · rw [hservers, hextra] at hholds
    exact .inr ⟨c', hholds, hfile⟩

/-- A server and a number that the tool does not know. -/
def orionAndOne : Configuration where
  servers := .ofList [("orion", { serverType := "broker", serverHost := "http://localhost:1026" })]
  extra := .ofList [("x", .number (.whole 1))]

theorem integral_orionAndOne : orionAndOne.toJson.Integral := by
  intro n hn
  have hnumbers : orionAndOne.toJson.numbers = [.whole 1] := by decide +kernel
  rw [hnumbers, List.mem_singleton] at hn
  exact .inr ⟨1, hn, by decide, by decide⟩

/-- A file with these. -/
def orionFile : FileSystem where
  nodes := [(["conf.json"], .file 0o644 ("\x7b\"brokers\":\x7b\"orion\":\x7b\"serverType\":\"broker\"," ++
    "\"serverHost\":\"http://localhost:1026\"\x7d\x7d,\"x\":1\x7d").toUTF8)]

/-- Another host is remembered in the file, and the server and the number are still there. -/
theorem unowned_kept_resolve :
    let p := start orionFile {}
    let q := ((App.run app ["ngsi", "--config", "conf.json", "resolve", "-h", "http://h"]).perform p).2
    orionFile.held? ["conf.json"] = some orionAndOne ∧ orionAndOne.toJson.Integral ∧
      (q.files.node? ["conf.json"] = p.files.node? ["conf.json"] ∨
        ∃ c', (c'.Holds orionAndOne.servers orionAndOne.extra ∨
            app.Strays ["ngsi", "--config", "conf.json", "resolve", "-h", "http://h"] p ["conf.json"] ∧
              c'.Holds .empty .empty) ∧
          q.files.held? ["conf.json"] = some c') := by
  have hc : orionFile.held? ["conf.json"] = some orionAndOne := by decide +kernel
  refine ⟨hc, integral_orionAndOne, ?_⟩
  rcases unowned_kept hc integral_orionAndOne (p := start orionFile {}) .start
    ["ngsi", "--config", "conf.json", "resolve", "-h", "http://h"] with hsame | ⟨c', hholds, hheld | ⟨m, hm, _⟩⟩
  · exact .inl hsame
  · exact .inr ⟨c', hholds, hheld⟩
  · exact absurd hm List.not_mem_nil

/-- **A run that goes astray loses what the tool does not own**: the server and the number are gone. -/
theorem lost_astray :
    ¬ ∀ (files : FileSystem) (argv : List String) (l : Location) (c : Configuration),
      files.held? l = some c → c.toJson.Integral →
      let after := (run files {} argv).2.files
      after.node? l = files.node? l ∨
        ∃ c', after.held? l = some c' ∧ c'.servers = c.servers ∧ c'.extra = c.extra := by
  intro h
  let argv := ["ngsi", "--config", "sub/../conf.json", "resolve", "--host", "http://h"]
  let left : Configuration := { settings := { host := "http://h" } }
  have hc : orionFile.held? ["conf.json"] = some orionAndOne := by decide +kernel
  have hleft : (run orionFile {} argv).2.files.held? ["conf.json"] = some left := by decide +kernel
  rcases h orionFile argv ["conf.json"] orionAndOne hc integral_orionAndOne with
    hsame | ⟨c', hc', hservers, _⟩
  · rw [FileSystem.held?_congr hsame, hc] at hleft
    exact absurd (Option.some.inj hleft) (by decide +kernel)
  · rw [hleft] at hc'
    cases hc'
    exact absurd hservers (by decide +kernel)

end Tool

end BrokerCli
