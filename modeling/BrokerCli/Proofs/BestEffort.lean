import BrokerCli.Proofs.Custody

/-!
# Writing back is best effort

At its end a run writes the settings back; that they cannot be written is no failure of the run. Put
precisely: of two places from which the same is loaded, let one take whatever is saved there, and let the
other one refuse it. Then a run over the second is the run over the first, but for one line:

* `Place.Against` -- two such places; and `Place.Withstands`, a place at which a save was refused;
* `Action.SavesNothing` -- an action that does not save: it does the same over either place, and leaves the
  place alone. All commands of the tool are of this kind but those that change what is remembered
  (`Tool.savesNothing_of_bundled`);
* `CommandLine.agrees_read_of_against` -- up to the command the two runs are twins;
* `Execution.Adds` -- one complaint more, and nothing else to be seen; and `Execution.Reports`, what a
  refused save comes to, against one that succeeds;
* `App.flush_of_against`, `App.dispatch_of_against` -- so the two runs are still twins at the end, or one of
  them has saved its configuration and the other has reported that it could not;
* `App.run_best_effort` -- the whole run.
-/

namespace BrokerCli

open Execution

/-! ## 1. A place that takes what is saved, and one that refuses it -/

/-- The same is loaded from both places. Every save at the one succeeds, and every save at the other
    fails. -/
structure Place.Against (b b' : Place) : Prop where
  load : b'.store.load b'.files = b.store.load b.files
  takes : ∀ c, b.takes c = true
  refuses : ∀ c, b'.takes c = false

/-- Only the first bytes of a content came to the file at a place, because the next write goes wrong: it has
    the permission bits that it had, and holds these bytes, unless it is a device. Everything else is where it
    was, and no other file is new. -/
structure FileSystem.CutShort (fs : FileSystem) (content : ByteArray) (l : Location) (fs' : FileSystem) :
    Prop where
  node : ∃ m, fs.mishaps.head? = some (some m) ∧
    fs'.node? l = some (.file (fs.bitsAt l) (fs.taken l (content.extract 0 m.written)))
  kept : ∀ k n, k ≠ l → fs.node? k = some n → fs'.node? k = some n
  found : ∀ k mode content, k ≠ l → fs'.node? k = some (.file mode content) →
    fs.node? k = some (.file mode content)

theorem FileSystem.Grows.cutShort_of_wrote {fs ready fs' : FileSystem} {content : ByteArray} {l : Location}
    {cause : FileError} (h : fs.Grows ready) (hw : ready.Wrote content fs' (some cause) l) :
    fs.CutShort content l fs' := by
  obtain ⟨m, hm, _⟩ := Option.map_eq_some_iff.1 hw.error.symm
  constructor
  case node =>
    refine ⟨m, h.beside.mishaps ▸ Option.join_eq_some_iff.1 hm, ?_⟩
    rw [hw.node, hm, h.bitsAt, h.taken]
    rfl
  case kept => exact fun k n hk hn => (hw.others k hk).trans (h.kept k n hn)
  case found => exact fun k mode old hk hn => h.found k mode old ((hw.others k hk).symm.trans hn)

/-- What a save leaves that was refused. The store is what it was; and if it is not to be in a file, so are
    all files. Else so is every file, but there may be new directories; unless the refusal came after the file
    was opened, which then holds only the first bytes of the configuration's text. -/
structure Place.Withstands (b : Place) (c : Configuration) (e : StoreError) (b' : Place) : Prop where
  store : b'.store = b.store
  elsewhere : (∀ path, b.store ≠ .file (some path)) → b'.files = b.files
  unopened : (∀ path cause, e ≠ .cutShort path cause) → b.files.Grows b'.files
  opened : ∀ path cause, e = .cutShort path cause → b.store = .file (some path) ∧
    b.files.CutShort c.text.toUTF8 (b.files.meant path) b'.files

namespace Place

variable {b b' : Place} {c : Configuration}

/-- Two stores in memory that hold the same, of which one is read-only. -/
theorem against_memory (held : Configuration) (saves saves' : Nat) (files files' : FileSystem) :
    Against ⟨.memory held saves false, files⟩ ⟨.memory held saves' true, files'⟩ :=
  ⟨rfl, fun _ => rfl, fun _ => rfl⟩

theorem outcome_of_takes (h : b.takes c = true) :
    ∃ remark, (b.store.save b.files c).outcome = .ok remark := by
  unfold takes at h
  cases ho : (b.store.save b.files c).outcome with
  | error e =>
    rw [ho] at h
    cases h
  | ok remark => exact ⟨remark, rfl⟩

/-- **What a save leaves that is refused.** -/
theorem withstands_of_refuses (h : b.takes c = false) :
    ∃ e, (b.store.save b.files c).outcome = .error e ∧ b.Withstands c e (b.save c) := by
  obtain ⟨store, files⟩ := b
  cases store with
  | memory held saves readOnly =>
    cases readOnly with
    | true => exact ⟨_, rfl, rfl, fun _ => rfl, fun _ => .refl _, nofun⟩
    | false => cases h
  | file path =>
    cases path with
    | none => cases h
    | some path =>
      have houtcome : (Store.save (.file (some path)) files c).outcome =
        (Store.saveFile files path c).2 := rfl
      rcases Store.saveFile_cases files path c with
        ⟨hgrows, e, he, hunopened⟩ | ⟨ready, cause?, hgrows, hwrote, he⟩
      · exact ⟨e, houtcome.trans he, rfl, fun hpath => absurd rfl (hpath path), fun _ => hgrows,
          fun path' cause hopened => absurd hopened (hunopened path' cause)⟩
      · cases cause? with
        | none =>
          unfold takes at h
          rw [houtcome, he] at h
          cases h
        | some cause =>
          refine ⟨_, houtcome.trans he, rfl, fun hpath => absurd rfl (hpath path),
            fun hopened => absurd rfl (hopened path cause), ?_⟩
          rintro path' cause' hsame
          cases hsame
          exact ⟨rfl, hgrows.cutShort_of_wrote hwrote⟩

end Place

/-! ## 2. Actions that do not save -/

/-- An action that does not save: over either of the two places it comes to the same, and leaves the place
    alone. -/
def Action.SavesNothing (b b' : Place) (a : Action) : Prop :=
  ∀ i p q, p.Twins q → p.At b → q.At b' →
    (a i).Agrees p q ∧ ((a i).perform p).2.At b ∧ ((a i).perform q).2.At b'

/-- The place is as it was if nothing was written. -/
theorem Execution.Spares.at {p q : Execution} {b : Place} (h : p.Spares q) (hb : p.At b) : q.At b :=
  ⟨h.store b.store hb.store, h.files.trans hb.files⟩

/-- An action that neither sees nor touches where the configuration is kept does not save. -/
theorem Action.savesNothing_of_ignores {a : Action}
    (h : ∀ (i : Invocation) (x : Exchange), x.factory = id → (a i).Ignores x false) (b b' : Place) :
    a.SavesNothing b b' := by
  intro i p q hpq hb hb'
  exact ⟨Effect.Ignores.agrees (h i) hpq, (Run.Ignores.spares (h i) p).at hb,
    (Run.Ignores.spares (h i) q).at hb'⟩

/-- The commands of the tool do not save, but for those that change what is remembered. -/
theorem Tool.savesNothing_of_bundled {a : Action} (h : Tool.Bundled a) (hdelete : a ≠ Remembered.delete)
    (hclear : a ≠ Remembered.clear) (hmode : a ≠ Remembered.setMode) (b b' : Place) :
    a.SavesNothing b b' := by
  refine Action.savesNothing_of_ignores (fun i x _ => ?_) b b'
  have hmem := Tool.mem_actions_of_bundled h
  simp only [Tool.actions, List.mem_cons, List.not_mem_nil, or_false] at hmem
  rcases hmem with rfl | rfl | rfl | rfl | rfl | rfl | rfl
  · exact Resolve.ignores_describe i
  · exact Servers.ignores_list i
  · exact Servers.ignores_get i
  · exact Remembered.ignores_list i
  · exact absurd rfl hdelete
  · exact absurd rfl hclear
  · exact absurd rfl hmode

/-! ## 3. Up to the command -/

section

variable {app : App} {argv : List String} {p q : Execution} {b b' : Place}

/-- Of two stores in memory that hold the same, one may be read-only, whatever the command line. -/
theorem CommandLine.against_place? (app : App) (argv : List String) {held : Configuration}
    {saves saves' : Nat}
    (hp : p.session.store = some (.memory held saves false))
    (hq : q.session.store = some (.memory held saves' true)) :
    Option.Rel Place.Against (place? app argv p) (place? app argv q) := by
  unfold place?
  cases opening? app argv with
  | none => exact .none
  | some o =>
    simp only [Option.bind_some, Setup.place?, hp, hq]
    exact .some (Place.against_memory held saves saves' p.files q.files)

/-- **Twins stay twins up to the command** if the same is loaded by both. -/
theorem CommandLine.agrees_read_of_against (app : App) (argv : List String) (hpq : p.Twins q)
    (hplaces : Option.Rel Place.Against (place? app argv p) (place? app argv q)) :
    (read app argv).Agrees p q := by
  refine agrees_read_of_settle app argv hpq fun o ho => ?_
  rw [place?, place?, ho, Option.bind_some, Option.bind_some, ← Setup.place?_choosing,
    ← Setup.place?_choosing o.globals q] at hplaces
  refine Setup.agrees_settle_of_load app.version (Setup.twins_choosing o.globals hpq) hplaces
    fun b b' hagainst m m' hm hb hb' _ _ => ?_
  unfold Run.Agrees Effect.Agrees
  have hload := hagainst.load
  cases hc : b.store.load b.files with
  | error e =>
    rw [hc] at hload
    simp only [Run.perform_run, Setup.perform_loadConfiguration_of_error hb hc,
      Setup.perform_loadConfiguration_of_error hb' hload]
    exact ⟨trivial, hm⟩
  | ok found =>
    obtain ⟨c, remark⟩ := found
    rw [hc] at hload
    simp only [Run.perform_run, Setup.perform_loadConfiguration hb hc,
      Setup.perform_loadConfiguration hb' hload, hm.batch]
    exact ⟨trivial, (Execution.twins_remark hm fun _ => rfl).modify (fun s => { s with
      settings := Setup.settingsIn m.session.batch c, servers := c.servers, extra := c.extra })
      fun _ _ => rfl⟩

/-- A command that is ready has its configuration at the place of the run. -/
theorem CommandLine.at_of_read {prepared : Prepared}
    (h : (read app argv).perform p = (.ok (some prepared), q)) :
    ∃ b, place? app argv p = some b ∧ q.At b := by
  obtain ⟨line, r, checked, t, hline, hsetup, hcheck, hconnect⟩ := phases_of_read h
  obtain ⟨o, ho, hglobals⟩ := opening?_of_line? hline
  obtain ⟨b, _, hb, _, hr, _⟩ := Setup.found_of_run hsetup
  have hchecked := reading_stays.check line.descent _ b ((quiet_logWalk line.descent.chain.tail).stays r b hr)
  rw [hcheck] at hchecked
  have hconnected := stays_connect line.program (belowTool line.globals) checked t b hchecked
  rw [hconnect] at hconnected
  refine ⟨b, ?_, hconnected⟩
  rw [place?, ho, Option.bind_some, hglobals]
  exact hb

/-- What ends at the place of the run as it was has written nothing. -/
theorem App.spares_of_at (hb : CommandLine.place? app argv p = some b) (hq : q.At b) : p.Spares q := by
  obtain ⟨o, _, hplace⟩ := Option.bind_eq_some_iff.1 hb
  refine ⟨hq.files.trans (files_of_place? hb), fun store hs => ?_⟩
  rw [hq.store, Setup.store_of_place? hplace hs]

/-! ## 4. Writing back -/

/-- The settings are to be written back. -/
def Session.due (s : Session) : Bool := s.updated && s.settings.usePrevious

/-- Where no warnings are shown, no details are. -/
theorem LogLevel.admits_debug_of_warn {level : LogLevel} (h : level.admits .warn = false) :
    level.admits .debug = false := by
  cases level <;> first | rfl | exact absurd h (by decide)

/-- There is one more complaint, or none if the text is empty. There is nothing else to be seen, but for the
    log; and if that shows no warnings, the text is all that comes on the error stream. -/
structure Execution.Adds (text : String) (p q : Execution) : Prop where
  output : q.output = p.output
  complaints : q.complaints = p.complaints ++ text
  threshold : q.threshold = p.threshold
  errorStream : p.threshold.admits .warn = false → q.errorStream = p.errorStream ++ text

namespace Execution

/-- Nothing is added by what goes to the log only, if it is no error. -/
theorem adds_note (p : Execution) (severity : Severity) (message : String)
    (h : p.threshold.admits .warn = false → p.threshold.admits severity = false) :
    Adds "" p (p.note severity message) := by
  refine ⟨p.output_note _ _, ?_, ?_, fun hquiet => ?_⟩
  · rw [complaints_note, String.append_empty]
  · unfold note
    split <;> rfl
  · rw [note, if_neg (Bool.eq_false_iff.1 (h hquiet)), String.append_empty]

theorem adds_remark (p : Execution) (remark : Option String) :
    Adds "" p ((Effect.remark remark).perform p).2 := by
  cases remark with
  | none => exact ⟨rfl, String.append_empty.symm, rfl, fun _ => String.append_empty.symm⟩
  | some remark => exact p.adds_note .debug remark LogLevel.admits_debug_of_warn

theorem Adds.complain (h : Adds "" p q) (text : String) : Adds text p (q.emit (.complained text)) := by
  obtain ⟨houtput, hcomplaints, hthreshold, herrors⟩ := h
  rw [String.append_empty] at hcomplaints
  refine ⟨?_, ?_, hthreshold, fun hquiet => ?_⟩
  · rw [output_emit, houtput]
    exact String.append_empty
  · rw [complaints_emit, hcomplaints]
    rfl
  · rw [errorStream_emit, herrors hquiet, String.append_empty]
    exact congrArg (p.errorStream ++ ·) String.append_empty

end Execution

/-- **What a refused save comes to**, against one that succeeds: the settings are still to be written back,
    there is one more complaint, and the place is left as the refusal leaves it. There is nothing else to be
    told apart by. -/
structure Execution.Reports (b b' : Place) (good bad : Execution) : Prop where
  saved : good.At (b.save good.session.configuration)
  due : bad.session.due = true ∧ bad.session.batch = false
  session : good.session = { bad.session with store := good.session.store, updated := false }
  reported : ∃ e, (b'.store.save b'.files good.session.configuration).outcome = .error e ∧
    (∃ b'', bad.At b'' ∧ b'.Withstands good.session.configuration e b'') ∧
    good.Adds ("Run002 " ++ e.fault.message ++ "\n") bad

/-- What writing back comes to, when the settings are to be written back. -/
theorem Session.perform_saveUpdated_of_due (h : p.session.due = true) : saveUpdated.perform p =
    match save.perform p with
      | (.ok _, q) => (.ok (), { q with session := { q.session with updated := false } })
      | (.error e, q) => (.error e, q) := by
  unfold saveUpdated
  rw [Run.perform_bind, Run.perform_lift, Effect.perform_session]
  dsimp only
  rw [show (p.session.updated && p.session.settings.usePrevious) = true from h, if_pos rfl,
    Run.perform_bind]
  rcases save.perform p with ⟨_ | u, q⟩ <;> rfl

namespace App

variable {m m' : Execution}

/-- Settings that are written back are no longer to be written back, and nothing is to be seen of it. -/
theorem flush_of_taken {remark : Option String} (hb : m.At b) (hdue : m.session.due = true)
    (hbatch : m.session.batch = false)
    (htaken : (b.store.save b.files m.session.configuration).outcome = .ok remark) :
    let q := (flush.perform m).2
    q.session = { (m.storing b).session with updated := false } ∧ q.files = (m.storing b).files ∧
      m.Adds "" q := by
  have hflush : (flush.perform m).2 =
      let q := ((Effect.remark remark).perform (m.storing b)).2
      { q with session := { q.session with updated := false } } := by
    unfold flush
    rw [Effect.perform_bind, Run.perform_run, Session.perform_saveUpdated_of_due hdue,
      Session.perform_save hb hbatch, htaken]
    rfl
  have hadds := (m.storing b).adds_remark remark
  obtain ⟨hsession, hfiles⟩ := Effect.quiet_remark remark (m.storing b)
  dsimp only
  rw [hflush]
  exact ⟨congrArg (fun session : Session => { session with updated := false }) hsession, hfiles,
    hadds.output, hadds.complaints, hadds.threshold, hadds.errorStream⟩

/-- Settings that cannot be written back are still to be written back, and it is reported. -/
theorem flush_of_refused {e : StoreError} (hb : m.At b) (hdue : m.session.due = true)
    (hbatch : m.session.batch = false)
    (hrefused : (b.store.save b.files m.session.configuration).outcome = .error e) :
    let q := (flush.perform m).2
    q.session = (m.storing b).session ∧ q.files = (m.storing b).files ∧
      m.Adds ("Run002 " ++ e.fault.message ++ "\n") q := by
  have htag : "Run" ++ Text.zeroFilled 3 2 ++ " " = "Run002 " := by decide
  have hline : Report.tagged ⟨⟨"Run", 2⟩, e.fault.message⟩ = "Run002 " ++ e.fault.message :=
    congrArg (· ++ e.fault.message) htag
  have hflush : (flush.perform m).2 =
      ((m.storing b).note .warn ("previous args not saved: " ++ e.fault.tagged)).emit
        (.complained ("Run002 " ++ e.fault.message ++ "\n")) := by
    rw [← hline]
    unfold flush
    rw [Effect.perform_bind, Run.perform_run, Session.perform_saveUpdated_of_due hdue,
      Session.perform_save hb hbatch, hrefused]
    rfl
  have hadds := ((m.storing b).adds_note .warn ("previous args not saved: " ++ e.fault.tagged) id).complain
    ("Run002 " ++ e.fault.message ++ "\n")
  dsimp only
  rw [hflush]
  exact ⟨session_note _ _ _, files_note _ _ _, hadds.output, hadds.complaints, hadds.threshold,
    hadds.errorStream⟩

/-- The one place takes the settings that are written back, the other one refuses them. -/
theorem flush_of_due (h : b.Against b') (hm : m.Twins m') (hb : m.At b) (hb' : m'.At b')
    (hdue : m.session.due = true) (hbatch : m.session.batch = false) :
    Reports b b' (flush.perform m).2 (flush.perform m').2 := by
  have hsession := hm.session
  have hconfiguration : m'.session.configuration = m.session.configuration := by
    rw [hsession]
    rfl
  have hdue' : m'.session.due = true := by
    rw [hsession]
    exact hdue
  have hbatch' : m'.session.batch = false := hm.batch.trans hbatch
  obtain ⟨remark, htaken⟩ := Place.outcome_of_takes (h.takes m.session.configuration)
  obtain ⟨e, hrefused, hwithstood⟩ := Place.withstands_of_refuses (h.refuses m'.session.configuration)
  obtain ⟨hgood, hgoodFiles, hnothing⟩ := flush_of_taken hb hdue hbatch htaken
  obtain ⟨hbad, hbadFiles, hline⟩ := flush_of_refused hb' hdue' hbatch' hrefused
  dsimp only at hgood hgoodFiles hnothing hbad hbadFiles hline
  generalize (flush.perform m).2 = good at *
  generalize (flush.perform m').2 = bad at *
  have hkept : good.session.configuration = m.session.configuration := by
    rw [hgood]
    rfl
  have hcomplaints : good.complaints = m.complaints := by
    rw [hnothing.complaints, String.append_empty]
  constructor
  case saved =>
    rw [hkept]
    exact ⟨congrArg Session.store hgood, hgoodFiles⟩
  case due =>
    rw [hbad]
    exact ⟨hdue', hbatch'⟩
  case session =>
    rw [hbad, hgood]
    unfold storing
    dsimp only
    rw [hsession]
  case reported =>
    rw [hkept, ← hconfiguration]
    refine ⟨e, hrefused, ⟨b'.save m'.session.configuration, ⟨congrArg Session.store hbad, hbadFiles⟩,
      hwithstood⟩, ?_, ?_, ?_, fun hquiet => ?_⟩
    · rw [hline.output, hnothing.output, output, output, hm.transcript]
    · rw [hline.complaints, hcomplaints, complaints, complaints, hm.transcript]
    · rw [hline.threshold, hnothing.threshold, hm.threshold]
    · have hhidden : m.threshold.admits .warn = false := hnothing.threshold ▸ hquiet
      have hhidden' : m'.threshold.admits .warn = false := hm.threshold ▸ hhidden
      rw [hline.errorStream hhidden', hnothing.errorStream hhidden, String.append_empty, errorStream,
        errorStream, hm.transcript]

/-- After a batch run there is nothing left to be written back. -/
theorem due_flush_of_batch (hbatch : m.session.batch = true) :
    (flush.perform m).2.session.due = false := by
  cases hdue : m.session.due with
  | false =>
    rw [perform_flush_of_not_due hdue]
    exact hdue
  | true =>
    unfold flush
    rw [Effect.perform_bind, Run.perform_run, Session.perform_saveUpdated_of_due hdue,
      Session.perform_save_of_batch hbatch]
    rfl

/-- **Writing back leaves twins**, or else one of the two has saved and the other one reports. -/
theorem flush_of_against (h : b.Against b') (hm : m.Twins m') (hb : m.At b) (hb' : m'.At b') :
    let good := (flush.perform m).2
    let bad := (flush.perform m').2
    (good.Twins bad ∧ good.At b ∧ bad.At b' ∧ bad.session.due = false) ∨ Reports b b' good bad := by
  dsimp only
  cases hdue : m.session.due with
  | false =>
    have hdue' : m'.session.due = false := by
      rw [hm.session]
      exact hdue
    rw [perform_flush_of_not_due hdue, perform_flush_of_not_due hdue']
    exact .inl ⟨hm, hb, hb', hdue'⟩
  | true =>
    cases hbatch : m.session.batch with
    | false => exact .inr (flush_of_due h hm hb hb' hdue hbatch)
    | true =>
      have hbatch' : m'.session.batch = true := hm.batch.trans hbatch
      have hignores (x : Exchange) (_ : x.factory = id) : flush.Ignores x true := ignores_flush
      have hlift (x : Exchange) (hx : x.factory = id) : Run.Ignores x true (liftM flush : Run Empty Unit) :=
        .lift (hignores x hx)
      have hspares {r : Execution} (hr : r.session.batch = true) : r.Spares (flush.perform r).2 :=
        Run.Ignores.spares_of_batch hlift fun _ => hr
      exact .inl ⟨(Effect.Ignores.agrees_of_batch hignores hm fun _ => hbatch).2,
        (hspares hbatch).at hb, (hspares hbatch').at hb', due_flush_of_batch hbatch'⟩

/-- **A command that does not save comes to the same**, and what is written back behind it is all there
    is to be told apart by. -/
theorem dispatch_of_against {prepared : Prepared} (hg : prepared.command.isGroup = false)
    (h : b.Against b') (hm : m.Twins m') (hb : m.At b) (hb' : m'.At b')
    (hact : ∀ a, prepared.command.action = some a → a.SavesNothing b b') :
    let good := (dispatch prepared).perform m
    let bad := (dispatch prepared).perform m'
    bad.1 = good.1 ∧ ((good.2.Twins bad.2 ∧ good.2.At b ∧ bad.2.At b' ∧ bad.2.session.due = false) ∨
      Reports b b' good.2 bad.2) := by
  have hagrees : (act prepared).Agrees m m' ∧ ((act prepared).perform m).2.At b ∧
      ((act prepared).perform m').2.At b' := by
    unfold act
    cases ha : prepared.command.action with
    | none => exact ⟨⟨rfl, hm⟩, hb, hb'⟩
    | some a =>
      obtain ⟨hsame, hplace, hplace'⟩ := hact a ha prepared.invocation m m' hm hb hb'
      exact ⟨hsame.adapt, hplace, hplace'⟩
  obtain ⟨⟨hsame, htwins⟩, hplace, hplace'⟩ := hagrees
  dsimp only
  rw [result_dispatch hg, result_dispatch hg, session_dispatch hg, session_dispatch hg]
  exact ⟨hsame, flush_of_against h htwins hplace hplace'⟩

/-- What comes to no command comes to the same for twins. -/
theorem agrees_conclude_of_not_command (argv : List String)
    {outcome : Except ParseError (Option Prepared)}
    (h : ∀ prepared, outcome = .ok (some prepared) → prepared.command.isGroup = true)
    (hm : m.Twins m') : (conclude argv outcome).Agrees m m' := by
  refine Effect.Ignores.agrees (fun x _ => ?_) hm
  rcases outcome with e | _ | prepared
  · unfold conclude
    dsimp only
    split
    · exact Run.Ignores.pure _
    · exact Run.Ignores.throw _
  · exact Run.Ignores.pure _
  · show (dispatch prepared).Ignores x false
    unfold dispatch
    rw [h prepared rfl]
    exact .lift (CommandLine.ignores_printCommandHelp _ _ _)

/-- **A run that comes to no command comes to the same** for twins, whatever their places. -/
theorem agrees_run_of_not_dispatches (hread : (CommandLine.read app argv).Agrees p q)
    (h : ¬ app.Dispatches argv p) : (run app argv).Agrees p q ∧ ¬ app.Dispatches argv q := by
  obtain ⟨outcome, m, m', hp, hq, hm⟩ := hread.outcome
  have hgroup : ∀ prepared, outcome = .ok (some prepared) → prepared.command.isGroup = true := by
    rintro prepared rfl
    exact Bool.of_not_eq_false fun hg => h ⟨prepared, m, hp, hg⟩
  constructor
  · unfold Run.Agrees Effect.Agrees
    simp only [Run.perform_run, perform_run, hp, hq]
    exact agrees_conclude_of_not_command argv hgroup hm
  · rintro ⟨prepared, _, hprepared, hg⟩
    rw [hq] at hprepared
    cases hprepared
    exact absurd (hgroup prepared rfl) (ne_true_of_eq_false hg)

/-! ## 5. The whole run -/

/-- **Writing back is best effort.**

    Take two executions that differ in nothing but where the configuration is kept: the same is loaded from
    either place, but the one takes whatever is saved there, and the other refuses it. The action that the
    command line is for, if it is for one, does not save. Then the two runs have the same result, and show
    the same on the output.

    And either there is nothing else to tell the one from the other: neither has written anything, and no
    settings are to be written back. Or the one has saved the configuration that it ends with; the place of
    the other one is as the refusal has left it, its settings are still to be written back, and it reports on
    one more line that they could not be. -/
theorem run_best_effort (app : App) (argv : List String) {p q : Execution} (hpq : p.Twins q)
    (hplaces : Option.Rel Place.Against (CommandLine.place? app argv p) (CommandLine.place? app argv q))
    (hact : ∀ prepared m, (CommandLine.read app argv).perform p = (.ok (some prepared), m) →
      ∀ a, prepared.command.action = some a → ∀ b b', CommandLine.place? app argv p = some b →
        CommandLine.place? app argv q = some b' → a.SavesNothing b b') :
    let good := (run app argv).perform p
    let bad := (run app argv).perform q
    bad.1 = good.1 ∧ bad.2.output = good.2.output ∧
      ((good.2.Twins bad.2 ∧ p.Spares good.2 ∧ q.Spares bad.2 ∧
          (app.Dispatches argv p → bad.2.session.due = false)) ∨
        ∃ b b', CommandLine.place? app argv p = some b ∧ CommandLine.place? app argv q = some b' ∧
          Reports b b' good.2 bad.2) := by
  have houtput {good bad : Execution} (h : good.Twins bad) : bad.output = good.output := by
    rw [output, output, h.transcript]
  have hreads := CommandLine.agrees_read_of_against app argv hpq hplaces
  by_cases h : app.Dispatches argv p
  · obtain ⟨prepared, m, hread, hg⟩ := h
    obtain ⟨_, _, m', hp, hread', htwins⟩ := hreads.outcome
    cases hread.symm.trans hp
    obtain ⟨b, hb, hmb⟩ := CommandLine.at_of_read hread
    obtain ⟨b', hb', hmb'⟩ := CommandLine.at_of_read hread'
    have hagainst : b.Against b' := by
      rw [hb, hb'] at hplaces
      cases hplaces
      assumption
    obtain ⟨hresult, hend⟩ := dispatch_of_against hg hagainst htwins hmb hmb' fun a ha =>
      hact prepared m hread a ha b b' hb hb'
    dsimp only
    rw [perform_run, perform_run, hread, hread']
    refine ⟨hresult, ?_, ?_⟩
    · rcases hend with ⟨htwins, _⟩ | hreports
      · exact houtput htwins
      · obtain ⟨_, _, _, hadds⟩ := hreports.reported
        exact hadds.output
    · rcases hend with ⟨htwins, hplace, hplace', hdue⟩ | hreports
      · exact .inl ⟨htwins, spares_of_at hb hplace, spares_of_at hb' hplace', fun _ => hdue⟩
      · exact .inr ⟨b, b', hb, hb', hreports⟩
  · obtain ⟨hagrees, h'⟩ := agrees_run_of_not_dispatches hreads h
    exact ⟨hagrees.1, houtput hagrees.2, .inl ⟨hagrees.2, spares_of_not_dispatches h,
      spares_of_not_dispatches h', fun hd => absurd hd h⟩⟩

/-- A tool with one command, which changes the token, complains and fails. -/
def failingTouch : App where
  name := "ngsi"
  commands := [
    { name := "fail"
      action := some fun _ => do
        Effect.modifySession fun s =>
          { s with settings := { s.settings with token := "touched" }, updated := true }
        Effect.complain "failing\n"
        throw (.raise "fail" 1 "boom") }]

/-- The command does not save, and is the only one. -/
theorem savesNothing_of_failingTouch {c : Command} (hc : failingTouch.Has c) {a : Action}
    (ha : c.action = some a) (b b' : Place) : a.SavesNothing b b' := by
  obtain ⟨top, htop, hunder⟩ := hc
  obtain rfl := List.mem_singleton.1 htop
  obtain rfl := hunder.eq_of_leaf rfl
  obtain rfl := Option.some.inj ha
  refine Action.savesNothing_of_ignores (fun i x _ => .bind (.lift ?_) fun _ => ?_) b b'
  · exact Effect.ignores_modifySession (fun _ _ _ => rfl) fun _ => rfl
  · exact .bind (.lift (Effect.ignores_complain _)) fun _ => .throw _

/-- The command fails, and over a read-only store there is one line more behind its own complaint. -/
theorem run_best_effort_fail :
    let argv := ["ngsi", "fail"]
    let p : Execution := { session := { store := some (.memory {} 0 false) } }
    let q : Execution := { session := { store := some (.memory {} 0 true) } }
    let good := (run failingTouch argv).perform p
    let bad := (run failingTouch argv).perform q
    good.2.session.store ≠ p.session.store ∧ bad.1 = good.1 ∧ bad.2.output = good.2.output ∧
      bad.2.complaints = good.2.complaints ++ "Run002 read-only store\n" ∧
      bad.2.session.due = true ∧ bad.2.session.store = q.session.store := by
  intro argv p q good bad
  have hsaved : good.2.session.store ≠ p.session.store := by decide +kernel
  have htwins : p.Twins q := ⟨rfl, rfl, rfl, rfl⟩
  have hplaces : Option.Rel Place.Against (CommandLine.place? failingTouch argv p)
      (CommandLine.place? failingTouch argv q) := CommandLine.against_place? failingTouch argv rfl rfl
  obtain ⟨hresult, houtput, ⟨_, hspares, _⟩ | ⟨b, b', _, hb', hreports⟩⟩ :=
    run_best_effort failingTouch argv htwins hplaces fun prepared m hread a ha b b' _ _ =>
      savesNothing_of_failingTouch (has_of_read hread) ha b b'
  · exact absurd (hspares.store _ rfl) hsaved
  · obtain ⟨o, _, hplace⟩ := Option.bind_eq_some_iff.1 hb'
    have hstore : b'.store = .memory {} 0 true := Setup.store_of_place? hplace rfl
    obtain ⟨e, hrefused, ⟨b'', hat, hwithstood⟩, hadds⟩ := hreports.reported
    rw [hstore] at hrefused
    cases hrefused
    refine ⟨hsaved, hresult, houtput, hadds.complaints, hreports.due.1, ?_⟩
    rw [hat.store, hwithstood.store, hstore]

/-- **A save that is refused can change what is there.** A run over a path that ends in two dots makes the
    directory in front of them before it finds that the path means a directory; and if the disk is full, the
    file is empty, and what was in it is lost. -/
theorem refused_not_unchanged :
    (¬ ∀ (app : App) (argv : List String) (q : Execution) (b : Place),
      CommandLine.place? app argv q = some b → (∀ c, b.takes c = false) →
      (∀ c, app.Has c → ∀ a, c.action = some a → ∀ b b', a.SavesNothing b b') →
      ∀ l, ((run app argv).perform q).2.files.node? l = q.files.node? l) ∧
    (let text := "\x7b\"x\":\"\"\x7d"
     let b : Place := ⟨.file (some "c.json"),
       { nodes := [(["c.json"], .file 0o600 text.toUTF8)], mishaps := [some ⟨0, .noSpace⟩] }⟩
     (∀ c, b.takes c = false) ∧
       b.files.held? ["c.json"] = some { extra := .ofList [("x", .string "")] } ∧
       (b.save {}).files.held? ["c.json"] = some {}) := by
  have hrefuses {path : String} {files : FileSystem}
      (h : Place.takes ⟨.file (some path), files⟩ {} = false) (c : Configuration) :
      Place.takes ⟨.file (some path), files⟩ c = false :=
    Bool.eq_false_iff.2 fun htakes => Bool.eq_false_iff.1 h (Store.save_congr htakes {})
  refine ⟨fun h => ?_, ?_⟩
  · let q : Execution := { session := { store := some (.file (some "new/..")) } }
    have hplace : CommandLine.place? failingTouch ["ngsi", "fail"] q = some ⟨.file (some "new/.."), q.files⟩ := by
      have hopens : (CommandLine.opening? failingTouch ["ngsi", "fail"]).isSome = true := by decide +kernel
      obtain ⟨o, ho⟩ := Option.isSome_iff_exists.1 hopens
      rw [CommandLine.place?, ho]
      rfl
    have hsame := h failingTouch ["ngsi", "fail"] q _ hplace (hrefuses (by decide +kernel))
      (fun c hc a ha => savesNothing_of_failingTouch hc ha) ["new"]
    have hmade : ((run failingTouch ["ngsi", "fail"]).perform q).2.files.isDirectory [] ["new"] = true := by
      decide +kernel
    obtain ⟨l, hl, hdirectory⟩ := FileSystem.isDirectory_iff.1 hmade
    rw [FileSystem.follow_of_walk hl] at hdirectory
    have hnothing : q.files.node? ["new"] = none := rfl
    rw [hnothing.symm.trans (hsame.symm.trans hdirectory)] at hnothing
    cases hnothing
  · intro text b
    have hrefused : b.takes {} = false := by decide +kernel
    refine ⟨hrefuses hrefused, by decide +kernel, ?_⟩
    have hcut : (b.store.save b.files {}).outcome = .error (.cutShort "c.json" .noSpace) := by decide +kernel
    have hplace : b.files.meant "c.json" = ["c.json"] := by decide +kernel
    obtain ⟨e, he, hwithstands⟩ := Place.withstands_of_refuses hrefused
    cases he.symm.trans hcut
    obtain ⟨m, hm, hnode⟩ := (hwithstands.opened _ _ rfl).2.node
    cases Option.some.inj (Option.some.inj hm)
    have hkeeps : Node.isDevice (b.files.bitsAt ["c.json"]) = false := by decide +kernel
    rw [hplace, ByteArray.extract_same, FileSystem.taken_of_not_device hkeeps] at hnode
    have hempty : String.fromUTF8? .empty = some "" := dif_pos ByteArray.isValidUTF8_empty
    exact FileSystem.held?_eq_some_iff.2 ⟨_, _, "", hnode, hempty, rfl⟩

end App

end

end BrokerCli
