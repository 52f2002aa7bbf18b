import BrokerCli.Proofs.Custody

/-!
# Who may read what was saved

A configuration holds tokens, so its file is made to be read by its owner only. But the permission bits are
an argument of the call that opens the file, and they count only if that call MAKES it:

* `Execution.KeepsBits` -- no permission bits are changed. A save is of this kind, wherever it is and whether
  it succeeds or not (`Store.bitsAt_saveFile`). The course of a run moves along this relation
  (`Execution.course_keepsBits`), so that a run changes the bits of no file, and each file that it makes is
  private (`App.bits_of_run`);
* `Store.private_of_save` -- what a save that succeeds leaves at its path, and elsewhere.
-/

namespace BrokerCli

/-! ## 1. Runs -/

/-- No bits are changed. -/
def Execution.KeepsBits (p q : Execution) : Prop := ∀ l, q.files.bitsAt l = p.files.bitsAt l

namespace Execution

variable {p q : Execution}

instance : IsPreorder Execution KeepsBits where
  refl _ _ := rfl
  trans _ _ _ h h' l := (h' l).trans (h l)

theorem keepsBits_of_files (h : q.files = p.files) : p.KeepsBits q := fun l => by rw [h]

/-- Saves keep bits, and what else a run does touches no files. -/
theorem course_keepsBits : Course KeepsBits where
  change _ _ _ hfiles := keepsBits_of_files hfiles
  save p := by
    cases hs : p.session.store with
    | none =>
      refine keepsBits_of_files ?_
      unfold Session.save
      rw [Run.perform_bind, Run.perform_get]
      dsimp only
      rw [Run.perform_ite, hs]
      split
      · exact (Effect.quiet_log .debug "batch mode, config not saved" p).files
      · rfl
    | some store =>
      have hb : p.At ⟨store, p.files⟩ := ⟨hs, rfl⟩
      rcases (Session.place_save hb).1 with hsame | hsaved
      · exact keepsBits_of_files hsame.files
      · intro l
        rw [hsaved.files]
        unfold Place.save Store.save
        split
        · rfl
        · rfl
        · rfl
        · exact Store.bitsAt_saveFile _ _ _ l

end Execution

/-- **A run changes the permission bits of no file, and what it makes is private.** Each file behind the run
    has the bits that it had before, and those of a private file if there was none. -/
theorem App.bits_of_run {app : App} (hacts : app.Acts fun a => ∀ i, (a i).Respects Execution.KeepsBits)
    (argv : List String) (p : Execution) {l : Location} {mode : Nat} {content : ByteArray}
    (h : ((run app argv).perform p).2.files.node? l = some (.file mode content)) :
    mode = p.files.bitsAt l := by
  rw [← FileSystem.bitsAt_of_file h]
  by_cases hd : app.Dispatches argv p
  · obtain ⟨prepared, q, hread, _⟩ := hd
    obtain ⟨line, r, _, hsetup, hcourse⟩ := course_of_read Execution.course_keepsBits hacts hread
    obtain ⟨b, _, hb, _, hr, _, _⟩ := Setup.found_of_run hsetup
    rw [hcourse l, hr.files, (Setup.at_of_place? hb).files]
  · rw [(spares_of_not_dispatches hd).files]

/-- So does every run of the tool. -/
theorem Tool.bits_of_run (argv : List String) (p : Execution) {l : Location} {mode : Nat}
    {content : ByteArray}
    (h : ((App.run app argv).perform p).2.files.node? l = some (.file mode content)) :
    mode = p.files.bitsAt l :=
  App.bits_of_run (acts_respecting Execution.course_keepsBits) argv p h

/-! ## 2. One save -/

namespace Store

open FileSystem

/-- **What a save that succeeds leaves.**

    Take any files, any path and any configuration, and let the save succeed. The path then leads to a file
    with the text of the configuration, or to a device, which is what it was. If there was a file at that
    place, it keeps its permission bits; so the file is private if and only if there was none, or a private
    one. And no other file is changed, made or lost. -/
theorem private_of_save {files : FileSystem} {path : String} {c : Configuration}
    (h : (save (.file (some path)) files c).outcome.toBool = true) :
    let saved := (save (.file (some path)) files c).files
    let place := files.meant path
    ∃ bits content, saved.nodeAt path = .ok (.file bits content) ∧
      saved.node? place = some (.file bits content) ∧
      (Node.isDevice bits = false → content = c.text.toUTF8) ∧
      (Node.isDevice bits = true → files.node? place = some (.file bits content)) ∧
      (∀ old content, files.node? place = some (.file old content) → bits = old) ∧
      (bits = privateMode ↔
        ∀ old content, files.node? place = some (.file old content) → old = privateMode) ∧
      ∀ l mode content, l ≠ place →
        (saved.node? l = some (.file mode content) ↔ files.node? l = some (.file mode content)) := by
  intro saved place
  obtain ⟨ready, f, hsaves⟩ := savesTo_of_takes h
  obtain ⟨⟨start, above, name, hopens⟩, hwrote⟩ := hsaves.wrote
  have hgrows : files.Grows ready := by
    have hgrows := grows_withDirectory files path
    rw [hsaves.directory] at hgrows
    exact hgrows
  have hplace : f.place = place := hopens.meant.trans (meant_congr hgrows.beside.current path)
  have hleads := hopens.nodeAt hwrote
  have hat := hwrote.node
  rw [hwrote.written, hplace, hgrows.bitsAt, hgrows.taken] at hleads hat
  refine ⟨files.bitsAt place, files.taken place c.text.toUTF8, hleads, hat, taken_of_not_device,
    fun hdevice => node?_of_device hdevice _, fun old content hold => bitsAt_of_file hold,
    bitsAt_eq_privateMode_iff, fun l mode content hl => ?_⟩
  have hother : saved.node? l = ready.node? l := hwrote.others l (hplace ▸ hl)
  rw [hother]
  exact ⟨hgrows.found l mode content, hgrows.kept l _⟩

/-- A private file below a directory, and another file that everybody may read. -/
def shelf : FileSystem where
  nodes := [(["conf"], .directory), (["conf", "c.json"], .file privateMode "".toUTF8),
    (["notes"], .file 0o644 "todo".toUTF8)]

/-- The private file is written again, and is as private as before. -/
theorem private_of_save_shelf :
    (save (.file (some "conf/c.json")) shelf {}).outcome.toBool = true ∧
      let saved := (save (.file (some "conf/c.json")) shelf {}).files
      saved.nodeAt "conf/c.json" = .ok (.file privateMode ({} : Configuration).text.toUTF8) ∧
      saved.node? ["notes"] = some (.file 0o644 "todo".toUTF8) := by
  have hok : (save (.file (some "conf/c.json")) shelf {}).outcome.toBool = true := by decide +kernel
  obtain ⟨bits, content, hleads, _, htext, _, hold, _, hothers⟩ := private_of_save hok
  have hplace : shelf.meant "conf/c.json" = ["conf", "c.json"] := by decide +kernel
  rw [hplace] at hold hothers
  have hbits := hold _ _ rfl
  subst hbits
  rw [htext rfl] at hleads
  exact ⟨hok, hleads, (hothers ["notes"] _ _ (by decide)).2 rfl⟩

/-- **A save does not make private what was not**: the file was there, and everybody could read it. -/
theorem readable_as_before :
    ¬ ∀ (files : FileSystem) (path : String) (c : Configuration),
      (save (.file (some path)) files c).outcome.toBool = true →
      ∃ content, (save (.file (some path)) files c).files.nodeAt path = .ok (.file privateMode content) := by
  intro h
  let files : FileSystem := { nodes := [(["c.json"], .file 0o644 "\x7b\x7d".toUTF8)] }
  obtain ⟨content, hnode⟩ := h files "c.json" {} (by decide +kernel)
  have hbits : (save (.file (some "c.json")) files {}).files.bitsAt ["c.json"] = 0o644 := by decide +kernel
  have hplace : (save (.file (some "c.json")) files {}).files.meant "c.json" = ["c.json"] := by
    decide +kernel
  rw [← hplace, bitsAt_of_file (node?_of_nodeAt hnode)] at hbits
  exact absurd hbits (by decide)

end Store

end BrokerCli
