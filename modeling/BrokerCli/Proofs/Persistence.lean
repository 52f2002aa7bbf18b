import BrokerCli.Store
import BrokerCli.Proofs.Codec
import BrokerCli.Proofs.Files

/-!
# What is saved is loaded

* `Configuration.parse_toJson` -- the text of a configuration parses to the configuration;
* `Store.SavesTo` -- the steps of a save that succeeds: the directory is made, the file is opened, and all of
  the text is written to it;
* `Store.load_of_save` -- what was saved is loaded, if the file keeps it and may be read;
* `Store.save_again` -- where one configuration was saved, any other can be saved as long as writes go well;
* `Configuration.decode_encode` -- all of it together: texts, and the store.
-/

namespace BrokerCli

/-! ## 1. Configurations as texts -/

namespace Configuration

/-- **The text of a configuration parses to the configuration**, in any layout and with any white space
    behind it. -/
theorem parse_toJson {c : Configuration} (h : c.Fits (depthLimit - 1)) (hw : c.toJson.Integral)
    (l : Json.Layout) (ws : List Char) (hs : ws.all Json.isSpace = true) :
    parse (c.toJson.text l ++ String.ofList ws) = .ok c := by
  rw [parse, Document.parse_text l hw hs]
  simp only [ofDocument?_toJson h]

theorem fits_of_parse {c : Configuration} {text : String} (h : parse text = .ok c) :
    c.Fits (depthLimit - 1) := by
  unfold parse at h
  split at h
  · cases h
  split at h
  · rename_i hc
    cases h
    exact fits_of_ofDocument? hc
  · cases h

/-- Settings hold no numbers. -/
theorem numbers_toJson (c : Configuration) :
    c.toJson.numbers = c.servers.toJson.numbers ++ Json.memberNumbers c.extra.entries := by
  simp only [toJson, Settings.toJson, Json.numbers, Json.memberNumbers, List.nil_append]

/-- Configurations that differ in their settings hold the same numbers. -/
theorem integral_congr {c c' : Configuration} (hs : c'.servers = c.servers) (he : c'.extra = c.extra)
    (h : c.toJson.Integral) : c'.toJson.Integral := by
  unfold Json.Integral at h ⊢
  rw [numbers_toJson] at h ⊢
  rw [hs, he]
  exact h

/-- The text of a configuration is not blank. -/
theorem allBlank_text (c : Configuration) : Text.allBlank c.text = false := by
  have hfirst : c.text.toList = '\x7b' :: (c.text.toList.tail) := by
    rw [text, Json.pretty, Json.text, toJson, Json.chars, String.toList_append, String.toList_ofList]
    rfl
  rw [Text.allBlank, hfirst]
  rfl

end Configuration

/-! ## 2. The store -/

/-- The steps of a save that succeeds: the directory is made, the file is opened, and all is written. -/
structure Store.SavesTo (files : FileSystem) (path : String) (content : ByteArray) (ready : FileSystem)
    (f : FileSystem.OpenFile) (saved : FileSystem) : Prop where
  directory : withDirectory files path = (ready, none)
  opened : ready.openPrivate path = .ok f
  written : f.write content = (saved, none)

namespace Store

variable {files ready saved : FileSystem} {path : String} {c : Configuration} {content : ByteArray}
  {f : FileSystem.OpenFile}

theorem savesTo_of_saveFile {remark : Option String} (h : saveFile files path c = (saved, .ok remark)) :
    ∃ ready f, SavesTo files path c.text.toUTF8 ready f saved := by
  unfold saveFile at h
  split at h
  · cases h
  rename_i ready hready
  split at h
  · cases h
  rename_i f hopen
  split at h
  · cases h
  rename_i hwrite
  cases h
  exact ⟨ready, f, hready, hopen, hwrite⟩

theorem SavesTo.saveFile_eq (h : SavesTo files path c.text.toUTF8 ready f saved) :
    saveFile files path c = (saved, .ok (some ("config saved to " ++ path))) := by
  simp only [saveFile, h.directory, h.opened, h.written]

theorem SavesTo.takes (h : SavesTo files path c.text.toUTF8 ready f saved) :
    (save (.file (some path)) files c).outcome.toBool = true := by
  simp only [save, h.saveFile_eq]
  rfl

theorem savesTo_of_takes (h : (save (.file (some path)) files c).outcome.toBool = true) :
    ∃ ready f, SavesTo files path c.text.toUTF8 ready f (save (.file (some path)) files c).files := by
  rcases hsave : saveFile files path c with ⟨saved, e | remark⟩
  · simp only [save, hsave] at h
    cases h
  · simp only [save, hsave]
    exact savesTo_of_saveFile hsave

/-- What a save that succeeds has opened and written. -/
theorem SavesTo.wrote (h : SavesTo files path content ready f saved) :
    (∃ start above name, FileSystem.Opens ready path f start above name) ∧
      FileSystem.Wrote ready content saved none f.place := by
  obtain ⟨start, above, name, hopens⟩ := FileSystem.opens_of_openPrivate h.opened
  have hwrote := hopens.wrote content
  rw [h.written] at hwrote
  exact ⟨⟨start, above, name, hopens⟩, hwrote⟩

/-- **What is saved to a path is loaded from it**, if the file keeps it and may be read; whatever else there
    is in the file system. -/
theorem load_of_save (hf : c.Fits (Configuration.depthLimit - 1)) (hn : c.toJson.Integral)
    (hs : (save (.file (some path)) files c).outcome.toBool = true)
    (hl : (save (.file (some path)) files c).files.isLegible path = true) :
    load (save (.file (some path)) files c).store (save (.file (some path)) files c).files =
      .ok (c, none) := by
  have hparse : Configuration.parse c.text = .ok c :=
    Configuration.parse_toJson hf hn .pretty ['\n'] rfl
  obtain ⟨ready, f, hsaves⟩ := savesTo_of_takes hs
  obtain ⟨⟨_, _, _, hopens⟩, hwrote⟩ := hsaves.wrote
  obtain ⟨hthere, hread⟩ := hopens.readText hwrote hl
  have hstore : (save (.file (some path)) files c).store = .file (some path) := rfl
  rw [hstore]
  simp only [load, hthere, if_true, hread, readConfiguration, Configuration.allBlank_text,
    Bool.false_eq_true, if_false, hparse]
  rfl

/-- Making directories changes only what stands at the places. -/
theorem beside_withDirectory (files : FileSystem) (path : String) :
    files.Beside (withDirectory files path).1 := by
  unfold withDirectory
  split
  · exact .refl _
  · rename_i directory _
    have hbeside : files.Beside (files.makeDirectories directory).1 := by
      unfold FileSystem.makeDirectories
      split
      · exact .refl _
      · exact FileSystem.beside_makeAll _ _ _
    rcases hmade : files.makeDirectories directory with ⟨made, _ | e⟩
    all_goals
      rw [hmade] at hbeside
      exact hbeside

/-- Where a directory was made for a file, nothing more is to be made once the file is written. -/
theorem SavesTo.withDirectory_again (h : SavesTo files path content ready f saved) :
    withDirectory saved path = (saved, none) := by
  have hcurrent : ready.current = files.current := by
    have hbeside := beside_withDirectory files path
    rw [h.directory] at hbeside
    exact hbeside.current
  obtain ⟨_, hwrote⟩ := h.wrote
  have hd := h.directory
  unfold withDirectory at hd ⊢
  cases hp : (Path.parent? path).filter (! ·.isEmpty) with
  | none => rfl
  | some directory =>
    simp only [hp] at hd ⊢
    rcases hm : files.makeDirectories directory with ⟨made, _ | e⟩
    · rw [hm] at hd
      cases hd
      unfold FileSystem.makeDirectories at hm
      cases ho : files.origin directory with
      | error e =>
        rw [ho] at hm
        cases hm
      | ok start =>
        simp only [ho] at hm
        have horigin : saved.origin directory = .ok start := by
          rw [← ho, FileSystem.origin, hwrote.current.trans hcurrent]
          rfl
        have hagain : saved.makeAll start (Path.names directory).reverse = (saved, none) := by
          generalize (Path.names directory).reverse = names at hm
          cases names with
          | nil => rfl
          | cons name above =>
            exact FileSystem.makeAll_of_isDirectory (FileSystem.isDirectory_of_keepsWays hwrote.keepsWays
              (FileSystem.isDirectory_of_makeAll hm))
        unfold FileSystem.makeDirectories
        simp only [horigin, hagain]
    · rw [hm] at hd
      cases hd

/-- Whether a configuration can be saved does not depend on it. -/
theorem save_congr (h : (save (.file (some path)) files c).outcome.toBool = true) (other : Configuration) :
    (save (.file (some path)) files other).outcome.toBool = true := by
  obtain ⟨ready, f, hsaves⟩ := savesTo_of_takes h
  have herror : (f.write other.text.toUTF8).2 = none := by
    have hsame : (f.write other.text.toUTF8).2 = (f.write c.text.toUTF8).2 := rfl
    rw [hsame, hsaves.written]
  exact SavesTo.takes ⟨hsaves.directory, hsaves.opened, Prod.ext rfl herror⟩

/-- **Where one configuration was saved, any other can be saved**, if the next write goes well, too. -/
theorem save_again (h : (save (.file (some path)) files c).outcome.toBool = true)
    (hm : files.mishaps.tail.head?.join = none) (other : Configuration) :
    (save (.file (some path)) (save (.file (some path)) files c).files other).outcome.toBool = true := by
  obtain ⟨ready, f, hsaves⟩ := savesTo_of_takes h
  generalize (save (.file (some path)) files c).files = saved at hsaves
  obtain ⟨⟨_, _, _, hopens⟩, hwrote⟩ := hsaves.wrote
  obtain ⟨f', hagain⟩ := hopens.again hwrote
  have hmishaps : saved.mishaps = files.mishaps.tail := by
    have hbeside := beside_withDirectory files path
    rw [hsaves.directory] at hbeside
    rw [hwrote.mishaps, hbeside.mishaps]
  have herror : (f'.write other.text.toUTF8).2 = none := by
    obtain ⟨_, _, _, hopens'⟩ := FileSystem.opens_of_openPrivate hagain
    rw [(hopens'.wrote other.text.toUTF8).error, hmishaps, hm]
    rfl
  exact SavesTo.takes ⟨hsaves.withDirectory_again, hagain, Prod.ext rfl herror⟩

/-- A store without a path takes every configuration, and keeps none. -/
theorem load_of_save_nowhere (c : Configuration) (files : FileSystem) :
    let saved := save (.file none) files c
    saved.outcome.toBool = true ∧ saved.files = files ∧ load saved.store saved.files = .ok ({}, none) :=
  ⟨rfl, rfl, rfl⟩

end Store

/-! ## 3. All of it -/

/-- **Decoding undoes encoding.** A configuration that was read from a text is read from its own text,
    and is loaded again once it was saved to a path, if the path then leads to a file that keeps what is
    written to it and may be read; a server table or a server that was read from a text is read from its own
    text in either layout. The numbers in unknown parts are integers of 64 bits; all else is arbitrary. -/
theorem Configuration.decode_encode :
    (∀ text c, Configuration.parse text = .ok c → c.toJson.Integral →
      Configuration.parse c.toJson.pretty = .ok c ∧
      (∀ path files, let saved := Store.save (.file (some path)) files c
        saved.outcome.toBool = true → saved.files.isLegible path = true →
          Store.load saved.store saved.files = .ok (c, none)) ∧
      (∀ files, let saved := Store.save (.file none) files c
        saved.outcome.toBool = true ∧ saved.files = files ∧
          Store.load saved.store saved.files = .ok ({}, none))) ∧
    (∀ text d depth t, Document.parse text = .ok d → ServerTable.ofDocument? depth d = some t →
      t.toJson.Integral → ∀ written ∈ [t.toJson.compact, t.toJson.pretty],
        ∃ e, Document.parse written = .ok e ∧ ServerTable.ofDocument? depth e = some t) ∧
    (∀ text d depth s, Document.parse text = .ok d → Server.ofDocument? depth d = some s →
      s.toJson.Integral → ∀ written ∈ [s.toJson.compact, s.toJson.pretty],
        ∃ e, Document.parse written = .ok e ∧ Server.ofDocument? depth e = some s) := by
  have hread {j : Json} (hj : j.Integral) {written : String} (hw : written ∈ [j.compact, j.pretty]) :
      Document.parse written = .ok (Document.ofJson j) := by
    have hempty (s : String) : s ++ String.ofList [] = s := String.append_empty
    have hl (l : Json.Layout) : Document.parse (j.text l) = .ok (Document.ofJson j) := by
      rw [← hempty (j.text l)]
      exact Document.parse_text l hj rfl
    simp only [List.mem_cons, List.not_mem_nil, or_false] at hw
    rcases hw with rfl | rfl
    · exact hl .compact
    · exact hl .pretty
  refine ⟨fun text c h hw => ⟨?_, fun path files => ?_, Store.load_of_save_nowhere c⟩,
    fun text d depth t _ h hw written hm => ?_, fun text d depth s _ h hw written hm => ?_⟩
  · rw [parse, hread hw (by simp)]
    simp only [ofDocument?_toJson (fits_of_parse h)]
  · exact Store.load_of_save (fits_of_parse h) hw
  · exact ⟨_, hread hw hm, ServerTable.ofDocument?_toJson (ServerTable.fits_of_ofDocument? h)⟩
  · exact ⟨_, hread hw hm, Server.ofDocument?_toJson (Server.fits_of_ofDocument? h)⟩

/-- **What was saved is not always loaded**: without a path a store keeps nothing; a file that may be written
    to need not be one that may be read; and a device keeps nothing, either. -/
theorem Store.save_forgets :
    let c : Configuration := { settings := { host := "orion" } }
    let writeOnly : FileSystem := { nodes := [(["c.json"], .file 0o200 .empty)] }
    let device : FileSystem := { nodes := [(["c.json"], .file 0o20666 .empty)] }
    (¬ ∀ (text : String) (c : Configuration) (path : Option String) (files : FileSystem),
      Configuration.parse text = .ok c → c.toJson.Integral →
      (save (.file path) files c).outcome.toBool = true →
      load (save (.file path) files c).store (save (.file path) files c).files = .ok (c, none)) ∧
    ((save (.file (some "c.json")) writeOnly c).outcome.toBool = true ∧
      load (.file (some "c.json")) (save (.file (some "c.json")) writeOnly c).files =
        .error (.unreadable "c.json" .denied)) ∧
    (save (.file (some "c.json")) device c).outcome.toBool = true ∧
      load (.file (some "c.json")) (save (.file (some "c.json")) device c).files = .ok ({}, none) := by
  intro c writeOnly device
  refine ⟨fun h => ?_, ⟨by decide +kernel, by decide +kernel⟩, by decide +kernel, by decide +kernel⟩
  have hparse : Configuration.parse "\x7b\"settings\": \x7b\"host\": \"orion\"\x7d\x7d" = .ok c := rfl
  have hload := h _ _ none {} hparse (fun n hn => absurd hn List.not_mem_nil) rfl
  have hdefault : load (.file none) {} = .ok ({}, none) := rfl
  have hsame : ({} : Configuration) = c := congrArg Prod.fst (Except.ok.inj (hdefault.symm.trans hload))
  exact absurd hsame (by decide)

/-- A configuration with its servers under their other name, a server with an unknown number, and the
    same server and table on their own. -/
theorem Configuration.decode_encode_orion :
    let server : Server := { brokerHost := "http://orion", extra := .ofList [("x", .number (.whole (-3)))] }
    let c : Configuration := { servers := .ofList [("orion", server)] }
    Configuration.parse c.toJson.pretty = .ok c ∧
      (let saved := Store.save (.file (some "conf/c.json")) {} c
       Store.load saved.store saved.files = .ok (c, none)) ∧
      (∃ e, Document.parse c.servers.toJson.pretty = .ok e ∧
        ServerTable.ofDocument? 125 e = some c.servers) ∧
      (∃ e, Document.parse server.toJson.compact = .ok e ∧ Server.ofDocument? 126 e = some server) := by
  intro server c
  have hwhole {j : Json} (hj : j.numbers = [.whole (-3)]) : j.Integral := by
    intro n hn
    rw [hj, List.mem_singleton] at hn
    exact Or.inr ⟨-3, hn, by decide, by decide⟩
  have hok {ε α : Type} {x : Except ε α} {a : α} (h : x.toOption = some a) : x = .ok a := by
    cases x with
    | error => cases h
    | ok b => exact congrArg Except.ok (Option.some.inj h)
  have hc : (Configuration.parse
      ("\x7b\"servers\": \x7b\"orion\": \x7b\"brokerHost\": \"http://orion\", \"x\": -3\x7d\x7d" ++
        "\x7d")).toOption = some c := by decide +kernel
  have ht : (Document.parse
      "\x7b\"orion\": \x7b\"brokerHost\": \"http://orion\", \"x\": -3\x7d\x7d").toOption.bind
      (ServerTable.ofDocument? 125) = some c.servers := by decide +kernel
  have hs : (Document.parse "\x7b\"brokerHost\": \"http://orion\", \"x\": -3\x7d").toOption.bind
      (Server.ofDocument? 126) = some server := by decide +kernel
  obtain ⟨dt, hdt, ht⟩ := Option.bind_eq_some_iff.1 ht
  obtain ⟨ds, hds, hs⟩ := Option.bind_eq_some_iff.1 hs
  obtain ⟨hconfiguration, htable, hserver⟩ := Configuration.decode_encode
  obtain ⟨hpretty, hfile, _⟩ := hconfiguration _ c (hok hc) (hwhole (by decide +kernel))
  refine ⟨hpretty, hfile _ _ (by decide +kernel) (by decide +kernel), ?_, ?_⟩
  · exact htable _ _ 125 _ (hok hdt) ht (hwhole (by decide +kernel)) _ (by simp)
  · exact hserver _ _ 126 _ (hok hds) hs (hwhole (by decide +kernel)) _ (by simp)

end BrokerCli
