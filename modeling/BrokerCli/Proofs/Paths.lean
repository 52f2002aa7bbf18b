import BrokerCli.Proofs.Frame
import BrokerCli.Proofs.Persistence

/-!
# What a save does to one place of the file system

A path can be followed only if the directories on its way are there. Where it leads to, if it can be
followed, its text alone says:

* `FileSystem.follow`, `FileSystem.meant` -- the place that names lead to, or a path means, as if all
  directories were there. No lookup ends anywhere else, and no file is opened anywhere else
  (`meant_of_locate`, `Opens.meant`);
* `FileSystem.Grows` -- everything is still there, and no file is new. Making directories is of this kind,
  also when it fails half way (`Store.grows_withDirectory`);
* `Store.saveFile_cases` -- all that a save to a file can do: beside making directories it writes the text of
  the configuration at the place that the path means, all of it or its first bytes (`Wrote.left`);
* `FileSystem.held?` -- the configuration in the file at a place. What a path that can be followed loads is
  held at the place that it means (`Place.held?_meant`), and one that cannot loads the configuration with
  all defaults (`Place.held?_of_not_isThere`).
-/

namespace BrokerCli

namespace FileSystem

variable {fs fs' : FileSystem} {l k : Location} {n : Node} {path : String}

/-! ## 1. The place that a path means -/

/-- The place that names lead to from a place, as if all directories on the way were there. -/
def follow : Location → List String → Location
  | l, [] => l
  | l, name :: names =>
    follow (if name = "." then l else if name = ".." then l.dropLast else l ++ [name]) names

theorem follow_append (l : Location) (names more : List String) :
    follow l (names ++ more) = follow (follow l names) more := by
  induction names generalizing l with
  | nil => rfl
  | cons name names ih => exact ih _

theorem follow_of_enter {name : String} (h : fs.enter l name = .ok k) : k = follow l [name] := by
  have hl := directory_of_enter h
  unfold enter at h
  rw [hl] at h
  simp only [follow]
  dsimp only at h
  split at h
  · rename_i hdot
    cases h
    rw [if_pos hdot]
  rename_i hdot
  rw [if_neg hdot]
  split at h
  · rename_i hdots
    cases h
    rw [if_pos hdots]
  rename_i hdots
  rw [if_neg hdots]
  split at h
  · cases h
  · cases h
    rfl

/-- A way that can be walked leads to where its names lead. -/
theorem follow_of_walk {names : List String} (h : fs.walk l names = .ok k) : k = follow l names := by
  induction names generalizing l with
  | nil => exact (Except.ok.inj h).symm
  | cons name names ih =>
    rw [walk] at h
    cases he : fs.enter l name with
    | error e =>
      rw [he] at h
      cases h
    | ok m =>
      rw [he] at h
      rw [ih h, follow_of_enter he]
      rfl

/-- The place that a path means, as if all directories on its way were there. -/
def meant (fs : FileSystem) (path : String) : Location :=
  follow (if Path.isAbsolute path then [] else fs.current) (Path.names path)

theorem meant_congr (h : fs'.current = fs.current) (path : String) : fs'.meant path = fs.meant path := by
  rw [meant, meant, h]

theorem start_of_origin {start : Location} (h : fs.origin path = .ok start) :
    start = if Path.isAbsolute path then [] else fs.current := by
  unfold origin at h
  split at h
  · cases h
  split at h
  · cases h
  split at h
  · cases h
  · exact (Except.ok.inj h).symm

/-- A path that can be looked up leads to the place that it means. -/
theorem meant_of_locate (h : fs.locate path = .ok l) : l = fs.meant path := by
  unfold locate at h
  split at h
  · cases h
  · rename_i start horigin
    rw [follow_of_walk h, meant, follow_append, start_of_origin horigin]
    -- the slash at the end asks for the place itself
    cases Path.endsInSlash path <;> rfl

/-- The node that a path leads to stands at the place that the path means. -/
theorem node?_of_nodeAt (h : fs.nodeAt path = .ok n) : fs.node? (fs.meant path) = some n := by
  unfold nodeAt at h
  split at h
  · cases h
  rename_i l hl
  rw [← meant_of_locate hl]
  split at h
  · cases h
  · rename_i hn
    cases h
    exact hn

/-- A file is opened at the place that its path means. -/
theorem Opens.meant {f : OpenFile} {start above : Location} {name : String}
    (h : Opens fs path f start above name) : f.place = fs.meant path := by
  obtain ⟨last, hlast, hsame⟩ := Option.map_eq_some_iff.1 h.last
  -- the last name is no dot, so it is the last name of the path
  have hname : (Path.names path).getLast? = some name := by
    rw [hlast, ← hsame]
    split
    · rename_i hslash
      rw [if_pos hslash] at hsame
      exact absurd (.inl hsame.symm) h.named
    · rfl
  have hnames : (Path.names path).dropLast ++ [name] = Path.names path :=
    List.dropLast_append_getLast? name hname
  rw [follow_of_enter h.place, follow_of_walk h.way, start_of_origin h.origin, ← follow_append, hnames,
    FileSystem.meant]

/-! ## 2. Files that grow -/

/-- Everything is where it was, and no file is new. -/
structure Grows (fs fs' : FileSystem) : Prop where
  beside : fs.Beside fs'
  kept : ∀ l n, fs.node? l = some n → fs'.node? l = some n
  found : ∀ l mode content, fs'.node? l = some (.file mode content) →
    fs.node? l = some (.file mode content)

theorem Grows.refl (fs : FileSystem) : fs.Grows fs := ⟨.refl fs, fun _ _ h => h, fun _ _ _ h => h⟩

theorem Grows.trans {fs'' : FileSystem} (h : fs.Grows fs') (h' : fs'.Grows fs'') : fs.Grows fs'' :=
  ⟨h.beside.trans h'.beside, fun l n hl => h'.kept l n (h.kept l n hl),
    fun l mode content hl => h.found l mode content (h'.found l mode content hl)⟩

/-- Where something is made that is no file, there was none, and there is none. -/
theorem Grows.bitsAt (h : fs.Grows fs') (l : Location) : fs'.bitsAt l = fs.bitsAt l := by
  cases hl : fs.node? l with
  | some n => exact bitsAt_congr ((h.kept l n hl).trans hl.symm)
  | none =>
    have hnone : fs.bitsAt l = privateMode := by rw [FileSystem.bitsAt, hl]
    rw [hnone, bitsAt_eq_privateMode_iff]
    intro mode content hfile
    rw [h.found l mode content hfile] at hl
    cases hl

theorem Grows.taken (h : fs.Grows fs') (l : Location) (content : ByteArray) :
    fs'.taken l content = fs.taken l content := by
  cases hl : fs.node? l with
  | some n => rw [FileSystem.taken, FileSystem.taken, h.kept l n hl, hl]
  | none =>
    rw [FileSystem.taken, FileSystem.taken, hl]
    split
    · rename_i hfile
      rw [h.found l _ _ hfile] at hl
      cases hl
    · rfl

theorem grows_makeDirectory {names : List String} (h : fs.makeDirectory k names = .ok fs') :
    fs.Grows fs' := by
  obtain ⟨_, _, l, _, _, _, hroot, hnone, rfl⟩ := put_of_makeDirectory h
  refine ⟨beside_put _ _ _, fun t n ht => ?_, fun t mode content ht => ?_⟩
  · -- the directory is made where nothing was, so it is not in the place of another node
    have hne : t ≠ l := by
      rintro rfl
      rw [hnone] at ht
      cases ht
    rw [node?_put hroot, if_neg hne]
    exact ht
  · rw [node?_put hroot] at ht
    split at ht
    · cases ht
    · exact ht

theorem grows_makeDirectories (fs : FileSystem) (path : String) :
    fs.Grows (fs.makeDirectories path).1 := by
  unfold makeDirectories
  split
  · exact .refl _
  · exact makeAll_moves Grows.refl Grows.trans grows_makeDirectory _ _ _

/-! ## 3. The configuration at a place -/

/-- The configuration that the file at a place holds, if there is a file and its text is one. -/
def held? (fs : FileSystem) (l : Location) : Option Configuration :=
  match fs.node? l with
  | some (.file _ content) =>
    (String.fromUTF8? content).bind fun text => (Store.readConfiguration "" text).toOption
  | _ => none

theorem held?_congr (h : fs'.node? l = fs.node? l) : fs'.held? l = fs.held? l := by
  rw [held?, held?, h]

end FileSystem

namespace Store

variable {files : FileSystem} {path : String} {c : Configuration}

/-- Only the reason of a failure names the path. -/
theorem toOption_readConfiguration (path text : String) :
    (readConfiguration path text).toOption = (readConfiguration "" text).toOption := by
  unfold readConfiguration
  split
  · rfl
  · cases Configuration.parse text <;> rfl

/-- The text of a configuration that was read can be read again. -/
theorem fits_of_readConfiguration {text : String} (h : readConfiguration path text = .ok c) :
    c.Fits (Configuration.depthLimit - 1) := by
  unfold readConfiguration at h
  split at h
  · cases h
    have hparse : Configuration.parse "\x7b\x7d" = .ok {} := rfl
    exact Configuration.fits_of_parse hparse
  · split at h
    · rename_i hparse
      cases h
      exact Configuration.fits_of_parse hparse
    · cases h

theorem grows_withDirectory (files : FileSystem) (path : String) :
    files.Grows (withDirectory files path).1 := by
  unfold withDirectory
  split
  · exact .refl _
  · rename_i directory _
    have hgrows := files.grows_makeDirectories directory
    rcases hmade : files.makeDirectories directory with ⟨made, _ | e⟩
    all_goals
      rw [hmade] at hgrows
      exact hgrows

theorem noDirectory_of_withDirectory {ready : FileSystem} {e : StoreError}
    (h : withDirectory files path = (ready, some e)) : ∃ directory cause, e = .noDirectory directory cause := by
  unfold withDirectory at h
  split at h
  · cases h
  · split at h
    · cases h
    · cases h
      exact ⟨_, _, rfl⟩

/-- **All that a save to a file can do**: directories are made; and then, if the file can be opened, the text
    of the configuration is written at the place that the path means, all of it or its first bytes. -/
theorem saveFile_cases (files : FileSystem) (path : String) (c : Configuration) :
    (files.Grows (saveFile files path c).1 ∧
      ∃ e, (saveFile files path c).2 = .error e ∧ ∀ path' cause, e ≠ .cutShort path' cause) ∨
    ∃ ready cause?, files.Grows ready ∧
      ready.Wrote c.text.toUTF8 (saveFile files path c).1 cause? (files.meant path) ∧
      (saveFile files path c).2 = match cause? with
        | none => .ok (some ("config saved to " ++ path))
        | some cause => .error (.cutShort path cause) := by
  have hgrows := grows_withDirectory files path
  unfold saveFile
  rcases hready : withDirectory files path with ⟨ready, _ | e⟩
  all_goals
    rw [hready] at hgrows
    dsimp only at hgrows ⊢
  · cases hopen : ready.openPrivate path with
    | error e => exact .inl ⟨hgrows, _, rfl, nofun⟩
    | ok f =>
      obtain ⟨start, above, name, hopens⟩ := FileSystem.opens_of_openPrivate hopen
      have hwrote := hopens.wrote c.text.toUTF8
      rw [hopens.meant, FileSystem.meant_congr hgrows.beside.current] at hwrote
      dsimp only
      rcases hwrite : f.write c.text.toUTF8 with ⟨saved, cause?⟩
      rw [hwrite] at hwrote
      refine .inr ⟨ready, cause?, hgrows, ?_⟩
      cases cause? <;> exact ⟨hwrote, rfl⟩
  · obtain ⟨directory, cause, rfl⟩ := noDirectory_of_withDirectory hready
    exact .inl ⟨hgrows, _, rfl, nofun⟩

/-- **What a save to a file can do to a node**: it stays, or, at the place that the path means, it becomes a
    file with what is left of the text of the configuration. -/
theorem node?_saveFile (path : String) (c : Configuration) {l : Location} {n : Node}
    (hl : files.node? l = some n) :
    (saveFile files path c).1.node? l = some n ∨ files.meant path = l ∧
      ∃ mode left, (saveFile files path c).1.node? l = some (.file mode left) ∧
        files.MayLeave c.text.toUTF8 left := by
  rcases saveFile_cases files path c with ⟨hgrows, _⟩ | ⟨ready, _, hgrows, hwrote, _⟩
  · exact .inl (hgrows.kept l n hl)
  · by_cases hplace : l = files.meant path
    · subst hplace
      rcases hwrote.left with hsame | ⟨left, hnode, hleft⟩
      · exact .inl (hsame.trans (hgrows.kept _ n hl))
      · exact .inr ⟨rfl, _, left, hnode, hleft.mono (hgrows.beside.mishaps ▸ List.Subset.refl _)⟩
    · exact .inl ((hwrote.others l hplace).trans (hgrows.kept l n hl))

/-- **Where files come from**: a file behind a save was there before, or holds what is left of the text of
    the configuration. -/
theorem file_of_saveFile {l : Location} {mode : Nat} {content : ByteArray}
    (hl : (saveFile files path c).1.node? l = some (.file mode content)) :
    files.node? l = some (.file mode content) ∨ files.MayLeave c.text.toUTF8 content := by
  rcases saveFile_cases files path c with ⟨hgrows, _⟩ | ⟨ready, _, hgrows, hwrote, _⟩
  · exact .inl (hgrows.found l mode content hl)
  · by_cases hplace : l = files.meant path
    · subst hplace
      rcases hwrote.left with hsame | ⟨left, hnode, hleft⟩
      · exact .inl (hgrows.found _ mode content (hsame.symm.trans hl))
      · rw [hnode] at hl
        cases hl
        exact .inr (hleft.mono (hgrows.beside.mishaps ▸ List.Subset.refl _))
    · exact .inl (hgrows.found l mode content ((hwrote.others l hplace).symm.trans hl))

/-- **No save changes any bits**, whether it succeeds or not. -/
theorem bitsAt_saveFile (files : FileSystem) (path : String) (c : Configuration) (l : Location) :
    (saveFile files path c).1.bitsAt l = files.bitsAt l := by
  rcases saveFile_cases files path c with ⟨hgrows, _⟩ | ⟨ready, _, hgrows, hwrote, _⟩
  · exact hgrows.bitsAt l
  · exact (hwrote.bitsAt l).trans (hgrows.bitsAt l)

/-- What else there is to a file system stays what it is, but for a write that is over. -/
theorem rest_saveFile (files : FileSystem) (path : String) (c : Configuration) :
    let saved := (saveFile files path c).1
    saved.current = files.current ∧ saved.privileged = files.privileged ∧
      saved.mishaps ⊆ files.mishaps := by
  rcases saveFile_cases files path c with ⟨⟨hbeside, _⟩, _⟩ | ⟨ready, _, ⟨hbeside, _⟩, hwrote, _⟩
  · exact ⟨hbeside.current, hbeside.privileged, hbeside.mishaps ▸ List.Subset.refl _⟩
  · refine ⟨hwrote.current.trans hbeside.current, hwrote.privileged.trans hbeside.privileged, ?_⟩
    rw [hwrote.mishaps, hbeside.mishaps]
    exact (List.tail_sublist _).subset

/-- Whether a path is legible behind a save that succeeds can be told beforehand. -/
theorem isLegible_of_takes (h : (save (.file (some path)) files c).outcome.toBool = true) :
    (save (.file (some path)) files c).files.isLegible path =
      files.isLegibleWith (files.bitsAt (files.meant path)) := by
  obtain ⟨ready, f, hsaves⟩ := savesTo_of_takes h
  generalize (save (.file (some path)) files c).files = saved at hsaves ⊢
  obtain ⟨⟨start, above, name, hopens⟩, hwrote⟩ := hsaves.wrote
  have hgrows := grows_withDirectory files path
  rw [hsaves.directory] at hgrows
  have hplace : f.place = files.meant path :=
    hopens.meant.trans (FileSystem.meant_congr hgrows.beside.current path)
  unfold FileSystem.isLegible FileSystem.isLegibleWith FileSystem.mayRead
  rw [hopens.nodeAt hwrote, hwrote.privileged, hgrows.beside.privileged, hplace, hgrows.bitsAt]

end Store

namespace FileSystem

variable {fs : FileSystem} {l : Location} {c : Configuration}

theorem held?_eq_some_iff : fs.held? l = some c ↔ ∃ mode content text, fs.node? l = some (.file mode content) ∧
    String.fromUTF8? content = some text ∧ Store.readConfiguration "" text = .ok c := by
  unfold held?
  cases hn : fs.node? l with
  | none => simp
  | some n =>
    cases n with
    | directory => simp
    | file mode content =>
      have hread (text : String) : (Store.readConfiguration "" text).toOption = some c ↔
          Store.readConfiguration "" text = .ok c := by
        cases Store.readConfiguration "" text <;> simp [Except.toOption]
      simp [Option.bind_eq_some_iff, hread]

theorem fits_of_held? (h : fs.held? l = some c) : c.Fits (Configuration.depthLimit - 1) := by
  obtain ⟨_, _, _, _, _, hread⟩ := held?_eq_some_iff.1 h
  exact Store.fits_of_readConfiguration hread

/-- A file with the text of a configuration holds it. -/
theorem held?_of_text {mode : Nat} (hf : c.Fits (Configuration.depthLimit - 1)) (hn : c.toJson.Integral)
    (h : fs.node? l = some (.file mode c.text.toUTF8)) : fs.held? l = some c := by
  have hutf : String.fromUTF8? c.text.toUTF8 = some c.text := dif_pos c.text.isValidUTF8
  have hparse : Configuration.parse c.text = .ok c := Configuration.parse_toJson hf hn .pretty ['\n'] rfl
  refine held?_eq_some_iff.2 ⟨mode, _, _, h, hutf, ?_⟩
  rw [Store.readConfiguration, Configuration.allBlank_text, if_neg Bool.false_ne_true, hparse]

end FileSystem

namespace Place

variable {fs : FileSystem} {path : String}

/-- **What a path that can be followed loads is held at the place that it means.** -/
theorem held?_meant {c : Configuration} (h : fs.isThere path = true)
    (hc : held? ⟨.file (some path), fs⟩ = some c) : fs.held? (fs.meant path) = some c := by
  obtain ⟨remark, hload⟩ := held?_eq_some_iff.1 hc
  unfold Store.load at hload
  dsimp only at hload
  rw [if_pos h] at hload
  split at hload
  · cases hload
  rename_i text htext
  unfold FileSystem.readText at htext
  split at htext
  · cases htext
  · cases htext
  rename_i mode content hat
  have hread : Store.readConfiguration path text = .ok c := by
    cases hread : Store.readConfiguration path text with
    | error e =>
      rw [hread] at hload
      cases hload
    | ok c' =>
      rw [hread] at hload
      cases hload
      rfl
  split at htext
  · split at htext
    · rename_i hutf
      cases htext
      refine FileSystem.held?_eq_some_iff.2 ⟨mode, content, text, FileSystem.node?_of_nodeAt hat, hutf, ?_⟩
      have hsame := Store.toOption_readConfiguration path text
      rw [hread] at hsame
      cases hplain : Store.readConfiguration "" text <;> rw [hplain] at hsame <;> cases hsame
      rfl
    · cases htext
  · cases htext

/-- A path that cannot be followed, or leads to nothing, loads the configuration with all defaults. -/
theorem held?_of_not_isThere (h : fs.isThere path = false) :
    held? ⟨.file (some path), fs⟩ = some {} := by
  unfold held? Store.load
  simp only [h, Bool.false_eq_true, if_false]
  rfl

end Place

end BrokerCli
