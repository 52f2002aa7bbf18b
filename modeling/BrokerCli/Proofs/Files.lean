import Mathlib.Data.List.Basic
import BrokerCli.FileSystem

/-!
# Files that are opened and written

What an open file is, and what a write to it leaves:

* `FileSystem.KeepsWays` -- all directories are still there, so that every way can still be walked
  (`walk_of_keepsWays`). Whatever is put at the place of a file is of this kind (`keepsWays_put`);
* `FileSystem.bitsAt` -- the permission bits that a file at a place has, or will have once it is made there;
* `FileSystem.Opens` -- all that opening a file has done; `Opens.reopens` -- what can be opened can be opened
  again;
* `FileSystem.Wrote` -- all that a write has done, whether it was cut short or not. What stands at a path
  behind a write (`nodeAt_of_wrote`) is read from it, if the file keeps what is written to it and may be read
  (`readText_of_wrote`);
* `FileSystem.makeAll_of_isDirectory` -- directories that are there are not made again.
-/

namespace BrokerCli.FileSystem

variable {fs fs' fs'' : FileSystem} {l k t : Location} {n : Node} {path : String} {content : ByteArray}

/-! ## 1. Ways -/

/-- A place that is walked through is a directory. -/
theorem directory_of_enter {name : String} (h : fs.enter l name = .ok k) :
    fs.node? l = some .directory := by
  unfold enter at h
  split at h
  · cases h
  · cases h
  · assumption

/-- All directories are still there. -/
def KeepsWays (fs fs' : FileSystem) : Prop :=
  ∀ l, fs.node? l = some .directory → fs'.node? l = some .directory

theorem KeepsWays.trans (h : fs.KeepsWays fs') (h' : fs'.KeepsWays fs'') : fs.KeepsWays fs'' :=
  fun l hl => h' l (h l hl)

/-- What is put at a place that is no directory keeps the ways. -/
theorem keepsWays_put (ht : t ≠ []) (hd : fs.node? t ≠ some .directory) (n : Node) :
    fs.KeepsWays (fs.put t n) := by
  intro l hl
  have hne : l ≠ t := by
    rintro rfl
    exact hd hl
  rw [node?_put ht, if_neg hne, hl]

theorem enter_of_keepsWays {name : String} (hkeeps : fs.KeepsWays fs') (h : fs.enter l name = .ok k) :
    fs'.enter l name = .ok k := by
  have hl := directory_of_enter h
  unfold enter at h ⊢
  rw [hl] at h
  rw [hkeeps l hl]
  exact h

theorem walk_of_keepsWays {names : List String} (hkeeps : fs.KeepsWays fs') (h : fs.walk l names = .ok k) :
    fs'.walk l names = .ok k := by
  induction names generalizing l with
  | nil => exact h
  | cons name names ih =>
    rw [walk] at h ⊢
    cases he : fs.enter l name with
    | error e =>
      rw [he] at h
      cases h
    | ok m =>
      rw [he] at h
      rw [enter_of_keepsWays hkeeps he]
      exact ih h

/-- A way goes on where it has led. -/
theorem walk_append {names more : List String} (h : fs.walk l names = .ok k) :
    fs.walk l (names ++ more) = fs.walk k more := by
  induction names generalizing l with
  | nil =>
    cases h
    rfl
  | cons name names ih =>
    rw [walk] at h
    rw [List.cons_append, walk]
    cases he : fs.enter l name with
    | error e =>
      rw [he] at h
      cases h
    | ok m =>
      rw [he] at h
      exact ih h

theorem walk_concat {names : List String} {name : String} (h : fs.walk l (names ++ [name]) = .ok k) :
    ∃ above, fs.walk l names = .ok above ∧ fs.enter above name = .ok k := by
  induction names generalizing l with
  | nil =>
    rw [List.nil_append, walk] at h
    cases he : fs.enter l name with
    | error e =>
      rw [he] at h
      cases h
    | ok m =>
      rw [he] at h
      cases h
      exact ⟨l, rfl, he⟩
  | cons first names ih =>
    rw [List.cons_append, walk] at h
    cases he : fs.enter l first with
    | error e =>
      rw [he] at h
      cases h
    | ok m =>
      rw [he] at h
      obtain ⟨above, hw, hk⟩ := ih h
      exact ⟨above, by rw [walk, he]; exact hw, hk⟩

/-- A name that is none of the two for the place itself and the place above leads below. -/
theorem enter_eq_of_name {name : String} (h : fs.enter l name = .ok k) (hn : ¬ (name = "." ∨ name = "..")) :
    k = l ++ [name] := by
  obtain ⟨hdot, hdots⟩ := not_or.1 hn
  have hl := directory_of_enter h
  unfold enter at h
  rw [hl] at h
  simp only [hdot, hdots, if_false] at h
  split at h
  · cases h
  · cases h
    rfl

/-! ## 2. Permission bits -/

/-- The permission bits of the file at a place, and those of a private one where there is no file. -/
def bitsAt (fs : FileSystem) (l : Location) : Nat :=
  match fs.node? l with
  | some (.file mode _) => mode
  | _ => privateMode

theorem bitsAt_of_file {mode : Nat} (h : fs.node? l = some (.file mode content)) : fs.bitsAt l = mode := by
  rw [bitsAt, h]

theorem bitsAt_congr (h : fs'.node? l = fs.node? l) : fs'.bitsAt l = fs.bitsAt l := by
  rw [bitsAt, bitsAt, h]

theorem bitsAt_eq_privateMode_iff : fs.bitsAt l = privateMode ↔
    ∀ mode content, fs.node? l = some (.file mode content) → mode = privateMode := by
  constructor
  · intro h mode content hfile
    rw [← h, bitsAt_of_file hfile]
  · intro h
    unfold bitsAt
    split
    · rename_i hfile
      exact h _ _ hfile
    · rfl

/-- What the file at a place holds once this is written to it: a device keeps what it holds. -/
def taken (fs : FileSystem) (l : Location) (content : ByteArray) : ByteArray :=
  match fs.node? l with
  | some (.file mode old) => if Node.isDevice mode then old else content
  | _ => content

theorem taken_of_not_device (h : Node.isDevice (fs.bitsAt l) = false) : fs.taken l content = content := by
  unfold taken
  split
  · rename_i hl
    rw [bitsAt_of_file hl] at h
    rw [h]
    rfl
  · rfl

theorem taken_of_device {mode : Nat} {old : ByteArray} (hl : fs.node? l = some (.file mode old))
    (h : Node.isDevice mode = true) : fs.taken l content = old := by
  rw [taken, hl]
  exact if_pos h

/-- A device is what it was, whatever is written to it. -/
theorem node?_of_device (h : Node.isDevice (fs.bitsAt l) = true) (content : ByteArray) :
    fs.node? l = some (.file (fs.bitsAt l) (fs.taken l content)) := by
  unfold bitsAt at h
  split at h
  · rename_i hl
    rw [hl, bitsAt_of_file hl, taken_of_device hl h]
  · cases h

theorem emptied_file (fs : FileSystem) (mode : Nat) (old : ByteArray) :
    fs.emptied (some (.file mode old)) = if fs.mayWrite mode = true then
      .ok (.file mode (if Node.isDevice mode then old else .empty)) else .error .denied :=
  rfl

/-- **What opening a file makes of what stands there**: a file with its bits, where there was no directory. -/
theorem node_of_emptied (h : fs.emptied (fs.node? l) = .ok n) :
    fs.node? l ≠ some .directory ∧ n = .file (fs.bitsAt l) (fs.taken l .empty) := by
  unfold bitsAt taken
  cases hl : fs.node? l with
  | none =>
    rw [hl] at h
    cases h
    exact ⟨nofun, rfl⟩
  | some n' =>
    rw [hl] at h
    cases n' with
    | directory => cases h
    | file mode old =>
      rw [emptied_file] at h
      split at h
      · cases h
        exact ⟨nofun, rfl⟩
      · cases h

/-- Writing to the file that was opened. -/
theorem rewritten_taken (fs : FileSystem) (l : Location) (content : ByteArray) :
    Node.rewritten content (.file (fs.bitsAt l) (fs.taken l .empty)) =
      .file (fs.bitsAt l) (fs.taken l content) := by
  refine congrArg (Node.file (fs.bitsAt l)) ?_
  cases hdevice : Node.isDevice (fs.bitsAt l) with
  | false => exact (taken_of_not_device hdevice).symm
  | true =>
    have hsame := (node?_of_device hdevice .empty).symm.trans (node?_of_device hdevice content)
    exact (Node.file.inj (Option.some.inj hsame)).2

/-! ## 3. Opening -/

/-- What opening a file has done: at the place that the path means, where there was no directory, there is a
    file that holds nothing. -/
structure Opens (fs : FileSystem) (path : String) (f : OpenFile) (start above : Location) (name : String) :
    Prop where
  origin : fs.origin path = .ok start
  last : lastName? path = some name
  way : fs.walk start (Path.names path).dropLast = .ok above
  place : fs.enter above name = .ok f.place
  named : ¬ (name = "." ∨ name = "..")
  root : f.place ≠ []
  emptied : fs.emptied (fs.node? f.place) = .ok f.node
  files : f.files = fs.put f.place f.node

theorem opens_of_openPrivate {f : OpenFile} (h : fs.openPrivate path = .ok f) :
    ∃ start above name, Opens fs path f start above name := by
  unfold openPrivate at h
  split at h
  · cases h
  rename_i start horigin
  split at h
  · cases h
  rename_i name hname
  split at h
  · cases h
  rename_i l hl
  split at h
  · cases h
  rename_i hdots
  split at h
  · cases h
  rename_i node hnode
  cases h
  unfold locateNew at hl
  split at hl
  · cases hl
  rename_i above habove
  have hroot : l ≠ [] := by
    rw [enter_eq_of_name hl hdots]
    simp
  exact ⟨start, above, name, horigin, hname, habove, hl, hdots, hroot, hnode, rfl⟩

variable {f : OpenFile} {start above : Location} {name : String}

theorem Opens.free (h : Opens fs path f start above name) : fs.node? f.place ≠ some .directory :=
  (node_of_emptied h.emptied).1

theorem Opens.keepsWays (h : Opens fs path f start above name) : fs.KeepsWays f.files := by
  rw [h.files]
  exact keepsWays_put h.root h.free _

/-- **What can be opened can be opened again** where all ways are still there, and at its place a file that
    may be written to as well. -/
theorem Opens.reopens (h : Opens fs path f start above name) (hcurrent : fs'.current = fs.current)
    (hkeeps : fs.KeepsWays fs') (hn : ∃ n, fs'.emptied (fs'.node? f.place) = .ok n) :
    ∃ f', fs'.openPrivate path = .ok f' := by
  have horigin : fs'.origin path = .ok start := by
    rw [FileSystem.origin, hcurrent]
    exact h.origin
  have hplace : fs'.locateNew start (Path.names path).dropLast name = .ok f.place := by
    rw [locateNew, walk_of_keepsWays hkeeps h.way]
    exact enter_of_keepsWays hkeeps h.place
  obtain ⟨n, hn⟩ := hn
  refine ⟨⟨fs'.put f.place n, f.place, n⟩, ?_⟩
  unfold openPrivate
  simp only [horigin, h.last, hplace, if_neg h.named, hn]

/-! ## 4. Writing -/

/-- What a write has done: at the place that the path means there is a file with its bits, and nothing else
    has changed. It holds what could be written of the content, unless it is a device. -/
structure Wrote (fs : FileSystem) (content : ByteArray) (fs' : FileSystem) (e : Option FileError)
    (l : Location) : Prop where
  root : l ≠ []
  free : fs.node? l ≠ some .directory
  node : fs'.node? l = some (.file (fs.bitsAt l)
    (fs.taken l (Mishap.written? fs.mishaps.head?.join content)))
  others : ∀ k, k ≠ l → fs'.node? k = fs.node? k
  current : fs'.current = fs.current
  privileged : fs'.privileged = fs.privileged
  mishaps : fs'.mishaps = fs.mishaps.tail
  error : e = fs.mishaps.head?.join.map Mishap.error

theorem Opens.wrote (h : Opens fs path f start above name) (content : ByteArray) :
    Wrote fs content (f.write content).1 (f.write content).2 f.place := by
  obtain ⟨hfree, hnode⟩ := node_of_emptied h.emptied
  have hmishaps : f.files.mishaps = fs.mishaps := by rw [h.files]; rfl
  have hat (k : Location) : (f.write content).1.node? k = if k = f.place then
      some (f.node.rewritten (Mishap.written? fs.mishaps.head?.join content)) else fs.node? k := by
    unfold OpenFile.write
    dsimp only
    rw [node?_put h.root, hmishaps]
    by_cases hk : k = f.place
    · rw [if_pos hk, if_pos hk]
    · rw [if_neg hk, if_neg hk]
      show f.files.node? k = fs.node? k
      rw [h.files, node?_put h.root, if_neg hk]
  have hrest : (f.write content).1 = { f.files with
      nodes := (f.write content).1.nodes, mishaps := f.files.mishaps.tail } := rfl
  constructor
  case root => exact h.root
  case free => exact hfree
  case node => rw [hat, if_pos rfl, hnode, rewritten_taken]
  case others => exact fun k hk => (hat k).trans (if_neg hk)
  case current =>
    rw [hrest, h.files]
    rfl
  case privileged =>
    rw [hrest, h.files]
    rfl
  case mishaps => rw [hrest, hmishaps]
  case error =>
    unfold OpenFile.write
    rw [hmishaps]

variable {e : Option FileError}

theorem Wrote.keepsWays (h : Wrote fs content fs' e l) : fs.KeepsWays fs' := by
  intro k hk
  have hne : k ≠ l := by
    rintro rfl
    exact h.free hk
  rw [h.others k hne, hk]

theorem Wrote.bitsAt (h : Wrote fs content fs' e l) (k : Location) : fs'.bitsAt k = fs.bitsAt k := by
  by_cases hk : k = l
  · subst hk
    exact bitsAt_of_file h.node
  · exact bitsAt_congr (h.others k hk)

/-- A write that has gone well has written all. -/
theorem Wrote.written (h : Wrote fs content fs' none l) : fs.mishaps.head?.join = none :=
  Option.map_eq_none_iff.1 h.error.symm

/-- What may be left of a content that is written: all of it, or its first bytes if one of the writes to come
    goes wrong. -/
def MayLeave (fs : FileSystem) (content left : ByteArray) : Prop :=
  left = content ∨ ∃ m, some m ∈ fs.mishaps ∧ left = content.extract 0 m.written

theorem MayLeave.mono {left : ByteArray} (h : fs.MayLeave content left) (hm : fs.mishaps ⊆ fs'.mishaps) :
    fs'.MayLeave content left :=
  h.imp_right fun ⟨m, hmem, hleft⟩ => ⟨m, hm hmem, hleft⟩

/-- **What a write can do to the file at its place**: the file is a device and stays what it is, or it has the
    same bits and holds what is left of the content. -/
theorem Wrote.left (h : Wrote fs content fs' e l) : fs'.node? l = fs.node? l ∨
    ∃ left, fs'.node? l = some (.file (fs.bitsAt l) left) ∧ fs.MayLeave content left := by
  have hleft : fs.MayLeave content (Mishap.written? fs.mishaps.head?.join content) := by
    cases hm : fs.mishaps.head?.join with
    | none => exact .inl rfl
    | some m => exact .inr ⟨m, List.mem_of_head? (Option.join_eq_some_iff.1 hm), rfl⟩
  cases hdevice : Node.isDevice (fs.bitsAt l) with
  | false =>
    refine .inr ⟨_, ?_, hleft⟩
    rw [h.node, taken_of_not_device hdevice]
  | true => exact .inl (h.node.trans (node?_of_device hdevice _).symm)

/-- **What is written to a path stands there.** -/
theorem Opens.nodeAt (h : Opens fs path f start above name) (hw : Wrote fs content fs' e f.place) :
    fs'.nodeAt path = .ok (.file (fs.bitsAt f.place)
      (fs.taken f.place (Mishap.written? fs.mishaps.head?.join content))) := by
  -- the last name is no dot, so the path does not end in a slash
  obtain ⟨last, hlast, hsame⟩ := Option.map_eq_some_iff.1 h.last
  have hslash : Path.endsInSlash path = false := by
    refine Bool.eq_false_iff.2 fun hs => h.named (Or.inl ?_)
    rw [← hsame, if_pos hs]
  have hlast' : (Path.names path).getLast? = some name := by
    rw [hlast, ← hsame, hslash]
    rfl
  have hnames : Path.names path = (Path.names path).dropLast ++ [name] :=
    (List.dropLast_append_getLast? name hlast').symm
  have hwalk : fs'.walk start (Path.names path) = .ok f.place := by
    rw [hnames, walk_append (walk_of_keepsWays hw.keepsWays h.way), walk,
      enter_of_keepsWays hw.keepsWays h.place]
    rfl
  have horigin : fs'.origin path = .ok start := by
    rw [FileSystem.origin, hw.current]
    exact h.origin
  rw [FileSystem.nodeAt, locate, horigin]
  simp only [hslash, Bool.false_eq_true, if_false, List.append_nil, hwalk, hw.node]

/-- Whether a file with these bits keeps what is written to it, and the user may read it. -/
def isLegibleWith (fs : FileSystem) (mode : Nat) : Bool := !Node.isDevice mode && fs.mayRead mode

/-- Whether a path leads to a file that keeps what is written to it, and that the user may read. -/
def isLegible (fs : FileSystem) (path : String) : Bool :=
  match fs.nodeAt path with
  | .ok (.file mode _) => fs.isLegibleWith mode
  | _ => false

/-- **What is written to a path is read from the path**, if the file keeps it and may be read. -/
theorem Opens.readText {text : String} (h : Opens fs path f start above name)
    (hw : Wrote fs text.toUTF8 fs' none f.place) (hlegible : fs'.isLegible path = true) :
    fs'.isThere path = true ∧ fs'.readText path = .ok text := by
  have hat := h.nodeAt hw
  unfold isLegible at hlegible
  rw [hat] at hlegible
  obtain ⟨hkeeps, hread⟩ := Bool.and_eq_true_iff.1 hlegible
  rw [hw.written, taken_of_not_device (Bool.not_eq_true' _ ▸ hkeeps)] at hat
  refine ⟨?_, ?_⟩
  · rw [isThere, hat]
    rfl
  · have hutf : String.fromUTF8? text.toUTF8 = some text := dif_pos text.isValidUTF8
    rw [FileSystem.readText, hat]
    simp only [hread, if_true, Mishap.written?, hutf]

/-- **Where a file was written it can be opened again.** -/
theorem Opens.again (h : Opens fs path f start above name) (hw : Wrote fs content fs' e f.place) :
    ∃ f', fs'.openPrivate path = .ok f' := by
  refine h.reopens hw.current hw.keepsWays ?_
  rw [hw.node]
  -- a file that is there was one that may be written to, and one that was made is private
  have hmay : fs'.mayWrite (fs.bitsAt f.place) = true := by
    have hemptied := h.emptied
    unfold mayWrite
    rw [hw.privileged]
    unfold FileSystem.bitsAt
    cases hl : fs.node? f.place with
    | none => exact Bool.or_eq_true_iff.2 (.inr rfl)
    | some n =>
      rw [hl] at hemptied
      cases n with
      | directory => cases hemptied
      | file mode old =>
        rw [emptied_file] at hemptied
        split at hemptied
        · assumption
        · cases hemptied
  rw [emptied_file, if_pos hmay]
  exact ⟨_, rfl⟩

/-! ## 5. Directories -/

/-- The two differ in nothing but what stands at the places. -/
def Beside (fs fs' : FileSystem) : Prop := fs' = { fs with nodes := fs'.nodes }

theorem Beside.refl (fs : FileSystem) : fs.Beside fs := rfl

theorem Beside.trans (h : fs.Beside fs') (h' : fs'.Beside fs'') : fs.Beside fs'' := by
  unfold Beside at *
  rw [h', h]

theorem Beside.current (h : fs.Beside fs') : fs'.current = fs.current := by
  rw [Beside] at h
  rw [h]

theorem Beside.privileged (h : fs.Beside fs') : fs'.privileged = fs.privileged := by
  rw [Beside] at h
  rw [h]

theorem Beside.mishaps (h : fs.Beside fs') : fs'.mishaps = fs.mishaps := by
  rw [Beside] at h
  rw [h]

theorem beside_put (fs : FileSystem) (l : Location) (n : Node) : fs.Beside (fs.put l n) := rfl

theorem isDirectory_iff {names : List String} :
    fs.isDirectory k names = true ↔ ∃ l, fs.walk k names = .ok l ∧ fs.node? l = some .directory := by
  unfold isDirectory
  cases fs.walk k names with
  | error e => simp
  | ok l =>
    cases hl : fs.node? l with
    | none => simp [hl]
    | some node => cases node <;> simp [hl]

/-- A way that leads to a directory still does when all directories are still there. -/
theorem isDirectory_of_keepsWays {names : List String} (hkeeps : fs.KeepsWays fs')
    (h : fs.isDirectory k names = true) : fs'.isDirectory k names = true := by
  obtain ⟨l, hw, hl⟩ := isDirectory_iff.1 h
  exact isDirectory_iff.2 ⟨l, walk_of_keepsWays hkeeps hw, hkeeps l hl⟩

/-- What making a directory has done: there is one at the end of the names, where nothing was. -/
theorem put_of_makeDirectory {names : List String} (h : fs.makeDirectory k names = .ok fs') :
    ∃ above name l, names = names.dropLast ++ [name] ∧ fs.walk k names.dropLast = .ok above ∧
      fs.enter above name = .ok l ∧ l ≠ [] ∧ fs.node? l = none ∧ fs' = fs.put l .directory := by
  unfold makeDirectory at h
  split at h
  · cases h
  rename_i name hname
  split at h
  · cases h
  rename_i l hl
  split at h
  · cases h
  rename_i hfree
  cases h
  unfold locateNew at hl
  split at hl
  · cases hl
  rename_i above habove
  obtain ⟨hdot, hfree⟩ := not_or.1 hfree
  obtain ⟨hdots, hnone⟩ := not_or.1 hfree
  have hroot : l ≠ [] := by
    rw [enter_eq_of_name hl (not_or.2 ⟨hdot, hdots⟩)]
    simp
  exact ⟨above, name, l, (List.dropLast_append_getLast? name hname).symm, habove, hl, hroot,
    Option.not_isSome_iff_eq_none.1 hnone, rfl⟩

theorem isDirectory_of_makeDirectory {names : List String} (h : fs.makeDirectory k names = .ok fs') :
    fs'.isDirectory k names = true := by
  obtain ⟨above, name, l, hnames, habove, hl, hroot, hnone, rfl⟩ := put_of_makeDirectory h
  have hkeeps : fs.KeepsWays (fs.put l .directory) := keepsWays_put hroot (by rw [hnone]; nofun) _
  refine isDirectory_iff.2 ⟨l, ?_, by rw [node?_put hroot, if_pos rfl]⟩
  rw [hnames, walk_append (walk_of_keepsWays hkeeps habove), walk, enter_of_keepsWays hkeeps hl]
  rfl

theorem isDirectory_of_settle {names : List String}
    (h : fs.settle k names (fs.makeDirectory k names) = (fs', none)) :
    fs'.isDirectory k names = true := by
  cases hm : fs.makeDirectory k names with
  | ok made =>
    rw [hm] at h
    cases h
    exact isDirectory_of_makeDirectory hm
  | error e =>
    rw [hm, settle] at h
    split at h
    · rename_i hd
      cases h
      exact hd
    · cases h

/-- Directories that could be made are there. -/
theorem isDirectory_of_makeAll {name : String} {above : List String}
    (h : fs.makeAll k (name :: above) = (fs', none)) :
    fs'.isDirectory k (name :: above).reverse = true := by
  unfold makeAll at h
  dsimp only at h
  split at h
  · split at h
    · cases h
    · exact isDirectory_of_settle h
  · exact isDirectory_of_settle h

/-- Where there is a directory nothing is made. -/
theorem makeAll_of_isDirectory {name : String} {above : List String}
    (h : fs.isDirectory k (name :: above).reverse = true) :
    fs.makeAll k (name :: above) = (fs, none) := by
  have hthere : fs.makeDirectory k (name :: above).reverse = .error .alreadyThere := by
    obtain ⟨l, hw, hl⟩ := isDirectory_iff.1 h
    rw [List.reverse_cons] at hw
    obtain ⟨m, hm, hl'⟩ := walk_concat hw
    unfold makeDirectory
    rw [List.reverse_cons, List.getLast?_concat, List.dropLast_concat]
    simp only [locateNew, hm, hl', hl, Option.isSome_some, or_true, if_true]
  unfold makeAll
  dsimp only
  rw [hthere]
  simp only [settle, h, if_true]

/-- **A relation that making a directory moves along is one that making all of them does**, whether it
    succeeds or not. -/
theorem makeAll_moves {R : FileSystem → FileSystem → Prop} (hrefl : ∀ fs, R fs fs)
    (htrans : ∀ {fs fs' fs''}, R fs fs' → R fs' fs'' → R fs fs'')
    (hmake : ∀ {fs fs' : FileSystem} {k names}, fs.makeDirectory k names = .ok fs' → R fs fs')
    (fs : FileSystem) (start : Location) (names : List String) : R fs (fs.makeAll start names).1 := by
  have hsettle (fs : FileSystem) (names : List String) :
      R fs (fs.settle start names (fs.makeDirectory start names)).1 := by
    cases hm : fs.makeDirectory start names with
    | ok made => exact hmake hm
    | error e =>
      unfold settle
      dsimp only
      split <;> exact hrefl fs
  induction names with
  | nil => exact hrefl fs
  | cons name above ih =>
    unfold makeAll
    dsimp only
    split
    · split
      · rename_i made e hmade
        rw [hmade] at ih
        exact ih
      · rename_i made hmade
        rw [hmade] at ih
        exact htrans ih (hsettle made _)
    · exact hsettle fs _

/-- Only what stands at the places is changed by making directories. -/
theorem beside_makeAll (fs : FileSystem) (start : Location) (names : List String) :
    fs.Beside (fs.makeAll start names).1 := by
  refine makeAll_moves Beside.refl Beside.trans (fun h => ?_) fs start names
  obtain ⟨_, _, l, _, _, _, _, _, rfl⟩ := put_of_makeDirectory h
  exact beside_put _ l _

end BrokerCli.FileSystem
