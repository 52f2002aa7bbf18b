import BrokerCli.Configuration
import BrokerCli.FileSystem
import BrokerCli.Text.Basic

/-!
# Stores

Where a configuration is kept between runs: in memory, in a file, or nowhere.

* `Store.load` -- the configuration that a store holds. A file that is not there, or holds only
  white space, stands for the configuration with all defaults;
* `Store.save` -- the store and the files after a configuration was saved, or was not. A save that fails
  before the file is open changes no file, though it may leave directories behind; one that fails later
  leaves what could be written.

Both come with a remark if a reader of the log may want to know more.
-/

namespace BrokerCli

/-- A place to keep a configuration. -/
inductive Store where
  /-- In memory, with the number of times it was saved there. A read-only one refuses to be saved to. -/
  | memory (held : Configuration) (saves : Nat) (readOnly : Bool)
  /-- In a file, or nowhere. -/
  | file (path : Option String)
deriving DecidableEq, Inhabited

/-- Why a store cannot be read or written. -/
inductive StoreError where
  | unreadable (path : String) (e : FileError)
  | malformed (path : String) (upTo : Document.Position)
  | noDirectory (directory : String) (e : FileError)
  | unwritable (path : String) (e : FileError)
  | cutShort (path : String) (e : FileError)
  | readOnly
  | noStore
deriving DecidableEq, Repr

namespace StoreError

/-- The wording for a text that is no configuration. -/
def malformedText (p : Document.Position) : String :=
  "not a configuration at line " ++ Text.writeInt p.line ++ " column " ++ Text.writeInt p.column

/-- The fault of a store that cannot be read or written. -/
def fault : StoreError → Fault
  | unreadable path e => .raiseFrom "loadConfig" 1 (path ++ ": " ++ e.text) e.text
  | malformed path p => .raiseFrom "loadConfig" 2 (path ++ ": " ++ malformedText p) (malformedText p)
  | noDirectory directory e => .raiseFrom "saveConfig" 1 (directory ++ ": " ++ e.text) e.text
  | unwritable path e => .raiseFrom "saveConfig" 3 (path ++ ": " ++ e.text) e.text
  | cutShort path e => .raiseFrom "saveConfig" 4 (path ++ ": " ++ e.text) e.text
  | readOnly => .raise "saveConfig" 3 "read-only store"
  | noStore => .raise "saveConfig" 5 "settings store not initialized"

end StoreError

namespace Store

/-- An empty store in memory that can be written. -/
def inMemory (c : Configuration) : Store := .memory c 0 false

/-! ## 1. Loading -/

/-- The configuration that the text of a file holds. -/
def readConfiguration (path text : String) : Except StoreError Configuration :=
  if Text.allBlank text then .ok {}
  else match Configuration.parse text with
    | .ok c => .ok c
    | .error p => .error (.malformed path p)

/-- The configuration that a store holds, with a remark for the log. -/
def load (s : Store) (files : FileSystem) : Except StoreError (Configuration × Option String) :=
  match s with
  | .memory held _ _ => .ok (held, none)
  | .file none => .ok ({}, none)
  | .file (some path) =>
    if files.isThere path then
      match files.readText path with
      | .error e => .error (.unreadable path e)
      | .ok text => (readConfiguration path text).map (·, none)
    else .ok ({}, some ("config file " ++ path ++ " not found, using defaults"))

/-! ## 2. Saving -/

/-- What a save comes to: the store and the files afterwards, and a remark or the reason of failure. -/
structure Saved where
  store : Store
  files : FileSystem
  outcome : Except StoreError (Option String)

/-- The files with the directory of a path in place. -/
def withDirectory (files : FileSystem) (path : String) : FileSystem × Option StoreError :=
  match (Path.parent? path).filter (! ·.isEmpty) with
  | none => (files, none)
  | some directory => match files.makeDirectories directory with
    | (files, none) => (files, none)
    | (files, some e) => (files, some (.noDirectory directory e))

/-- What saving a configuration to a file comes to. -/
def saveFile (files : FileSystem) (path : String) (c : Configuration) :
    FileSystem × Except StoreError (Option String) :=
  match withDirectory files path with
  | (files, some e) => (files, .error e)
  | (files, none) => match files.openPrivate path with
    | .error e => (files, .error (.unwritable path e))
    | .ok f => match f.write c.text.toUTF8 with
      | (files, some e) => (files, .error (.cutShort path e))
      | (files, none) => (files, .ok (some ("config saved to " ++ path)))

/-- What saving a configuration comes to. -/
def save (s : Store) (files : FileSystem) (c : Configuration) : Saved :=
  match s with
  | .memory _ _ true => ⟨s, files, .error .readOnly⟩
  | .memory _ saves false => ⟨.memory c (saves + 1) false, files, .ok none⟩
  | .file none => ⟨s, files, .ok (some "persistence disabled, config not saved")⟩
  | .file (some path) =>
    let (files, outcome) := saveFile files path c
    ⟨s, files, outcome⟩

end Store

end BrokerCli
