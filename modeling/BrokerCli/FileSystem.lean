import BrokerCli.Path

/-!
# A file system

The part of a file system that a configuration file meets: directories, files with permission bits,
and the errors of looking up, reading, writing and making directories. There are no links, and every
directory is open to its user.

* `FileSystem.node?` -- what stands at a location; `put` changes ONE location (`node?_put`);
* `walk` -- from names to a location. Every place that is walked through must be a directory;
* `readText`, `openPrivate`, `makeDirectories` -- what the configuration file needs. A file that is
  made by opening it has the mode `0600`; one that is there keeps the mode it had, and loses what it
  held;
* `OpenFile.write` -- a write to the open file, which may be cut short by a `Mishap`.
-/

namespace BrokerCli

/-- A place in the tree: the names on the way from the root. -/
abbrev Location := List String

/-- What stands at a place. -/
inductive Node where
  | file (mode : Nat) (content : ByteArray)
  | directory

/-- Why a file operation fails. -/
inductive FileError where
  | noEntry
  | alreadyThere
  | notDirectory
  | isDirectory
  | nameTooLong
  | denied
  | inputOutput
  | noSpace
  | overQuota
  | notUnicode
  | nulInName
deriving DecidableEq, Repr

/-- The system's message. -/
def FileError.text : FileError → String
  | noEntry => "No such file or directory (os error 2)"
  | alreadyThere => "File exists (os error 17)"
  | notDirectory => "Not a directory (os error 20)"
  | isDirectory => "Is a directory (os error 21)"
  | nameTooLong => "File name too long (os error 36)"
  | denied => "Permission denied (os error 13)"
  | inputOutput => "Input/output error (os error 5)"
  | noSpace => "No space left on device (os error 28)"
  | overQuota => "Disk quota exceeded (os error 122)"
  | notUnicode => "stream did not contain valid UTF-8"
  | nulInName => "file name contained an unexpected NUL byte"

/-- How a write goes wrong: only so many bytes are written. -/
structure Mishap where
  written : Nat
  error : FileError
deriving DecidableEq, Repr

/-- Directories and files, as one user finds them, to whom they belong. The root is always a directory. -/
structure FileSystem where
  nodes : List (Location × Node) := []
  /-- Where relative paths begin. -/
  current : Location := []
  /-- Permission bits do not count for the user. -/
  privileged : Bool := false
  /-- How the writes to come go, one after the other. One without a mishap goes well, and so do all that
      come behind these. -/
  mishaps : List (Option Mishap) := []
deriving Inhabited

/-! ## 1. Files -/

namespace Node

/-- A device keeps nothing of what is written to it; what is read from it stays the same. -/
def isDevice (mode : Nat) : Bool := mode.testBit 13

/-- The owner of the file may read it. -/
def isReadable (mode : Nat) : Bool := mode.testBit 8

/-- The owner of the file may write to it. -/
def isWritable (mode : Nat) : Bool := mode.testBit 7

/-- The node after a content was written over what it held. -/
def rewritten (content : ByteArray) : Node → Node
  | file mode old => file mode (if isDevice mode then old else content)
  | directory => directory

end Node

/-- What is written of a content. -/
def Mishap.written? : Option Mishap → ByteArray → ByteArray
  | none, content => content
  | some m, content => content.extract 0 m.written

namespace FileSystem

/-- Whether the user may read a file. -/
def mayRead (fs : FileSystem) (mode : Nat) : Bool := fs.privileged || Node.isReadable mode

/-- Whether the user may write to a file. -/
def mayWrite (fs : FileSystem) (mode : Nat) : Bool := fs.privileged || Node.isWritable mode

/-! ## 2. One place -/

/-- What stands at a place. -/
def node? (fs : FileSystem) (l : Location) : Option Node :=
  if l = [] then some .directory else (fs.nodes.find? (·.1 = l)).map Prod.snd

/-- The file system with a node at a place. -/
def put (fs : FileSystem) (l : Location) (n : Node) : FileSystem :=
  { fs with nodes := (l, n) :: fs.nodes.filter (·.1 ≠ l) }

@[simp] theorem current_put (fs : FileSystem) (l : Location) (n : Node) :
    (fs.put l n).current = fs.current := rfl

/-- A change is seen at its own place, and at no other. -/
theorem node?_put {fs : FileSystem} {l k : Location} {n : Node} (hl : l ≠ []) :
    (fs.put l n).node? k = if k = l then some n else fs.node? k := by
  unfold node? put
  by_cases hk : k = l
  · subst hk
    simp [hl]
  · have hlk : l ≠ k := fun h => hk h.symm
    have : (fun e : Location × Node => !decide (e.1 = l) && decide (e.1 = k)) =
        fun e => decide (e.1 = k) := by
      funext e
      by_cases he : e.1 = k <;> simp [he, hk]
    simp [hk, hlk, this]

/-! ## 3. From a path to a place -/

/-- The longest name there can be, in bytes. -/
def nameLimit : Nat := 255

/-- The place below a directory that a name leads to. -/
def enter (fs : FileSystem) (l : Location) (name : String) : Except FileError Location :=
  match fs.node? l with
  | none => .error .noEntry
  | some (.file ..) => .error .notDirectory
  | some .directory =>
    if name = "." then .ok l
    else if name = ".." then .ok l.dropLast
    else if nameLimit < name.utf8ByteSize then .error .nameTooLong
    else .ok (l ++ [name])

/-- The place that names lead to from a place. Nothing need stand there. -/
def walk (fs : FileSystem) : Location → List String → Except FileError Location
  | l, [] => .ok l
  | l, name :: names => match fs.enter l name with
    | .ok l => fs.walk l names
    | .error e => .error e

/-- The longest path there can be, in bytes. -/
def pathLimit : Nat := 4096

/-- The place where the names of a path begin, if the text can be a path at all. -/
def origin (fs : FileSystem) (path : String) : Except FileError Location :=
  if path.toList.contains '\x00' then .error .nulInName
  else if path.isEmpty then .error .noEntry
  else if pathLimit ≤ path.utf8ByteSize then .error .nameTooLong
  else .ok (if Path.isAbsolute path then [] else fs.current)

/-- The place that a path means. A slash at its end asks for a directory. -/
def locate (fs : FileSystem) (path : String) : Except FileError Location :=
  match fs.origin path with
  | .error e => .error e
  | .ok l => fs.walk l (Path.names path ++ if Path.endsInSlash path then ["."] else [])

/-- The node that a path means. -/
def nodeAt (fs : FileSystem) (path : String) : Except FileError Node :=
  match fs.locate path with
  | .error e => .error e
  | .ok l => match fs.node? l with
    | none => .error .noEntry
    | some n => .ok n

/-- Whether there is something at a path. -/
def isThere (fs : FileSystem) (path : String) : Bool := (fs.nodeAt path).isOk

/-! ## 4. Reading and writing -/

/-- The text of the file at a path. -/
def readText (fs : FileSystem) (path : String) : Except FileError String :=
  match fs.nodeAt path with
  | .error e => .error e
  | .ok .directory => .error .isDirectory
  | .ok (.file mode content) =>
    if fs.mayRead mode then
      match String.fromUTF8? content with
      | some s => .ok s
      | none => .error .notUnicode
    else .error .denied

/-- The permission bits of a file that is made to hold what only its owner may read. -/
def privateMode : Nat := 0o600

/-- What opening it makes of a node that is to be written to. A file that is made is private, and one that
    is there keeps its mode; it holds nothing then. -/
def emptied (fs : FileSystem) : Option Node → Except FileError Node
  | none => .ok (.file privateMode .empty)
  | some (.file mode content) =>
    if fs.mayWrite mode then .ok (Node.rewritten .empty (.file mode content)) else .error .denied
  | some .directory => .error .isDirectory

/-- The place of the last name of a path that is to be made, and the way to it. -/
def locateNew (fs : FileSystem) (start : Location) (names : List String) (name : String) :
    Except FileError Location :=
  match fs.walk start names with
  | .error e => .error e
  | .ok l => fs.enter l name

/-- The name under which a path asks for something; behind a slash that is the place itself. -/
def lastName? (path : String) : Option String :=
  (Path.names path).getLast?.map fun name => if Path.endsInSlash path then "." else name

/-- A file that is open to be written to. -/
structure OpenFile where
  files : FileSystem
  place : Location
  node : Node

/-- The file at a path, opened to be written to. -/
def openPrivate (fs : FileSystem) (path : String) : Except FileError OpenFile :=
  match fs.origin path with
  | .error e => .error e
  | .ok start => match lastName? path with
    | none => .error .isDirectory
    | some name => match fs.locateNew start (Path.names path).dropLast name with
      | .error e => .error e
      | .ok l =>
        if name = "." ∨ name = ".." then .error .isDirectory
        else match fs.emptied (fs.node? l) with
          | .error e => .error e
          | .ok n => .ok ⟨fs.put l n, l, n⟩

/-- The file system after a content was written to the open file, and the error if not all of it was. -/
def OpenFile.write (f : OpenFile) (content : ByteArray) : FileSystem × Option FileError :=
  let mishap := f.files.mishaps.head?.join
  let files := { f.files with mishaps := f.files.mishaps.tail }
  (files.put f.place (f.node.rewritten (Mishap.written? mishap content)), mishap.map Mishap.error)

/-! ## 5. Directories -/

/-- The file system with a directory made at the end of names. -/
def makeDirectory (fs : FileSystem) (start : Location) (names : List String) :
    Except FileError FileSystem :=
  match names.getLast? with
  | none => .error .alreadyThere
  | some name => match fs.locateNew start names.dropLast name with
    | .error e => .error e
    | .ok l =>
      if name = "." ∨ name = ".." ∨ (fs.node? l).isSome then .error .alreadyThere
      else .ok (fs.put l .directory)

/-- Whether names lead to a directory. -/
def isDirectory (fs : FileSystem) (start : Location) (names : List String) : Bool :=
  match fs.walk start names with
  | .error _ => false
  | .ok l => match fs.node? l with
    | some .directory => true
    | _ => false

/-- What an attempt to make a directory comes to: it is enough that the directory is there. -/
def settle (fs : FileSystem) (start : Location) (names : List String) :
    Except FileError FileSystem → FileSystem × Option FileError
  | .ok made => (made, none)
  | .error e => if fs.isDirectory start names then (fs, none) else (fs, some e)

/-- A directory and whatever is missing above it; the names are given last first. If the attempt
    fails, the directories that could be made remain. -/
def makeAll (fs : FileSystem) (start : Location) : List String → FileSystem × Option FileError
  | [] => (fs, none)
  | name :: above =>
    let names := (name :: above).reverse
    match fs.makeDirectory start names with
    | .error .noEntry => match makeAll fs start above with
      | (fs, some e) => (fs, some e)
      | (fs, none) => fs.settle start names (fs.makeDirectory start names)
    | attempt => fs.settle start names attempt

/-- The file system with the directory of a path and everything above it, and the error if that
    directory could not be made. -/
def makeDirectories (fs : FileSystem) (path : String) : FileSystem × Option FileError :=
  match fs.origin path with
  | .error e => (fs, some e)
  | .ok start => fs.makeAll start (Path.names path).reverse

end FileSystem

end BrokerCli
