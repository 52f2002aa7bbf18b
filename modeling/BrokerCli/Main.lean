import BrokerCli.Tool.App

/-!
# The program

The outermost layer: it takes a picture of the places that the configuration file is looked for in,
lets the tool run on the picture, shows what is to be shown, and writes the file if it has changed. In the
picture every write goes well; one that does not when the file is written ends the program.
-/

open BrokerCli

namespace BrokerCli.Program

/-- The path of a place. -/
def pathOf (l : Location) : String := "/" ++ "/".intercalate l

/-- The places on the way along names, from a place on. -/
def placesFrom (l : Location) : List String → List Location
  | [] => [l]
  | name :: names =>
    let next := if name = "." then l else if name = ".." then l.dropLast else l ++ [name]
    l :: placesFrom next names

/-- What comes of an action, if it succeeds. -/
def attempt {α : Type} (act : IO α) : IO (Option α) := do
  try
    return some (← act)
  catch _ => return none

/-- The bits that say of a file what its user may do with it, and whether it is a device. -/
def bitsOf (readable writable device : Bool) : Nat :=
  (if device then 0o20000 else 0) + (if readable then 0o400 else 0) + (if writable then 0o200 else 0)

/-- What stands at a place, if anything does. A file is opened to see whether it may be read and written to;
    what is in it is not changed by that. From a device nothing is read. -/
def look (l : Location) : IO (Option Node) := do
  let some path ← attempt (IO.FS.realPath (pathOf l)) | return none
  let some status ← attempt path.metadata | return none
  let writable := (← attempt (IO.FS.Handle.mk path .append)).isSome
  match status.type with
  | .dir => return some .directory
  | .file =>
    let content ← attempt (IO.FS.readBinFile path)
    return some (.file (bitsOf content.isSome writable false) (content.getD .empty))
  | _ => return some (.file (bitsOf true writable true) .empty)

/-- The picture of the places on the way to a path. -/
def picture (current : Location) (path : Option String) : IO FileSystem := do
  let mut files : FileSystem := { current }
  let start := if path.any Path.isAbsolute then [] else current
  for l in placesFrom [] current ++ placesFrom start ((path.map Path.names).getD []) do
    if l ≠ [] then
      if let some node ← look l then files := files.put l node
  return files

/-- Whether a content is another one than stood there before. -/
def isNews (before : Option Node) (content : ByteArray) : Bool :=
  match before with
  | some (.file _ old) => old.toList ≠ content.toList
  | _ => true

/-- Makes what is in the new picture but was not in the old one. -/
def develop (before after : FileSystem) : IO Unit := do
  for (l, node) in after.nodes.reverse do
    match node with
    | .directory => if (before.node? l).isNone then IO.FS.createDirAll (pathOf l)
    | .file _ content =>
      if (before.node? l).isNone then
        IO.FS.writeFile (pathOf l) ""
        IO.setAccessRights (pathOf l) { user := { read := true, write := true } }
      if isNews (before.node? l) content then IO.FS.writeBinFile (pathOf l) content

/-- Shows what was shown, each thing on its stream. -/
def replay (transcript : List Event) : IO Unit := do
  for e in transcript do
    match e with
    | .printed text => IO.print text
    | .complained text => IO.eprint text
    | .logged r => IO.eprint r.line

end BrokerCli.Program

open BrokerCli.Program in
def main (args : List String) : IO UInt32 := do
  let environment : Environment :=
    { home := ← IO.getEnv "HOME", configHome := ← IO.getEnv "XDG_CONFIG_HOME" }
  let current := Path.names (toString (← IO.currentDir))
  let before ← picture current (Tool.configurationPath environment args)
  let (code, after) := Tool.run before environment ("ngsi" :: args)
  replay after.transcript
  develop before after.files
  return code
