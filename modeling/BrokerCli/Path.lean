import BrokerCli.Text.Basic

/-!
# Path texts

Rules on the TEXT of a path, without a file system:

* `Path.names` -- the names a path goes through; slashes in a row count once;
* `Path.join` -- a path below another, with one slash between them where there is none;
* `Path.parent?` -- the path without its last name. Slashes at the end, and names that stand for the
  place they stand in, are not its last name.
-/

namespace BrokerCli.Path

/-- Whether a path begins at the root. -/
def isAbsolute (path : String) : Bool := Text.beginsWith "/" path

/-- Whether a path ends in a slash, and so can only mean a directory. -/
def endsInSlash (path : String) : Bool := path.toList.getLast? = some '/'

/-- The names that a path goes through. -/
def names (path : String) : List String := (Text.split '/' path).filter (· ≠ "")

/-- The path `name` below the directory `directory`. -/
def join (directory name : String) : String :=
  if isAbsolute name then name
  else if directory.isEmpty || endsInSlash directory then directory ++ name
  else directory ++ "/" ++ name

/-- Whether a piece between slashes is no name of its own. -/
def isVoid (piece : String) : Bool := piece = "" || piece = "."

/-- Pieces without the void ones at their end. -/
def trimVoid (ps : List String) : List String := (ps.reverse.dropWhile isVoid).reverse

/-- The path without its last name, if it has a name. -/
def parent? (path : String) : Option String :=
  match Text.split '/' path with
  | [] => none
  | first :: rest =>
    match trimVoid rest with
    | [] => if first.isEmpty then none else some ""
    | p :: ps =>
      let above := trimVoid (p :: ps).dropLast
      if above.isEmpty && first.isEmpty then some "/" else some ("/".intercalate (first :: above))

end BrokerCli.Path
