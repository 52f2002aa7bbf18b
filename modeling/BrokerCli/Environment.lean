import BrokerCli.Fault
import BrokerCli.Path

/-!
# Where the configuration is

The configuration is a file named on the command line, or the file `configurationName` in a directory
named there, or in the user's directory for configurations. An empty file name means that there is
no file: nothing is then read or kept.
-/

namespace BrokerCli

/-- What the surroundings say about directories. -/
structure Environment where
  home : Option String := none
  configHome : Option String := none
deriving DecidableEq, Repr, Inhabited

/-- There is no directory for configurations. -/
inductive LocationError where
  | noDirectory
deriving DecidableEq, Repr

/-- The fault of a configuration that has no place. -/
def LocationError.fault : LocationError → Fault
  | noDirectory => .raise "resolveConfigPath" 1 "config directory not found"

namespace Environment

/-- The name of the configuration file. -/
def configurationName : String := "ngsi-go-config.json"

/-- The name of the tool's directory among the configurations. -/
def directoryName : String := "fiware"

/-- The user's directory for configurations: the one set for the purpose, if it is an absolute path,
    and otherwise one in the home directory. -/
def configurations (env : Environment) : Option String :=
  match env.configHome.filter Path.isAbsolute with
  | some d => some d
  | none => (env.home.filter (! ·.isEmpty)).map (Path.join · ".config")

/-- The path of the configuration file, given the file and the directory of the command line; `none`
    for no file. -/
def configurationPath (env : Environment) (file directory : Option String) :
    Except LocationError (Option String) :=
  match file with
  | some f => .ok (if f.isEmpty then none else some f)
  | none => match directory with
    | some d => .ok (some (Path.join d configurationName))
    | none => match env.configurations with
      | some d => .ok (some (Path.join (Path.join d directoryName) configurationName))
      | none => .error .noDirectory

end Environment

end BrokerCli
