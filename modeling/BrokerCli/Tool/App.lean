import BrokerCli.App
import BrokerCli.Tool.Remembered
import BrokerCli.Tool.Resolve
import BrokerCli.Tool.Servers

/-!
# The tool

The commands that the tool comes with, and what a run of it begins with.
-/

namespace BrokerCli.Tool

/-- The version of the tool. -/
def version : String := "0.13.0"

/-- The tool with its commands. -/
def app : App where
  name := "ngsi"
  usage := "command-line tool for FIWARE Open APIs"
  version := version
  flags := .globals
  commands := [Resolve.command, Servers.command, Remembered.command]

/-- The path of the configuration file that the arguments behind the program's name choose. -/
def configurationPath (environment : Environment) (args : List String) : Option String :=
  match Globals.read (Globals.flags app) ⟨args, 0⟩ with
  | (fs, .reached _) =>
    match environment.configurationPath (fs.textIfSet "config") (fs.textIfSet "configDir") with
    | .ok path => path
    | .error _ => none
  | _ => none

/-- The tool before it runs, among files and surroundings. -/
def start (files : FileSystem) (environment : Environment) : Execution := { files, environment }

/-- What a run of the tool comes to: the exit code, and the surroundings afterwards. -/
def run (files : FileSystem) (environment : Environment) (argv : List String) : UInt32 × Execution :=
  (App.execute app argv).perform (start files environment)

end BrokerCli.Tool
