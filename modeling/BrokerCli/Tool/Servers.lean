import BrokerCli.Command
import BrokerCli.Flag.Shared

/-!
# The commands on registered servers

* `server list` -- the aliases, or the whole table as JSON;
* `server get` -- one server, as it is registered: references are not followed.
-/

namespace BrokerCli.Tool.Servers

/-- Whether the flags ask for JSON. -/
def wantsJson (fs : FlagList) : Bool := fs.truth "json" || fs.truth "pretty"

/-- A value in the layout that the flags ask for. -/
def jsonText (fs : FlagList) (j : Json) : String :=
  if fs.truth "pretty" then j.pretty else j.compact

/-! ## 1. All servers -/

/-- Shows the registered servers. -/
def list : Action := fun i => do
  let servers := (← Effect.session).servers
  let text := if wantsJson i.flags then jsonText i.flags servers.toJson else " ".intercalate servers.keys
  Effect.print (text ++ "\n")

/-! ## 2. One server -/

/-- What is shown of a server: kind and host, and everything else that is given. -/
def description (s : Server) : String :=
  let optional :=
    [("FIWARE-Service", s.tenant), ("FIWARE-ServicePath", s.scope), ("Context", s.context),
     ("SafeString", s.safeString), ("IdmType", s.idmType), ("IdmHost", s.idmHost),
     ("Token", s.token), ("APIPath", s.apiPath)].filter fun item => !item.2.isEmpty
  "serverType " ++ s.kind ++ "\nserverHost " ++ s.host ++ "\n" ++
    String.join (optional.map fun item => item.1 ++ " " ++ item.2 ++ "\n")

/-- Shows the server of an alias. -/
def get : Action := fun i => do
  let name := i.flags.text "host"
  match (← Effect.session).servers.lookup name true with
  | .error e => throw (e.fault.restate "serverGet" 1 (name ++ " not found"))
  | .ok s =>
    Effect.print (if wantsJson i.flags then jsonText i.flags s.toJson ++ "\n" else description s)

/-! ## 3. The commands -/

/-- The flag for an alias. -/
def aliasFlag : Flag :=
  .ofText "host" "server host alias" ["h"] { remembered := true, verbatim := true }

/-- The commands. -/
def command : Command where
  name := "server"
  category := "MANAGEMENT"
  usage := "manage config for server"
  subcommands :=
    [{ name := "list", usage := "list servers", flags := [.json, .pretty], action := some list },
     { name := "get", usage := "get server", flags := [aliasFlag, .json, .pretty],
       required := ["host"], action := some get }]

end BrokerCli.Tool.Servers
