import BrokerCli.Command
import BrokerCli.Flag.Shared

/-!
# The command `resolve`

Shows what a host means: the URL of the broker, its interface, and the tenant and scope under which
it would be asked.
-/

namespace BrokerCli.Tool.Resolve

/-- A labelled line, unless there is nothing to show. -/
def lineIfAny (label value : String) : String :=
  if value.isEmpty then "" else label ++ ": " ++ value ++ "\n"

/-- What is shown of a client. -/
def description (c : Client) : String :=
  "URL: " ++ c.url ++ "\nNGSI: " ++ c.ngsiType.name ++ "\n" ++
    lineIfAny "FIWARE-Service" c.tenant ++ lineIfAny "FIWARE-ServicePath" c.scope

/-- Shows the client of the command line. -/
def describe : Action := fun i => do
  match i.client with
  | some c => Effect.print (description c)
  | none => throw (.raise "resolve" 1 "client not found")

/-- The command. -/
def command : Command where
  name := "resolve"
  category := "CONVENIENCE"
  usage := "resolve a host to its broker endpoint"
  flags := [.hostRequired, .tenant, .scope, .oauthToken]
  serverList := some ["brokerv2", "brokerld"]
  action := some describe

end BrokerCli.Tool.Resolve
