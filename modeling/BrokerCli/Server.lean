import BrokerCli.Fault
import BrokerCli.Json.Basic
import BrokerCli.Text.Basic

/-!
# Registered servers

A configuration lists servers under aliases. A server's host is a URL, or the alias of another
server: a REFERENCE.

* `Server` -- one server; `Server.host` and `Server.kind` are its host and kind with their defaults;
* `Registry` -- all that the memory asks of servers: which one an alias means;
* `ServerTable` -- the servers by alias, in the order of the aliases;
* `ServerTable.lookup` -- the server that an alias means. A reference is followed ONCE: the server
  referred to, with the tenant, scope and token of the referring one where it has them.
-/

namespace BrokerCli

/-- A server as it is registered; what is empty is not given. -/
structure Server where
  serverType : String := ""
  serverHost : String := ""
  /-- Where older configurations have the host. -/
  brokerHost : String := ""
  brokerType : String := ""
  ngsiType : String := ""
  apiPath : String := ""
  idmType : String := ""
  idmHost : String := ""
  token : String := ""
  tenant : String := ""
  scope : String := ""
  context : String := ""
  safeString : String := ""
  /-- What the tool does not know, such as credentials. -/
  extra : Dictionary Json := .empty
deriving DecidableEq, Inhabited

/-- Whether a text is the URL of a web server. -/
def isHttp (url : String) : Bool :=
  Text.beginsWith "http://" url || Text.beginsWith "https://" url

namespace Server

/-- A broker at a host. -/
def broker (host ngsiType : String) : Server :=
  { serverType := "broker", serverHost := host, ngsiType }

/-- The host of a server: a URL or the alias of another server. -/
def host (s : Server) : String := if s.serverHost.isEmpty then s.brokerHost else s.serverHost

/-- The kind of a server; one that does not say is a broker. -/
def kind (s : Server) : String := if s.serverType.isEmpty then "broker" else s.serverType

/-- The server that `referrer` refers to, with what the referrer itself says about identity. -/
def referredBy (target referrer : Server) : Server :=
  { target with
    tenant := if referrer.tenant.isEmpty then target.tenant else referrer.tenant
    scope := if referrer.scope.isEmpty then target.scope else referrer.scope
    token := if referrer.token.isEmpty then target.token else referrer.token }

@[simp] theorem host_referredBy (t r : Server) : (t.referredBy r).host = t.host := rfl

@[simp] theorem kind_referredBy (t r : Server) : (t.referredBy r).kind = t.kind := rfl

end Server

/-- What answers which server an alias means, with references followed or verbatim. -/
abbrev Registry (ε : Type) := String → Bool → Except ε Server

/-- The registered servers by alias. -/
abbrev ServerTable := Dictionary Server

/-- Why an alias means no server. -/
inductive LookupError where
  | noAlias
  | unknownAlias (name : String)
  | noHost
  | unknownReference (name : String)
  | notUrl (host : String)
deriving DecidableEq, Repr

namespace LookupError

/-- The fault of a failed lookup. -/
def fault : LookupError → Fault
  | noAlias => .raise "lookupServer" 1 "host not found"
  | unknownAlias name => .raise "lookupServer" 2 (name ++ " not found")
  | noHost => .raise "lookupServer" 3 "host not found"
  | unknownReference name => .raise "lookupServer" 4 (name ++ " not found")
  | notUrl host => .raise "lookupServer" 5 ("url error: " ++ host)

end LookupError

namespace ServerTable

/-- The server that `s`, which is no URL itself, refers to. -/
def follow (t : ServerTable) (s : Server) : Except LookupError Server :=
  if s.host.isEmpty then .error .noHost
  else match t.get? s.host with
    | none => .error (.unknownReference s.host)
    | some target =>
      if isHttp target.host then .ok (target.referredBy s) else .error (.notUrl target.host)

/-- The server that an alias means; with `verbatim` the server as it is registered, reference or not. -/
def lookup (t : ServerTable) (name : String) (verbatim : Bool) : Except LookupError Server :=
  if name.isEmpty then .error .noAlias
  else match t.get? name with
    | none => .error (.unknownAlias name)
    | some s => if verbatim || isHttp s.host then .ok s else t.follow s

end ServerTable

end BrokerCli
