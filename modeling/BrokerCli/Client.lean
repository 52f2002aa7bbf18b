import BrokerCli.Address
import BrokerCli.Server
import BrokerCli.Text.Case

/-!
# Clients

A client is a resolved endpoint: where a command sends its requests and as whom. Nothing is sent
here.

* `ClientRequest` -- what a command line asks for: a host and possibly an identity;
* `Client.resolve` -- the client for a request. The host is a URL, an alias with or without a path
  behind it, or a literal address; what the request does not say about identity the server says;
* `Client.gateType` -- the type by which commands decide whether they can work with a client;
* `ClientFactory` -- a way of making clients. `ClientFactory.registry` is the one that resolves.
-/

namespace BrokerCli

/-- The two interfaces that a broker may speak. -/
inductive NgsiType where
  | v2
  | ld
deriving DecidableEq, Repr, Inhabited

namespace NgsiType

/-- The name of an interface. -/
def name : NgsiType → String
  | v2 => "v2"
  | ld => "ld"

/-- The interface that a server's record names, in any case; if it names none it is the older one. -/
def ofRecord (text : String) : NgsiType :=
  if ["ngsi-ld", "ld"].contains (Text.lower text) then ld else v2

end NgsiType

/-- A resolved endpoint. -/
structure Client where
  url : String
  server : Server
  ngsiType : NgsiType
  tenant : String
  scope : String
  token : String
  skipGetToken : Bool
  insecure : Bool
  /-- In seconds. -/
  timeout : Int64
  /-- Whether it is the second endpoint of a command with two. -/
  isDestination : Bool
deriving DecidableEq, Inhabited

/-- What a command line asks for; what is `none` is left to the server's record. -/
structure ClientRequest where
  host : String
  tenant : Option String := none
  scope : Option String := none
  token : Option String := none
  skipGetToken : Bool := false
  isDestination : Bool := false
deriving DecidableEq, Repr

/-- What all clients of a run have in common. -/
structure ClientOptions where
  insecure : Bool := false
  timeout : Int64 := 60
deriving DecidableEq, Repr

/-- Why a request has no client. -/
inductive ClientError where
  | lookup (e : LookupError)
  | unknownHost (host : String)
deriving DecidableEq, Repr

/-- The fault of a request without a client. -/
def ClientError.fault : ClientError → Fault
  | lookup e => e.fault.wrap "NewClient" 1
  | unknownHost host =>
    .raise "NewClient" 2 (if host.isEmpty then "host not found" else "error host: " ++ host)

namespace Client

/-- The type of a client for the lists of commands: a broker's with its interface, otherwise the kind
    of the server. -/
def gateType (c : Client) : String :=
  if c.server.kind = "broker" then "broker" ++ c.ngsiType.name else c.server.kind

/-- The alias or address of a host: what comes before a path or a query. -/
def aliasOf (host : String) : String := Text.before (fun c => c = '/' || c = '?') host

/-- The URL and the server of a host. -/
def endpoint (servers : ServerTable) (host : String) : Except ClientError (String × Server) :=
  if isHttp host then .ok (host, .broker host "")
  else
    let name := aliasOf host
    if servers.contains name then
      match servers.lookup name false with
      | .ok s => .ok (Text.withoutTrailing '/' s.host, s)
      | .error e => .error (.lookup e)
    else if Address.isLiteral name then
      let url := "http://" ++ name
      .ok (url, .broker url "")
    else .error (.unknownHost name)

/-- The client of a server under a URL, for a request. -/
def ofServer (options : ClientOptions) (r : ClientRequest) (url : String) (s : Server) : Client where
  url
  server := s
  ngsiType := .ofRecord s.ngsiType
  tenant := r.tenant.getD s.tenant
  scope := r.scope.getD s.scope
  token := r.token.getD s.token
  skipGetToken := r.skipGetToken
  insecure := options.insecure
  timeout := options.timeout
  isDestination := r.isDestination

/-- The client of a request. -/
def resolve (servers : ServerTable) (options : ClientOptions) (r : ClientRequest) :
    Except ClientError Client :=
  match endpoint servers r.host with
  | .ok (url, s) => .ok (ofServer options r url s)
  | .error e => .error e

end Client

/-- A way of making clients. -/
structure ClientFactory where
  make : ServerTable → ClientOptions → ClientRequest → Except Fault Client

/-- The factory that resolves requests by the registered servers. -/
def ClientFactory.registry : ClientFactory where
  make servers options r := (Client.resolve servers options r).mapError ClientError.fault

instance : Inhabited ClientFactory := ⟨.registry⟩

end BrokerCli
