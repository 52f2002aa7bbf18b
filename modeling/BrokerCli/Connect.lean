import BrokerCli.Invocation

/-!
# Clients for a command

A command that needs a client has it made before it runs: one for the host of its flags, and one for
its second host, the DESTINATION, if that is given. The flags of the destination are those of the
source with `2` behind their names.

* `Connect.gate` -- whether a command works with a kind of client at all;
* `Connect.request` -- what the flags ask for;
* `Connect.run` -- both clients. On the way the host is remembered: another host than before brings
  the remembered tenant and scope to an end.
-/

namespace BrokerCli

/-- Why a client is not handed to a command. -/
inductive HandOverError where
  /-- There is no client. -/
  | refused (isDestination : Bool) (f : Fault)
  | onlyV2
  | onlyLd
  | notSupported (kind : String)
deriving DecidableEq, Repr

/-- The fault of a client that is not handed over. -/
def HandOverError.fault : HandOverError → Fault
  | refused isDestination f =>
    f.restate "newClient" 2 (f.message ++ if isDestination then " (destination)" else "")
  | onlyV2 => .raise "newClient" 3 "only available on NGSIv2"
  | onlyLd => .raise "newClient" 4 "only available on NGSI-LD"
  | notSupported kind => .raise "newClient" 5 ("not supported by " ++ kind)

/-- Why a command has not the clients that it needs. -/
inductive ConnectError where
  | source (e : HandOverError)
  | destination (e : HandOverError)
deriving DecidableEq, Repr

/-- The fault of a command without its clients. -/
def ConnectError.fault : ConnectError → Fault
  | source e => e.fault.wrap "createNewClient" 1
  | destination e => e.fault.wrap "createNewClient" 2

namespace Connect

/-! ## 1. The gate -/

/-- Whether a list has an entry, whatever the case of its ASCII letters. -/
def lists (kinds : List String) (kind : String) : Bool :=
  kinds.any fun k => Text.asciiLower k = Text.asciiLower kind

/-- Why a command that works with some kinds of servers does not work with a client, if it does not. -/
def gate (serverList : Option (List String)) (c : Client) : Option HandOverError :=
  match serverList with
  | none => none
  | some kinds =>
    if lists kinds c.gateType then none
    else if c.gateType = "brokerld" ∧ lists kinds "brokerv2" then some .onlyV2
    else if c.gateType = "brokerv2" ∧ lists kinds "brokerld" then some .onlyLd
    else some (.notSupported c.server.kind)

/-! ## 2. One client -/

/-- What the flags ask for at a host. -/
def request (fs : FlagList) (host : String) (skipGetToken isDestination : Bool) : ClientRequest :=
  let mark := if isDestination then "2" else ""
  { host
    tenant := fs.textIfSet ("service" ++ mark)
    scope := fs.textIfSet ("path" ++ mark)
    token := fs.textIfSet ("oAuthToken" ++ mark)
    skipGetToken
    isDestination }

/-- What the log says about a new client. -/
def clientNote (c : Client) (host : String) : String :=
  "client " ++ c.url ++ " (" ++ c.ngsiType.name ++ ") for " ++ host

/-- The client for a request, if the command works with it. -/
def client (serverList : Option (List String)) (r : ClientRequest) : Run HandOverError Client := do
  let s ← Effect.session
  match s.factory.make s.servers s.clientOptions r with
  | .error f => throw (.refused r.isDestination f)
  | .ok c =>
    Effect.log .debug (clientNote c r.host)
    match gate serverList c with
    | some e => throw e
    | none => return c

/-! ## 3. Both clients -/

/-- The settings with another host remembered: tenant and scope belong to the host before. -/
def withHost (s : Settings) (host : String) : Settings :=
  { s with host, tenant := "", scope := "" }

/-- Takes a host for the session; an empty one stands for the remembered host. -/
def takeHost (value : String) : Effect Unit := do
  let s ← Effect.session
  let host := if value.isEmpty then s.settings.host else value
  Effect.modifySession fun s => { s with host }
  if s.settings.host ≠ host then
    Effect.log .debug ("remembered host " ++ s.settings.host ++ " -> " ++ host)
    Effect.modifySession fun s => { s with settings := withHost s.settings host, updated := true }

/-- The client for the host of the flags, if the command needs one. -/
def source (i : Invocation) : Run ConnectError Invocation := do
  match i.flags.textFlag? "host" with
  | none => return i
  | some (_, value, features) =>
    takeHost value
    if features.initClient then
      let host := (← Effect.session).host
      let c ← ExceptT.adapt .source
        (client i.serverList (request i.flags host features.skipGetToken false))
      return { i with client := some c }
    else return i

/-- The client for the second host, if there is one. -/
def destination (i : Invocation) : Run ConnectError Invocation := do
  match i.flags.textIfSet "host2" with
  | none => return i
  | some host =>
    Effect.modifySession fun s => { s with destination := host }
    let c ← ExceptT.adapt .destination (client i.serverList (request i.flags host false true))
    return { i with destination := some c }

/-- The clients that the flags ask for. -/
def run (i : Invocation) : Run ConnectError Invocation := do
  destination (← source i)

end Connect

end BrokerCli
