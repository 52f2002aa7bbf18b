import BrokerCli.Json.Printer
import BrokerCli.Json.Reader
import BrokerCli.Server
import BrokerCli.Settings

/-!
# The configuration

What the tool keeps between runs: the remembered settings, the registered servers, and whatever else
stands in the configuration and is not the tool's business.

This file holds the type and its JSON form, in both directions:

* WRITING (`Configuration.toJson`): the settings with all their fields, the servers with the fields
  that are not empty, then everything unknown, keys ascending;
* READING (`Configuration.ofDocument?`): absent fields take their defaults, `null` and wrong types are
  refused, and so is a known field that is given twice. Unknown parts of the settings are dropped
  unread; all other unknown parts are kept.
-/

namespace BrokerCli

/-- What is kept between runs. -/
structure Configuration where
  settings : Settings := {}
  servers : ServerTable := .empty
  /-- What the tool does not know. -/
  extra : Dictionary Json := .empty
deriving DecidableEq, Inhabited

/-! ## 1. Fields of an object -/

namespace Document

/-- The members of an object under their keys, if every key is a text. -/
def named? : List (Option String × Document) → Option (List (String × Document))
  | [] => some []
  | (some key, d) :: ms => (named? ms).map ((key, d) :: ·)
  | (none, _) :: _ => none

/-- The one document under any of the keys, or none; more than one is refused. -/
def single? (keys : List String) (ms : List (String × Document)) : Option (Option Document) :=
  match ms.filter fun m => keys.contains m.1 with
  | [] => some none
  | [(_, d)] => some (some d)
  | _ => none

/-- The text under a key, empty if there is none. -/
def textField? (key : String) (ms : List (String × Document)) : Option String :=
  match single? [key] ms with
  | some none => some ""
  | some (some (.string s)) => s
  | _ => none

/-- The truth value under a key, or the default. -/
def boolField? (key : String) (default : Bool) (ms : List (String × Document)) : Option Bool :=
  match single? [key] ms with
  | some none => some default
  | some (some (.bool b)) => some b
  | _ => none

/-- Members with their values read, if every value can be. -/
def readValues? {α : Type} (read : Document → Option α) :
    List (String × Document) → Option (List (String × α))
  | [] => some []
  | (key, d) :: ms => match read d, readValues? read ms with
    | some a, some as => some ((key, a) :: as)
    | _, _ => none

/-- The members under other keys, as values. -/
def others? (known : List String) (depth : Nat) (ms : List (String × Document)) :
    Option (Dictionary Json) :=
  (readValues? (toJson? depth) (ms.filter fun m => !known.contains m.1)).map Dictionary.ofList

end Document

/-! ## 2. Settings -/

namespace Settings

/-- The keys of the settings, in the order in which they are written. -/
def keys : List String :=
  ["usePreviousArgs", "syslog", "stderr", "logfile", "loglevel", "cachefile", "host", "tenant",
   "scope", "token"]

/-- The settings as a value. -/
def toJson (s : Settings) : Json :=
  .object
    [("usePreviousArgs", .bool s.usePrevious),
     ("syslog", .string s.syslog),
     ("stderr", .string s.stderr),
     ("logfile", .string s.logFile),
     ("loglevel", .string s.logLevel),
     ("cachefile", .string s.cacheFile),
     ("host", .string s.host),
     ("tenant", .string s.tenant),
     ("scope", .string s.scope),
     ("token", .string s.token)]

open Document in
/-- The settings of named fields. -/
def ofFields? (ms : List (String × Document)) : Option Settings := do
  return {
    usePrevious := ← boolField? "usePreviousArgs" true ms
    syslog := ← textField? "syslog" ms
    stderr := ← textField? "stderr" ms
    logFile := ← textField? "logfile" ms
    logLevel := ← textField? "loglevel" ms
    cacheFile := ← textField? "cachefile" ms
    host := ← textField? "host" ms
    tenant := ← textField? "tenant" ms
    scope := ← textField? "scope" ms
    token := ← textField? "token" ms }

/-- The settings of a document: an object of fields, or an array of the first fields in order. -/
def ofDocument? : Document → Option Settings
  | .object ms => (Document.named? ms).bind ofFields?
  | .array items => if items.length ≤ keys.length then ofFields? (keys.zip items) else none
  | _ => none

end Settings

/-! ## 3. Servers -/

namespace Server

/-- The known fields of a server under their keys, in the order in which they are written. -/
def fields (s : Server) : List (String × String) :=
  [("serverType", s.serverType),
   ("serverHost", s.serverHost),
   ("brokerHost", s.brokerHost),
   ("brokerType", s.brokerType),
   ("ngsiType", s.ngsiType),
   ("apiPath", s.apiPath),
   ("idmType", s.idmType),
   ("idmHost", s.idmHost),
   ("token", s.token),
   ("tenant", s.tenant),
   ("scope", s.scope),
   ("context", s.context),
   ("safeString", s.safeString)]

/-- The keys of the known fields. -/
def keys : List String := (fields {}).map Prod.fst

/-- A server as a value: the known fields that are not empty, then the rest. -/
def toJson (s : Server) : Json :=
  .object (((s.fields.filter fun f => !f.2.isEmpty).map fun f => (f.1, .string f.2)) ++ s.extra.entries)

open Document in
/-- The server of named fields; its unknown parts may open `depth` containers. -/
def ofFields? (depth : Nat) (ms : List (String × Document)) : Option Server := do
  return {
    serverType := ← textField? "serverType" ms
    serverHost := ← textField? "serverHost" ms
    brokerHost := ← textField? "brokerHost" ms
    brokerType := ← textField? "brokerType" ms
    ngsiType := ← textField? "ngsiType" ms
    apiPath := ← textField? "apiPath" ms
    idmType := ← textField? "idmType" ms
    idmHost := ← textField? "idmHost" ms
    token := ← textField? "token" ms
    tenant := ← textField? "tenant" ms
    scope := ← textField? "scope" ms
    context := ← textField? "context" ms
    safeString := ← textField? "safeString" ms
    extra := ← others? keys depth ms }

/-- The server of a document, which is an object of fields. -/
def ofDocument? (depth : Nat) : Document → Option Server
  | .object ms => (Document.named? ms).bind (ofFields? depth)
  | _ => none

end Server

namespace ServerTable

/-- The servers as a value. -/
def toJson (t : ServerTable) : Json := .object (t.entries.map fun e => (e.1, e.2.toJson))

/-- The servers of a document, an object of servers; of two under one alias the later one counts. -/
def ofDocument? (depth : Nat) : Document → Option ServerTable
  | .object ms =>
    (Document.named? ms).bind fun ms =>
      (Document.readValues? (Server.ofDocument? depth) ms).map Dictionary.ofList
  | _ => none

end ServerTable

/-! ## 4. The whole -/

namespace Configuration

/-- How many containers of a text may stand inside one another. -/
def depthLimit : Nat := 127

/-- The keys under which the servers may stand; the first one is written. -/
def serverKeys : List String := ["brokers", "servers"]

/-- The configuration as a value: settings, servers, then the rest. -/
def toJson (c : Configuration) : Json :=
  .object (("settings", c.settings.toJson) :: ("brokers", c.servers.toJson) :: c.extra.entries)

/-- The configuration of named fields; what is inside may open `depth` containers. -/
def ofFields? (depth : Nat) (ms : List (String × Document)) : Option Configuration := do
  return {
    settings := ← match ← Document.single? ["settings"] ms with
      | some d => Settings.ofDocument? d
      | none => some {}
    servers := ← match ← Document.single? serverKeys ms with
      | some d => ServerTable.ofDocument? (depth - 2) d
      | none => some .empty
    extra := ← Document.others? ("settings" :: serverKeys) depth ms }

/-- The configuration of a document, which is an object of fields. -/
def ofDocument? : Document → Option Configuration
  | .object ms => (Document.named? ms).bind (ofFields? (depthLimit - 1))
  | _ => none

/-- The configuration as it is kept in a file. -/
def text (c : Configuration) : String := c.toJson.pretty ++ "\n"

/-- The configuration that a text holds, or the place up to which the text was understood. -/
def parse (text : String) : Except Document.Position Configuration :=
  match Document.parse text with
  | .error p => .error p
  | .ok d => match ofDocument? d with
    | some c => .ok c
    | none => .error (.after text.toList)

end Configuration

end BrokerCli
