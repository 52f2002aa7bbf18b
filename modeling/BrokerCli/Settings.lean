import BrokerCli.Text.Case

/-!
# Remembered settings

What one run of the tool remembers for the next one: the target (host, tenant, scope, token), the
log levels and the cache file, with the toggle `usePrevious` that turns the memory on and off.

* `Settings.batch` -- the settings of a run that reads and writes no memory;
* `Settings.Item` -- what a user can forget, under the names a user knows it by; `forget` forgets
  one item, and with the host also the tenant and the scope, which mean nothing without it;
* `Settings.items` -- the labelled values in the order in which they are shown.
-/

namespace BrokerCli

/-- What is remembered from run to run. -/
structure Settings where
  usePrevious : Bool := true
  syslog : String := ""
  stderr : String := ""
  logFile : String := ""
  logLevel : String := ""
  cacheFile : String := ""
  host : String := ""
  tenant : String := ""
  scope : String := ""
  token : String := ""
deriving DecidableEq, Repr, Inhabited

namespace Settings

/-- The settings of a batch run: nothing is remembered and nothing read back. -/
def batch : Settings := { usePrevious := false }

/-- Every remembered value forgotten. The toggle and the cache file stay. -/
def cleared (s : Settings) : Settings :=
  { usePrevious := s.usePrevious, cacheFile := s.cacheFile }

/-! ## 1. Forgetting one item -/

/-- What a user can ask to forget. The two log file settings go together. -/
inductive Item where
  | host
  | tenant
  | scope
  | token
  | syslog
  | stderr
  | logFile
deriving DecidableEq, Repr

/-- The item a name stands for, in any case. -/
def Item.ofName? (name : String) : Option Item :=
  match Text.lower name with
  | "host" => some host
  | "service" | "fiware-service" | "tenant" => some tenant
  | "path" | "fiware-servicepath" | "scope" => some scope
  | "token" => some token
  | "syslog" => some syslog
  | "stderr" => some stderr
  | "logfile" | "loglevel" => some logFile
  | _ => none

/-- The settings with the slots of one item empty. -/
def without (s : Settings) : Item → Settings
  | .host => { s with host := "" }
  | .tenant => { s with tenant := "" }
  | .scope => { s with scope := "" }
  | .token => { s with token := "" }
  | .syslog => { s with syslog := "" }
  | .stderr => { s with stderr := "" }
  | .logFile => { s with logFile := "", logLevel := "" }

/-- Without a host there is no tenant and no scope. -/
def tidied (s : Settings) : Settings :=
  if s.host.isEmpty then { s with tenant := "", scope := "" } else s

/-- The settings with one item forgotten. -/
def forget (s : Settings) (i : Item) : Settings := (s.without i).tidied

/-- The settings with the item of that name forgotten, if there is such an item. -/
def forgetNamed? (s : Settings) (name : String) : Option Settings :=
  (Item.ofName? name).map s.forget

/-! ## 2. Showing -/

/-- The labelled values, in the order in which they are shown. -/
def items (s : Settings) : List (String × String) :=
  [("Host", s.host),
   ("FIWARE-Service", s.tenant),
   ("FIWARE-ServicePath", s.scope),
   ("Token", s.token),
   ("Syslog", s.syslog),
   ("Stderr", s.stderr),
   ("LogFile", s.logFile),
   ("LogLevel", s.logLevel)]

/-- The labelled values that are not empty. -/
def givenItems (s : Settings) : List (String × String) :=
  s.items.filter fun item => !item.2.isEmpty

end Settings

end BrokerCli
