import BrokerCli.Client
import BrokerCli.Log
import BrokerCli.Store

/-!
# Sessions

What one run of the tool knows and has decided: the configuration it works on, the options that the
command line fixed for the whole run, and where the configuration is kept.

The settings of a session are LIVE: a run changes them and writes them back at its end if `updated`
says so.
-/

namespace BrokerCli

/-- What one run knows. -/
structure Session where
  settings : Settings := {}
  servers : ServerTable := .empty
  extra : Dictionary Json := .empty
  store : Option Store := none
  factory : ClientFactory := .registry
  /-- The settings have changed and are to be written back. -/
  updated : Bool := false
  host : String := ""
  destination : String := ""
  batch : Bool := false
  margin : Int64 := 180
  timeout : Int64 := 60
  maxCount : Int64 := 100
  insecure : Bool := false
  stderrLevel : LogLevel := .err
  syslogLevel : LogLevel := .off
  cacheFile : Option String := none
deriving Inhabited

namespace Session

/-- The configuration that the session would save. -/
def configuration (s : Session) : Configuration := ⟨s.settings, s.servers, s.extra⟩

/-- The session that works on a configuration. -/
def withConfiguration (s : Session) (c : Configuration) : Session :=
  { s with settings := c.settings, servers := c.servers, extra := c.extra }

/-- What the clients of a session have in common. -/
def clientOptions (s : Session) : ClientOptions := ⟨s.insecure, s.timeout⟩

@[simp] theorem configuration_withConfiguration (s : Session) (c : Configuration) :
    (s.withConfiguration c).configuration = c := rfl

end Session

end BrokerCli
