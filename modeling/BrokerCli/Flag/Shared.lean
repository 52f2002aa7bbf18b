import BrokerCli.Flag.List

/-!
# Flags that many commands share

Declarations only: the flags that name a host and an identity, the flags for the format of an
answer, the flags that every level of a command line understands, and the flags of the tool itself,
which stand before the command.
-/

namespace BrokerCli

namespace Flag

/-- A flag for texts. -/
def ofText (name usage : String) (aliases : List String) (features : TextFeatures) : Flag :=
  { name, usage, aliases, content := .text "" features }

/-- A flag for truth values, false unless given. -/
def ofTruth (name usage : String) (aliases : List String) : Flag :=
  { name, usage, aliases, content := .truth false }

/-- A hidden flag for numbers. -/
def ofNumber (name usage : String) (value : Int64) : Flag :=
  { name, usage, hidden := true, content := .number value }

/-! ## 1. At every level -/

/-- Asks for the help page. -/
def help : Flag := ofTruth "help" "show help" []

/-- Asks for the version. -/
def version : Flag := ofTruth "version" "print the version" ["v"]

/-! ## 2. Host and identity -/

/-- The host, which may be left out. -/
def host : Flag := ofText "host" "broker or server host \x60VALUE\x60" ["h"] {}

/-- The host that a command cannot do without: it has a client for it, and remembers it. -/
def hostRequired : Flag :=
  { ofText "host" "broker or server host \x60VALUE\x60" ["h"] { initClient := true, remembered := true }
    with required := true }

/-- The tenant. -/
def tenant : Flag := ofText "service" "FIWARE Service \x60VALUE\x60" ["s"] { allowEmpty := true }

/-- The scope. -/
def scope : Flag := ofText "path" "FIWARE ServicePath \x60VALUE\x60" ["p"] { allowEmpty := true }

/-- The token. -/
def oauthToken : Flag :=
  { ofText "oAuthToken" "OAuth token \x60VALUE\x60" [] { allowEmpty := true } with hidden := true }

/-! ## 3. Formats -/

/-- Asks for an answer in JSON. -/
def json : Flag := ofTruth "json" "JSON format" ["j"]

/-- Asks for an answer that is easy to read. -/
def pretty : Flag := ofTruth "pretty" "pretty format" ["P"]

end Flag

/-! ## 4. Before the command -/

/-- The names of the log levels. -/
def logLevelNames : List String := ["off", "err", "info", "debug"]

/-- The flags of the tool itself. -/
def FlagList.globals : FlagList :=
  [.ofText "syslog" "syslog logging \x60LEVEL\x60 (off, err, info, debug)" []
     { choices := some logLevelNames },
   .ofText "stderr" "stderr logging \x60LEVEL\x60 (err, info, debug)" []
     { choices := some logLevelNames },
   .ofText "config" "configuration \x60FILE\x60 name" [] { allowEmpty := true },
   { Flag.ofText "configDir" "configuration \x60DIR\x60 name" [] {} with hidden := true },
   .ofText "cache" "cache \x60FILE\x60 name" [] {},
   .ofNumber "margin" "I/O time out (second)" 180,
   .ofNumber "timeout" "I/O time out (second)" 60,
   .ofNumber "maxCount" "maxCount" 100,
   .ofTruth "batch" "don't use previous args (batch)" ["B"],
   { Flag.ofText "cmdName" "" [] {} with hidden := true },
   .ofTruth "insecureSkipVerify" "TLS/SSL skip certificate verification" []]

end BrokerCli
