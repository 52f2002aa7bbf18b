import BrokerCli.Flag.List
import BrokerCli.Execution

/-!
# Setting up a session

Between the tool's own options and the command the session is set up from the options: which
configuration is read, how much of the log is shown, and some limits. Each choice has the same
precedence: the option, then what is remembered, then a default. What an option says about the log
or the cache is remembered in turn.
-/

namespace BrokerCli

/-- Why a session cannot be set up. -/
inductive SetupError where
  /-- The place of the configuration is given twice. -/
  | conflictingPlaces
  | noPlace (e : LocationError)
  | store (e : StoreError)
  | stderrLevel (e : LogLevel.Unknown)
  | syslogLevel (e : LogLevel.Unknown)
deriving DecidableEq, Repr

/-- The fault of a session that cannot be set up. -/
def SetupError.fault : SetupError → Fault
  | conflictingPlaces =>
    .raise "InitCmd" 1 "configDir cannot be specified with config or cache at the same time"
  | noPlace e => e.fault.wrap "InitCmd" 2
  | store e => e.fault.wrap "InitCmd" 2
  | stderrLevel e =>
    (e.fault.restate "initStderrOption" 1 "stderr logLevel error").wrap "InitCmd" 3
  | syslogLevel e =>
    (e.fault.restate "initSyslogOption" 1 "syslog logLevel error").wrap "InitCmd" 4

namespace Setup

/-! ## 1. The configuration -/

/-- Whether the options name both the directory of the configuration and a file. -/
def placesConflict (fs : FlagList) : Bool :=
  fs.isSet "configDir" && (fs.isSet "config" || fs.isSet "cache")

/-- Gives a session without a store the one that the options choose. -/
def chooseStore (fs : FlagList) : Run SetupError Unit := do
  let p ← get
  if p.session.store.isNone then
    match p.environment.configurationPath (fs.textIfSet "config") (fs.textIfSet "configDir") with
    | .error e => throw (.noPlace e)
    | .ok path => Effect.modifySession fun s => { s with store := some (.file path) }

/-- Reads the configuration; a batch run has the settings of batch runs whatever it reads. -/
def loadConfiguration : Run SetupError Unit := do
  ExceptT.adapt .store Session.load
  Effect.modifySession fun s => if s.batch then { s with settings := .batch } else s

/-! ## 2. Log levels -/

/-- The text of a level: given by an option, else remembered, else the default. -/
def levelText (fs : FlagList) (name remembered default : String) : String :=
  (fs.textIfSet name).getD (if remembered.isEmpty then default else remembered)

/-- Sets the level of the error stream, and shows the log accordingly from here on. -/
def setStderrLevel (fs : FlagList) : Run SetupError Unit := do
  let text := levelText fs "stderr" (← Effect.session).settings.stderr "err"
  if fs.isSet "stderr" then
    Effect.modifySession fun s =>
      { s with settings := { s.settings with stderr := text }, updated := true }
  match LogLevel.parse text with
  | .error e => throw (.stderrLevel e)
  | .ok level => modify fun p =>
      { p with session := { p.session with stderrLevel := level }, threshold := level }

/-- Sets the level of the system log, to which nothing is attached. -/
def setSyslogLevel (fs : FlagList) : Run SetupError Unit := do
  let text := levelText fs "syslog" (← Effect.session).settings.syslog "off"
  if fs.isSet "syslog" then
    Effect.modifySession fun s =>
      { s with settings := { s.settings with syslog := text }, updated := true }
  match LogLevel.parse text with
  | .error e => throw (.syslogLevel e)
  | .ok level =>
    Effect.modifySession fun s => { s with syslogLevel := level }
    if level ≠ .off then
      Effect.log .debug ("syslog level " ++ level.name ++ " requested, no syslog sink attached")

/-! ## 3. Limits and cache -/

/-- A number within its limits; one outside counts as the default. -/
def within (least greatest default n : Int64) : Int64 := if least ≤ n ∧ n ≤ greatest then n else default

/-- The session with the limits that the options set. -/
def withLimits (fs : FlagList) (s : Session) : Session :=
  { s with
    margin := if fs.isSet "margin" then within 10 600 180 (fs.number "margin") else s.margin
    timeout := if fs.isSet "timeout" then within 10 600 60 (fs.number "timeout") else s.timeout
    maxCount := if fs.isSet "maxCount" then within 1 3000 100 (fs.number "maxCount") else s.maxCount
    insecure := fs.truth "insecureSkipVerify" }

/-- The session with the cache file that the options name, or else the remembered one. -/
def withCache (fs : FlagList) (s : Session) : Session :=
  let s := match fs.textIfSet "cache" with
    | some file => { s with settings := { s.settings with cacheFile := file }, updated := true }
    | none => s
  { s with cacheFile := if s.settings.cacheFile.isEmpty then none else some s.settings.cacheFile }

/-! ## 4. All of it -/

/-- Sets the session up from the tool's options. -/
def run (version : String) (fs : FlagList) : Run SetupError Unit := do
  if fs.isSet "batch" then
    Effect.modifySession fun s => { s with batch := fs.truth "batch" }
  if placesConflict fs then throw .conflictingPlaces
  chooseStore fs
  loadConfiguration
  setStderrLevel fs
  setSyslogLevel fs
  Effect.modifySession (withLimits fs)
  Effect.log .info version
  Effect.modifySession (withCache fs)

end Setup

end BrokerCli
