import BrokerCli.Flag.List
import BrokerCli.Server
import BrokerCli.Settings

/-!
# The memory of hosts

A command that names a host remembers the host, the tenant, the scope and the token for the next
command. Where the command line leaves one of them open, it is filled in, in this order of
precedence:

1. what the command line gives;
2. tenant and scope of the registered server that the host means;
3. what is remembered -- but not across a SWITCH of the host;
4. the value of the flag's declaration.

Afterwards the memory is refreshed as a whole from the flags: what is not given then is forgotten.
-/

namespace BrokerCli.Memory

/-! ## 1. Filling flags -/

/-- The flags with an unset flag for texts filled; an empty text fills nothing. -/
def fill (fs : FlagList) (name value : String) : FlagList :=
  if value.isEmpty then fs
  else match fs.textFlag? name with
    | some (f, _) => if f.isSet then fs else fs.update name (·.withText value)
    | none => fs

/-- Tenant and scope filled from what a registry has of the host of the flags. -/
def fillFromRegistry {ε : Type} (fs : FlagList) (registry : Registry ε) (verbatim : Bool) : FlagList :=
  match fs.textFlag? "host" with
  | none => fs
  | some (_, host, _) =>
    if host.isEmpty then fs
    else match registry host verbatim with
      | .error _ => fs
      | .ok s => fill (fill fs "service" s.tenant) "path" s.scope

/-- Tenant and scope filled from the registered server that the host of the flags means. -/
def fillFromServer (fs : FlagList) (servers : ServerTable) (verbatim : Bool) : FlagList :=
  fillFromRegistry fs servers.lookup verbatim

/-- The remembered values under the names of their flags. -/
def remembered (s : Settings) : List (String × String) :=
  [("host", s.host), ("service", s.tenant), ("path", s.scope), ("oAuthToken", s.token)]

/-- All flags filled from the memory. -/
def fillFromSettings (fs : FlagList) (s : Settings) : FlagList :=
  (remembered s).foldl (fun fs slot => fill fs slot.1 slot.2) fs

@[simp] theorem names_fill (fs : FlagList) (name value : String) :
    (fill fs name value).names = fs.names := by
  unfold fill
  split
  · rfl
  · split
    · split
      · rfl
      · exact FlagList.names_update _ _ fun f => f.name_withText _
    · rfl

@[simp] theorem names_fillFromRegistry {ε : Type} (fs : FlagList) (registry : Registry ε)
    (verbatim : Bool) : (fillFromRegistry fs registry verbatim).names = fs.names := by
  unfold fillFromRegistry
  split
  · rfl
  · split
    · rfl
    · split <;> simp

@[simp] theorem names_fillFromSettings (fs : FlagList) (s : Settings) :
    (fillFromSettings fs s).names = fs.names := by
  simp [fillFromSettings, remembered]

/-! ## 2. Refreshing the memory -/

/-- What the memory keeps of a flag: the text of one that is set, and otherwise nothing. -/
def kept (fs : FlagList) (name : String) : String :=
  match fs.textFlag? name with
  | some (f, value, _) => if f.isSet then value else ""
  | none => ""

/-- The settings with the memory refreshed from the flags. -/
def refresh (fs : FlagList) (s : Settings) : Settings :=
  { s with
    host := kept fs "host"
    tenant := kept fs "service"
    scope := kept fs "path"
    token := kept fs "oAuthToken" }

/-! ## 3. The two together -/

/-- What comes of flags and memory. -/
structure Reconciled where
  flags : FlagList
  settings : Settings
  /-- The memory was refreshed. -/
  refreshed : Bool
  /-- The hosts before and after, if a remembered host was switched. -/
  switched : Option (String × String) := none
deriving DecidableEq

/-- Flags filled from registry and memory, and the memory refreshed. Nothing happens if the memory is
    off, if there is no flag for a host, or if a flag that takes no part in it is not given. -/
def reconcileWith {ε : Type} (registry : Registry ε) (fs : FlagList) (s : Settings) : Reconciled :=
  match if s.usePrevious then fs.textFlag? "host" else none with
  | none => { flags := fs, settings := s, refreshed := false }
  | some (f, host, features) =>
    if features.remembered then
      if f.isSet && host ≠ s.host then
        let fs := fillFromRegistry fs registry features.verbatim
        { flags := fs, settings := refresh fs s, refreshed := true, switched := some (s.host, host) }
      else
        let fs := fillFromSettings
          (fillFromRegistry (fill fs "host" s.host) registry features.verbatim) s
        { flags := fs, settings := refresh fs s, refreshed := true }
    else if f.isSet then
      let fs := fillFromRegistry fs registry features.verbatim
      { flags := fs, settings := refresh fs s, refreshed := true }
    else { flags := fs, settings := s, refreshed := false }

/-- Flags and memory with the servers that are registered. -/
def reconcile (fs : FlagList) (s : Settings) (servers : ServerTable) : Reconciled :=
  reconcileWith servers.lookup fs s

/-- The memory changes values of flags, and no names. -/
@[simp] theorem names_reconcile (fs : FlagList) (s : Settings) (servers : ServerTable) :
    (reconcile fs s servers).flags.names = fs.names := by
  unfold reconcile reconcileWith
  repeat' split
  all_goals simp

end BrokerCli.Memory
