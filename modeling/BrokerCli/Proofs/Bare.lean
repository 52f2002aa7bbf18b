import BrokerCli.Proofs.Offer

/-!
# A command line without options

Where a command line gives nothing, all that there is comes from the memory:

* `Flag.filledWith` -- a flag to which nothing is given, filled with what is remembered;
* `Descent.verdict_of_passes` -- where no name is required and no rule is to be met, it depends on the
  single flags whether the checks accept them;
* `Tool.Resolve.fromMemory` -- the flags of `resolve` when all of it comes from the memory. They hold just
  what is remembered (`textFlag?_host`, `textFlag?_slot`), and so the memory that is refreshed from them
  stays the same (`refresh_fromMemory`);
* `Tool.Resolve.verdict_bare` -- with these flags the command is accepted.
-/

namespace BrokerCli

open Grammar

/-! ## 1. Flags to which nothing is given -/

namespace Flag

variable (f : Flag) (value : String)

/-- The flag as the memory fills it, if nothing is given to it: an empty value fills nothing. -/
def filledWith : Flag := if value.isEmpty then f else f.withText value

@[simp] theorem name_filledWith : (f.filledWith value).name = f.name := by
  unfold filledWith
  split
  · rfl
  · exact f.name_withText value

@[simp] theorem required_filledWith : (f.filledWith value).required = f.required := by
  unfold filledWith withText
  split
  · rfl
  · split <;> rfl

/-- An open flag for texts holds the value then, and is given unless the value is empty. -/
theorem filledWith_of_open {f : Flag} {features : TextFeatures} (hc : f.content = .text "" features)
    (hs : f.isSet = false) : (f.filledWith value).content = .text value features ∧
      (f.filledWith value).isSet = !value.isEmpty := by
  unfold filledWith
  split
  · rename_i hv
    rw [hc, hs, hv, String.isEmpty_iff.1 hv]
    exact ⟨rfl, rfl⟩
  · rename_i hv
    simp [withText, hc, setTo, hv]

end Flag

namespace FlagList

variable {f : Flag} {fs : FlagList} {name : String}

/-- Among flags that are not given none is found that is. -/
theorem isSet_of_all_open (h : ∀ f ∈ fs, f.isSet = false) (name : String) : fs.isSet name = false := by
  unfold isSet
  cases hf : fs.get? name with
  | none => rfl
  | some f => exact h f (List.mem_of_find?_eq_some hf)

end FlagList

namespace Memory

variable {f : Flag} {fs : FlagList} {name : String} (value : String)

/-- What is kept of a flag is what is asked for by it, or nothing. -/
theorem kept_eq_getD {features : TextFeatures} (hf : fs.textFlag? name = some (f, value, features)) :
    kept fs name = (fs.textIfSet name).getD "" := by
  rw [FlagList.textIfSet_of_textFlag? hf]
  simp only [kept, hf]
  split <;> rfl

end Memory

/-! ## 2. Flags that pass the checks -/

/-- The flag meets each demand that the checks make on a single flag. -/
structure Flag.Passes (f : Flag) : Prop where
  given : f.required = true → f.isSet = true
  worded : ¬ f.Blank
  free : f.features.choices = none

/-- Where no name is required and no rule is to be met, it depends on the single flags only. -/
theorem Descent.verdict_of_passes {d : Descent} {s : Settings} {servers : ServerTable}
    (hr : d.required = []) (hrule : d.command.rule = none)
    (h : ∀ f ∈ d.filled s servers, f.Passes) :
    d.verdict s servers = .ok { d with flags := d.filled s servers } := by
  have hnothing : d.engages = false := by
    rw [engages, Check.byPosition, hr]
    rfl
  have hplaced : d.placed.2 = [] := by
    rw [placed, hnothing]
    rfl
  have hleft : d.leftOver = d.args := by
    rw [leftOver, hnothing]
    rfl
  have hchosen : Accepted.Chosen (d.filled s servers) := by
    intro f hf text features choices hcontent hchoices
    have hfree := (h f hf).free
    rw [Flag.features, hcontent, hchoices] at hfree
    cases hfree
  have haccepted := (d.verdict_iff s servers hplaced).1.2 ⟨⟨⟨fun name hn => ?_, fun hn => ?_⟩,
    fun f hf => (h f hf).given, fun f hf _ => (h f hf).worded⟩, fun f hf => (h f hf).worded,
    fun r hsome => ?_, hchosen⟩
  · rw [haccepted, hleft]
  · rw [hr] at hn
    cases hn
  · exact absurd hr hn
  · rw [hrule] at hsome
    cases hsome

/-! ## 3. The command with nothing but the memory -/

namespace Tool.Resolve

variable {s : Settings} {servers : ServerTable}

/-- The flags of the command when all of it comes from the memory. -/
def fromMemory (s : Settings) : FlagList :=
  [Flag.hostRequired.filledWith s.host, Flag.tenant.filledWith s.tenant,
   Flag.scope.filledWith s.scope, Flag.oauthToken.filledWith s.token, .help]

/-- What the flags hold of the host. -/
theorem textFlag?_host (h : s.host ≠ "") : ∃ f, (fromMemory s).textFlag? "host" =
    some (f, s.host, { initClient := true, remembered := true }) ∧ f.isSet = true := by
  obtain ⟨hcontent, hset⟩ := Flag.filledWith_of_open (f := .hostRequired) s.host rfl rfl
  refine ⟨_, FlagList.textFlag?_eq_some_iff.2 ⟨FlagList.get?_cons_of_eq ?_, hcontent⟩, ?_⟩
  · rw [Flag.name_filledWith]
    rfl
  · rw [hset, Bool.not_eq_true', Bool.eq_false_iff, Ne, String.isEmpty_iff]
    exact h

/-- What the flags hold in a slot is what was remembered there; it is given unless it is empty. -/
theorem textFlag?_slot (s : Settings) (slot : Slot) : ∃ f features,
    (fromMemory s).textFlag? slot.flag = some (f, slot.ofSettings s, features) ∧
      f.isSet = !(slot.ofSettings s).isEmpty := by
  have hfind {g : Flag} (value : String) {features : TextFeatures} (hc : g.content = .text "" features)
      (hs : g.isSet = false) (hget : (fromMemory s).get? slot.flag = some (g.filledWith value)) :
      ∃ f features, (fromMemory s).textFlag? slot.flag = some (f, value, features) ∧
        f.isSet = !value.isEmpty := by
    obtain ⟨hcontent, hset⟩ := Flag.filledWith_of_open value hc hs
    exact ⟨_, _, FlagList.textFlag?_eq_some_iff.2 ⟨hget, hcontent⟩, hset⟩
  have hother {g : Flag} (value name : String) (fs : FlagList) (h : g.name ≠ name) :
      FlagList.get? (g.filledWith value :: fs) name = FlagList.get? fs name :=
    FlagList.get?_cons_of_ne (by rwa [Flag.name_filledWith])
  have hfirst {g : Flag} (value name : String) (fs : FlagList) (h : g.name = name) :
      FlagList.get? (g.filledWith value :: fs) name = some (g.filledWith value) :=
    FlagList.get?_cons_of_eq (by rwa [Flag.name_filledWith])
  cases slot with
  | tenant =>
    refine hfind (g := .tenant) s.tenant rfl rfl ?_
    rw [fromMemory, hother _ _ _ (by decide)]
    exact hfirst _ _ _ rfl
  | scope =>
    refine hfind (g := .scope) s.scope rfl rfl ?_
    rw [fromMemory, hother _ _ _ (by decide), hother _ _ _ (by decide)]
    exact hfirst _ _ _ rfl
  | token =>
    refine hfind (g := .oauthToken) s.token rfl rfl ?_
    rw [fromMemory, hother _ _ _ (by decide), hother _ _ _ (by decide), hother _ _ _ (by decide)]
    exact hfirst _ _ _ rfl

/-- There is no second host among them. -/
theorem textIfSet_second (s : Settings) : (fromMemory s).textIfSet "host2" = none := by
  have hother {g : Flag} (value : String) (fs : FlagList) (h : g.name ≠ "host2") :
      FlagList.get? (g.filledWith value :: fs) "host2" = fs.get? "host2" :=
    FlagList.get?_cons_of_ne (by rwa [Flag.name_filledWith])
  have hget : (fromMemory s).get? "host2" = none := by
    rw [fromMemory, hother _ _ (by decide), hother _ _ (by decide), hother _ _ (by decide),
      hother _ _ (by decide)]
    rfl
  simp only [FlagList.textIfSet, FlagList.isSet, hget, Option.any_none, Bool.false_eq_true, if_false]

theorem kept_slot (s : Settings) (slot : Slot) :
    Memory.kept (fromMemory s) slot.flag = slot.ofSettings s := by
  obtain ⟨f, features, hf, hset⟩ := textFlag?_slot s slot
  simp only [Memory.kept, hf, hset]
  cases hv : (slot.ofSettings s).isEmpty with
  | false => rfl
  | true => exact (String.isEmpty_iff.1 hv).symm

/-- What is asked for in a slot, or nothing if it is empty. -/
theorem textIfSet_slot (s : Settings) (slot : Slot) :
    ((fromMemory s).textIfSet slot.flag).getD "" = slot.ofSettings s := by
  obtain ⟨f, features, hf, hset⟩ := textFlag?_slot s slot
  rw [FlagList.textIfSet_of_textFlag? hf, hset]
  cases hv : (slot.ofSettings s).isEmpty with
  | false => rfl
  | true => exact (String.isEmpty_iff.1 hv).symm

/-- The memory that is refreshed from flags that it has filled is the same. -/
theorem refresh_fromMemory (h : s.host ≠ "") : Memory.refresh (fromMemory s) s = s := by
  obtain ⟨f, hf, hset⟩ := textFlag?_host h
  have hhost : Memory.kept (fromMemory s) "host" = s.host := Memory.kept_of_textFlag? hf hset
  have htenant : Memory.kept (fromMemory s) "service" = s.tenant := kept_slot s .tenant
  have hscope : Memory.kept (fromMemory s) "path" = s.scope := kept_slot s .scope
  have htoken : Memory.kept (fromMemory s) "oAuthToken" = s.token := kept_slot s .token
  rw [Memory.refresh, hhost, htenant, hscope, htoken]

/-- **Flags to which nothing is given are filled from the memory**, if the registered server of the host
    has no tenant and no scope; and the memory that is refreshed from them is the same. -/
theorem reconcile_bare (hon : s.usePrevious = true) (hhost : s.host ≠ "")
    (hserver : ∀ server, servers.lookup s.host false = .ok server →
      server.tenant = "" ∧ server.scope = "") :
    Memory.reconcile (Descent.flagsOf command) s servers =
      { flags := fromMemory s, settings := s, refreshed := true } := by
  have hasked : Memory.asked .hostRequired "" s = s.host := Memory.value_or_nothing s.host
  have hrecorded : Memory.recorded (Memory.record? servers.lookup s.host false) = fun _ => "" := by
    unfold Memory.record?
    rw [if_neg hhost]
    cases hlookup : servers.lookup s.host false with
    | error e => exact Memory.recorded_none
    | ok server =>
      obtain ⟨htenant, hscope⟩ := hserver server hlookup
      funext name
      simp only [Except.toOption, Memory.recorded, Option.map_some, Option.getD_some, htenant, hscope]
      split <;> rfl
  have htable : Memory.offer (Memory.record? servers.lookup s.host false) true s = Memory.recalled s := by
    funext name
    rw [Memory.offer, hrecorded, if_pos rfl, if_pos rfl]
  have hfilled : FlagList.offered (Memory.recalled s) (Descent.flagsOf command) = fromMemory s := rfl
  have hopen : FlagList.textFlag? (Descent.flagsOf command) "host" =
      some (.hostRequired, "", { initClient := true, remembered := true }) := rfl
  have hstays : Memory.switches .hostRequired "" s = false := rfl
  have hreconciled := Memory.reconcileWith_of_host servers.lookup hon hopen (.inl rfl)
  simp only [hasked, hstays, Bool.not_false, Bool.and_true, Bool.and_false, Bool.false_eq_true, if_false,
    htable, hfilled, refresh_fromMemory hhost] at hreconciled
  exact hreconciled

/-- A slot that is filled from the memory passes the checks, empty or not. -/
theorem passes_slot {f : Flag} (value : String) (hr : f.required = false)
    (hc : f.content = .text "" { allowEmpty := true }) (hs : f.isSet = false) :
    (f.filledWith value).Passes := by
  obtain ⟨hcontent, _⟩ := Flag.filledWith_of_open value hc hs
  refine ⟨fun h => ?_, ?_, ?_⟩
  · rw [Flag.required_filledWith, hr] at h
    cases h
  · rintro ⟨features, hblank, _, hforbidden⟩
    rw [hcontent] at hblank
    cases hblank
    cases hforbidden
  · rw [Flag.features, hcontent]

theorem passes_fromMemory (h : s.host ≠ "") : ∀ f ∈ fromMemory s, f.Passes := by
  obtain ⟨hcontent, hset⟩ := Flag.filledWith_of_open (f := .hostRequired) s.host rfl rfl
  have hhost : (Flag.hostRequired.filledWith s.host).Passes := by
    refine ⟨fun _ => ?_, ?_, ?_⟩
    · rw [hset, Bool.not_eq_true', Bool.eq_false_iff, Ne, String.isEmpty_iff]
      exact h
    · rintro ⟨features, hblank, _⟩
      rw [hcontent] at hblank
      exact h (FlagContent.text.inj hblank).1
    · rw [Flag.features, hcontent]
  have hhelp : Flag.help.Passes := by
    refine ⟨Bool.noConfusion, ?_, rfl⟩
    rintro ⟨features, hblank, _⟩
    cases hblank
  exact List.forall_mem_cons.2 ⟨hhost, List.forall_mem_cons.2 ⟨passes_slot _ rfl rfl rfl,
    List.forall_mem_cons.2 ⟨passes_slot _ rfl rfl rfl, List.forall_mem_cons.2
      ⟨passes_slot _ rfl rfl rfl, List.forall_mem_singleton.2 hhelp⟩⟩⟩⟩

/-- **The checks accept the command without any option**, if the memory has a host. -/
theorem verdict_bare (hon : s.usePrevious = true) (hhost : s.host ≠ "")
    (hserver : ∀ server, servers.lookup s.host false = .ok server →
      server.tenant = "" ∧ server.scope = "") :
    (Descent.start command).verdict s servers =
      .ok { Descent.start command with flags := fromMemory s } := by
  have hfilled : (Descent.start command).filled s servers = fromMemory s := by
    rw [Descent.filled, Descent.placed_of_no_required rfl]
    exact congrArg Memory.Reconciled.flags (reconcile_bare hon hhost hserver)
  rw [Descent.verdict_of_passes rfl rfl (hfilled ▸ passes_fromMemory hhost), hfilled]

end Tool.Resolve

end BrokerCli
