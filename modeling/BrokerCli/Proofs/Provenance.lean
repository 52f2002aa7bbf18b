import BrokerCli.Proofs.Bundled
import BrokerCli.Proofs.Paths

/-!
# Where the identity of a client comes from

The tool is run again and again over one place, each time with a fresh session. What it remembers of a
run it may use in a later one -- but never with another host:

* `Place.Works` -- what is asked of the place. Memory works, and so does a file (`works_inMemory`,
  `works_file`);
* `Turn` -- one run of the tool; `Turn.leaves` is the place after it;
* `Runs` -- the runs so far, and the place that they have led to;
* `Remembers` -- a value that an earlier run was given on its command line, for the same host, with no
  run for another host having changed the place since;
* `Sound` -- the invariant: whatever is remembered with a host is empty, stands in the server that the
  host means, or is remembered in this sense. Every run preserves it (`Keeps.after`), so that it holds
  after any runs (`keeps_of_runs`);
* `Turn.Builds` -- the run makes a client for a host, whether a command is then given it or not;
* `origin_of_client` -- where each slot of a client comes from.
-/

namespace BrokerCli

open Grammar

/-! ## 1. Places that work -/

namespace Place

variable {b : Place} {servers : ServerTable} {extra : Dictionary Json}

/-- A place that works: whatever settings were saved there, others can be saved, and are then found. -/
def Works (b : Place) (servers : ServerTable) (extra : Dictionary Json) : Prop :=
  ∀ (before : List Settings) (s : Settings),
    let b' := before.foldl (fun b s => b.save ⟨s, servers, extra⟩) b
    b'.takes ⟨s, servers, extra⟩ = true ∧
      (b'.save ⟨s, servers, extra⟩).held? = some ⟨s, servers, extra⟩

theorem Works.takes (h : b.Works servers extra) (s : Settings) :
    b.takes ⟨s, servers, extra⟩ = true := (h [] s).1

theorem Works.held (h : b.Works servers extra) (s : Settings) :
    (b.save ⟨s, servers, extra⟩).held? = some ⟨s, servers, extra⟩ := (h [] s).2

theorem Works.save (h : b.Works servers extra) (s : Settings) :
    (b.save ⟨s, servers, extra⟩).Works servers extra := fun before => h (s :: before)

/-- A store in memory works. -/
theorem works_inMemory (c : Configuration) (saves : Nat) (files : FileSystem) (servers : ServerTable)
    (extra : Dictionary Json) : Works ⟨.memory c saves false, files⟩ servers extra := by
  intro before s
  induction before generalizing c saves with
  | nil => exact ⟨rfl, rfl⟩
  | cons s' before ih => exact ih ⟨s', servers, extra⟩ (saves + 1)

/-- A file works in which one configuration could be saved, with servers and unknown parts that were read
    from a text, and which may be read then, if no write to come goes wrong. -/
theorem works_file {path text : String} {files : FileSystem} {s : Settings}
    (hc : Configuration.parse text = .ok ⟨s, servers, extra⟩)
    (hn : (Configuration.mk s servers extra).toJson.Integral)
    (ht : Place.takes ⟨.file (some path), files⟩ ⟨s, servers, extra⟩ = true)
    (hl : (Place.save ⟨.file (some path), files⟩ ⟨s, servers, extra⟩).files.isLegible path = true)
    (hm : ∀ m ∈ files.mishaps, m = none) :
    Works ⟨.file (some path), files⟩ servers extra := by
  have hfits := Configuration.fits_of_parse hc
  intro before s'
  rw [show (Place.save ⟨.file (some path), files⟩ ⟨s, servers, extra⟩).files.isLegible path =
    files.isLegibleWith (files.bitsAt (files.meant path)) from Store.isLegible_of_takes ht] at hl
  induction before generalizing files with
  | nil =>
    have htakes := Store.save_congr ht ⟨s', servers, extra⟩
    have hload := Store.load_of_save (c := ⟨s', servers, extra⟩) ⟨hfits.servers, hfits.extra⟩
      (Configuration.integral_congr rfl rfl hn) htakes ((Store.isLegible_of_takes htakes).trans hl)
    exact ⟨htakes, held?_eq_some_iff.2 ⟨none, hload⟩⟩
  | cons first before ih =>
    obtain ⟨hcurrent, hprivileged, hmishaps⟩ := Store.rest_saveFile files path ⟨first, servers, extra⟩
    have hnext : files.mishaps.tail.head?.join = none := by
      cases hhead : files.mishaps.tail.head? with
      | none => rfl
      | some m => exact hm m (List.mem_of_mem_tail (List.mem_of_head? hhead))
    rw [List.foldl_cons]
    refine ih (Store.save_again (Store.save_congr ht ⟨first, servers, extra⟩) hnext _) ?_
      fun m hmem => hm m (hmishaps hmem)
    show (Store.saveFile files path _).1.isLegibleWith ((Store.saveFile files path _).1.bitsAt
      ((Store.saveFile files path _).1.meant path)) = true
    rw [FileSystem.meant_congr hcurrent, Store.bitsAt_saveFile]
    unfold FileSystem.isLegibleWith FileSystem.mayRead at hl ⊢
    rw [hprivileged]
    exact hl

end Place

namespace Tool

/-! ## 2. Runs one after the other -/

/-- One run of the tool: a command line, and what is around it. -/
structure Turn where
  argv : List String
  /-- Its session and files play no part. -/
  around : Execution := {}

/-- What is known of a run that is over. -/
structure Past where
  argv : List String
  /-- The host that the run was for, if it was for one. -/
  host : String
  found : Place
  left : Place

/-- The run has changed the place. -/
def Past.Persisted (p : Past) : Prop := p.left ≠ p.found

namespace Turn

/-- The run begins with a fresh session. -/
def start (t : Turn) (b : Place) : Execution :=
  { t.around with session := { store := some b.store }, files := b.files }

/-- What the run comes to. -/
def finish (t : Turn) (b : Place) : Execution := ((App.run app t.argv).perform (t.start b)).2

/-- The place after the run. -/
def leaves (t : Turn) (b : Place) : Place :=
  ⟨(t.finish b).session.store.getD b.store, (t.finish b).files⟩

/-- The run when it is over. -/
def past (t : Turn) (b : Place) : Past := ⟨t.argv, (t.finish b).session.host, b, t.leaves b⟩

end Turn

/-- The runs over a place so far, and the place that they have led to. -/
inductive Runs (b : Place) : List Past → Place → Prop where
  | start : Runs b [] b
  | turn {ps : List Past} {b' : Place} (t : Turn) (h : Runs b ps b') :
      Runs b (ps ++ [t.past b']) (t.leaves b')

/-- What a command line itself gives to a slot. -/
def given (argv : List String) (slot : Slot) : Option String :=
  (CommandLine.line? app argv).bind fun line => line.descent.flags.textIfSet slot.flag

/-- A value that the command line of an earlier run gave, for the same host; and since then no run for
    another host has changed the place. -/
structure Remembers (ps : List Past) (host : String) (slot : Slot) (v : String) : Prop where
  run : ∃ before past since, ps = before ++ past :: since ∧ past.host = host ∧
    given past.argv slot = some v ∧
    ∀ other ∈ since, other.Persisted → other.host = host ∨ other.host = ""

variable {ps : List Past} {host : String} {slot : Slot} {v : String} {past : Past}

theorem Remembers.snoc (h : Remembers ps host slot v)
    (hp : past.Persisted → past.host = host ∨ past.host = "") :
    Remembers (ps ++ [past]) host slot v := by
  obtain ⟨before, first, since, rfl, hhost, hgiven, hsince⟩ := h.run
  refine ⟨before, first, since ++ [past], by simp, hhost, hgiven, fun other ho => ?_⟩
  rcases List.mem_append.1 ho with ho | ho
  · exact hsince other ho
  · rw [List.mem_singleton.1 ho]
    exact hp

theorem remembers_last (ps : List Past) (hhost : past.host = host)
    (hgiven : given past.argv slot = some v) : Remembers (ps ++ [past]) host slot v :=
  ⟨ps, past, [], rfl, hhost, hgiven, fun _ ho => absurd ho List.not_mem_nil⟩

/-! ## 3. The invariant -/

/-- What may be remembered in a slot with a host. -/
inductive Stored (servers : ServerTable) (ps : List Past) (host : String) (slot : Slot) :
    String → Prop where
  | empty : Stored servers ps host slot ""
  | registered {server : Server} (h : servers.lookup host false = .ok server) :
      Stored servers ps host slot (slot.ofServer server)
  | remembered {v : String} (h : Remembers ps host slot v) : Stored servers ps host slot v

/-- **The invariant of the memory**: each slot holds what may be remembered with the host. Without a
    host nothing is said; what is left in a slot then is never used. -/
def Sound (servers : ServerTable) (ps : List Past) (s : Settings) : Prop :=
  s.host ≠ "" → ∀ slot : Slot, Stored servers ps s.host slot (slot.ofSettings s)

variable {servers : ServerTable} {s t : Settings}

theorem sound_default (servers : ServerTable) : Sound servers [] {} := fun h => absurd rfl h

theorem Stored.snoc (h : Stored servers ps host slot v)
    (hp : past.Persisted → past.host = host ∨ past.host = "") :
    Stored servers (ps ++ [past]) host slot v := by
  cases h with
  | empty => exact .empty
  | registered h => exact .registered h
  | remembered h => exact .remembered (h.snoc hp)

/-- A run that changes nothing at the place, or is for no host, brings nothing to an end. -/
theorem Sound.snoc (h : Sound servers ps s) (hp : past.Persisted → past.host = "") :
    Sound servers (ps ++ [past]) s :=
  fun hs slot => (h hs slot).snoc fun hpast => .inr (hp hpast)

/-- What is forgotten does no harm. -/
theorem Sound.forgets (h : Sound servers ps s) (hf : s.Forgets t) : Sound servers ps t := by
  intro ht slot
  have hhost : t.host = s.host := hf.host.resolve_left ht
  rcases hf.slots slot with hslot | hslot
  · rw [hslot]
    exact .empty
  · rw [hhost, hslot]
    exact h (hhost ▸ ht) slot

/-! ## 4. One accepted line -/

variable {d checked : Descent} {features : TextFeatures}

/-- **Whatever a slot of an accepted line is given**, the command line gives it, or it may be remembered
    with the host of the line. -/
theorem stored_of_hosted (hh : Hosted d checked host features) (hs : Sound servers ps s)
    (hflags : checked.flags = d.filled s servers)
    (hv : checked.flags.textIfSet slot.flag = some v) :
    d.flags.textIfSet slot.flag = some v ∨ Stored servers ps host slot v := by
  rcases hh.slots with ⟨hverbatim, hplaced⟩ | hnone
  · rw [hflags, Descent.filled, hplaced] at hv
    cases hon : s.usePrevious with
    | false =>
      rw [Memory.reconcile_of_off hon] at hv
      exact .inl hv
    | true =>
      obtain ⟨f, value, hf⟩ := hh.asked
      obtain ⟨g, hg, hset⟩ := hh.found
      have hhost := FlagList.textIfSet_of_textFlag? hg
      rw [if_pos hset, hflags, Descent.filled, hplaced] at hhost
      rw [hplaced] at hf
      rcases Memory.textIfSet_of_reconcile hon hf hh.remembered hhost hv with
        h | ⟨server, hlookup, rfl⟩ | ⟨hsame, rfl⟩
      · exact .inl h
      · rw [hverbatim] at hlookup
        exact .inr (.registered hlookup)
      · rw [← hsame]
        exact .inr (hs (hsame ▸ hh.named) slot)
  · rw [hnone slot] at hv
    cases hv

/-- The host of an accepted line is the one that the session takes; where the memory takes part it is
    then remembered, with what the slots are given. -/
theorem taking_of_hosted (hh : Hosted d checked host features) {session : Session}
    (hflags : checked.flags = d.filled session.settings session.servers) :
    let taken := (CommandLine.remembering d session).taking host
    taken.host = host ∧ (taken.settings.usePrevious = true → session.settings.usePrevious = true ∧
      taken.settings.host = host ∧
      taken.settings = Memory.refresh checked.flags session.settings) := by
  have hnamed : host.isEmpty = false := by
    rw [Bool.eq_false_iff, Ne, String.isEmpty_iff]
    exact hh.named
  unfold Session.taking CommandLine.remembering
  simp only [hnamed, Bool.false_eq_true, if_false]
  refine ⟨by split <;> rfl, fun hon => ?_⟩
  cases hprev : session.settings.usePrevious with
  | false =>
    rw [Memory.reconcile_of_off hprev] at hon
    split at hon
    · rw [hprev] at hon
      cases hon
    · rw [Connect.withHost, hprev] at hon
      cases hon
  | true =>
    obtain ⟨f, value, hf⟩ := hh.asked
    obtain ⟨g, hg, hset⟩ := hh.found
    have hrefresh : (Memory.reconcile d.placed.1 session.settings session.servers).settings =
        Memory.refresh checked.flags session.settings := by
      rw [hflags]
      exact Memory.settings_reconcile hprev hf hh.remembered
    have hhost : (Memory.refresh checked.flags session.settings).host = host :=
      Memory.kept_of_textFlag? hg hset
    rw [hrefresh, if_pos hhost]
    exact ⟨rfl, hhost, rfl⟩

/-- What is remembered of an accepted line is sound when the run is over. -/
theorem sound_of_hosted (hh : Hosted d checked host features) (hs : Sound servers ps s)
    (hflags : checked.flags = d.filled s servers)
    (hline : ∀ slot, d.flags.textIfSet slot.flag = given past.argv slot) (hpast : past.host = host) :
    Sound servers (ps ++ [past]) (Memory.refresh checked.flags s) := by
  obtain ⟨g, hg, hset⟩ := hh.found
  have hhost : (Memory.refresh checked.flags s).host = host := Memory.kept_of_textFlag? hg hset
  intro _ slot
  rw [hhost, Slot.ofSettings_refresh]
  by_cases hkept : Memory.kept checked.flags slot.flag = ""
  · rw [hkept]
    exact .empty
  · rcases stored_of_hosted hh hs hflags (Memory.textIfSet_of_kept hkept) with h | h
    · rw [hline] at h
      exact .remembered (remembers_last ps hpast h)
    · exact h.snoc fun _ => .inl hpast

/-! ## 5. The stages of one run -/

variable {b : Place} {extra : Dictionary Json} {r q : Execution} {prepared : Prepared} {turn : Turn}
  {line : Line} {c : Client}

/-- The command line of the run is accepted: it is read as a line, a session is set up, and this is what
    the checks come to. -/
structure Turn.Accepts (turn : Turn) (b : Place) (line : Line) (r : Execution) (checked : Descent) :
    Prop where
  read : CommandLine.line? app turn.argv = some line
  setup : (Setup.run app.version line.globals).perform (turn.start b) = (.ok (), r)
  verdict : line.descent.verdict r.session.settings r.session.servers = .ok checked

/-- The run makes a client for a host: the one that the line names and the session takes. -/
def Turn.Builds (turn : Turn) (b : Place) (host : String) (c : Client) : Prop :=
  ∃ line r checked f value features, turn.Accepts b line r checked ∧
    checked.flags.textFlag? "host" = some (f, value, features) ∧ features.initClient = true ∧
    let s := (CommandLine.remembering line.descent r.session).taking value
    s.host = host ∧ s.factory.make s.servers s.clientOptions
      (Connect.request checked.flags host features.skipGetToken false) = .ok c

namespace Turn.Accepts

variable (h : turn.Accepts b line r checked)
include h

theorem given_eq (slot : Slot) : line.descent.flags.textIfSet slot.flag = given turn.argv slot := by
  rw [given, h.read]
  rfl

theorem flags_eq : checked.flags = line.descent.filled r.session.settings r.session.servers := by
  rw [Descent.eq_of_verdict h.verdict]

/-- The session is set up from what is found at the place. -/
theorem loaded {c : Configuration} (hc : b.held? = some c) :
    Setup.Loaded b c (turn.start b) r := by
  obtain ⟨remark, hc⟩ := Place.held?_eq_some_iff.1 hc
  exact Setup.loaded_of_run ⟨rfl, rfl⟩ hc h.setup

theorem sound (hc : b.held? = some ⟨s, servers, extra⟩) (hs : Sound servers ps s) :
    Sound r.session.servers ps r.session.settings := by
  have hloaded := h.loaded hc
  rw [hloaded.servers]
  exact hs.forgets hloaded.forgets

end Turn.Accepts

/-- Where the value of a slot of a client for a host comes from. -/
inductive Origin (servers : ServerTable) (ps : List Past) (argv : List String) (host : String)
    (c : Client) (slot : Slot) : String → Prop where
  /-- From the command line of the run itself. -/
  | given {v : String} (h : Tool.given argv slot = some v) : Origin servers ps argv host c slot v
  /-- From the registered server that the host means. -/
  | registered {server : Server} (h : servers.lookup host false = .ok server) :
      Origin servers ps argv host c slot (slot.ofServer server)
  /-- From the server to which the client was resolved. -/
  | resolved (h : Client.endpoint servers host = .ok (c.url, c.server)) :
      Origin servers ps argv host c slot (slot.ofServer c.server)
  | empty : Origin servers ps argv host c slot ""
  /-- From the command line of an earlier run for this host. -/
  | remembered {v : String} (h : Remembers ps host slot v) : Origin servers ps argv host c slot v

theorem Stored.origin {argv : List String} (h : Stored servers ps host slot v) :
    Origin servers ps argv host c slot v := by
  cases h with
  | empty => exact .empty
  | registered h => exact .registered h
  | remembered h => exact .remembered h

/-- **What a client that the run makes is made of**: its line names the host, the server is the one to which
    the host is resolved, and a slot is what the flags hold, or else what the server has. -/
theorem client_of_builds (hc : b.held? = some ⟨s, servers, extra⟩) (h : turn.Builds b host c) :
    ∃ (split : Split) (globals : Ledger) (w : Walked) (r : Execution) (checked : Descent)
      (features : TextFeatures), split.Reads app globals w ∧
      turn.Accepts b ⟨split.program, globals.flags, w.descent⟩ r checked ∧
      Hosted w.descent checked host features ∧ features.initClient = true ∧
      Client.endpoint servers host = .ok (c.url, c.server) ∧
      ∀ slot : Slot, slot.ofClient c =
        (checked.flags.textIfSet slot.flag).getD (slot.ofServer c.server) := by
  obtain ⟨line, r, checked, f, value, features, ha, hf, hinit, hhost, hmake⟩ := h
  have hloaded := ha.loaded hc
  obtain ⟨split, globals, w, _, hreads, rfl⟩ := CommandLine.reads_of_line? ha.read
  obtain ⟨_, hless | ⟨host', features', hh⟩⟩ := host_of_verdict hreads ha.verdict
  · rw [hless.found] at hf
    cases hf
  · obtain ⟨g, hg, _⟩ := hh.found
    rw [hg] at hf
    cases hf
    obtain ⟨htaken, _⟩ := taking_of_hosted hh ha.flags_eq
    obtain ⟨hservers, _, hfactory⟩ :=
      Session.frame_taking (CommandLine.remembering w.descent r.session) value
    have hregistry : (CommandLine.remembering w.descent r.session).factory = .registry :=
      hloaded.factory
    have hremembering : (CommandLine.remembering w.descent r.session).servers = servers :=
      hloaded.servers
    dsimp only at hhost hmake htaken
    rw [hfactory, hservers, hregistry, hremembering, ← hhost, htaken] at hmake
    rw [htaken] at hhost
    subst hhost
    have hresolved := Slot.ofClient_of_resolve (Client.resolve_of_make hmake)
    refine ⟨split, globals, w, r, checked, features, hreads, ha, hh, hinit, (hresolved .tenant).1,
      fun slot => ?_⟩
    rw [(hresolved slot).2, Slot.ofRequest_request]

/-- **Where the slots of a client come from**, when what is found at the place is sound. -/
theorem origin_of_builds (hc : b.held? = some ⟨s, servers, extra⟩) (hs : Sound servers ps s)
    (h : turn.Builds b host c) (slot : Slot) :
    Origin servers ps turn.argv host c slot (slot.ofClient c) := by
  obtain ⟨_, _, w, r, checked, features, _, ha, hh, _, hendpoint, hslots⟩ := client_of_builds hc h
  have hsound := ha.sound hc hs
  rw [hslots]
  cases hv : checked.flags.textIfSet slot.flag with
  | none => exact .resolved hendpoint
  | some v =>
    rcases stored_of_hosted hh hsound ha.flags_eq hv with hgiven | hstored
    · rw [ha.given_eq] at hgiven
      exact .given hgiven
    · rw [(ha.loaded hc).servers] at hstored
      exact hstored.origin

/-- **The stages behind a command that is ready to run**: its line is accepted, and from there on the
    session takes the host of the line, if it names one, and the client is made for it. -/
theorem connected_of_read
    (h : (CommandLine.read app turn.argv).perform (turn.start b) = (.ok (some prepared), q)) :
    ∃ (split : Split) (globals : Ledger) (w : Walked) (r : Execution) (checked : Descent),
      split.Reads app globals w ∧
      turn.Accepts b ⟨split.program, globals.flags, w.descent⟩ r checked ∧
      prepared.command = w.command ∧ prepared.invocation.destination = none ∧
      ((Hostless w.descent checked ∧ prepared.invocation.client = none ∧
          q.session = CommandLine.remembering w.descent r.session) ∨
        ∃ host features, Hosted w.descent checked host features ∧
          q.session = (CommandLine.remembering w.descent r.session).taking host ∧
          (features.initClient = false → prepared.invocation.client = none) ∧
          (features.initClient = true → ∃ c, prepared.invocation.client = some c ∧
            q.session.factory.make q.session.servers q.session.clientOptions
              (Connect.request checked.flags q.session.host features.skipGetToken false) = .ok c)) := by
  obtain ⟨line, r, checked, u, hline, hsetup, hverdict, hu, hconnect⟩ := CommandLine.stages_of_read h
  have haccepts : turn.Accepts b line r checked := ⟨hline, hsetup, hverdict⟩
  obtain ⟨split, globals, w, _, hreads, rfl⟩ := CommandLine.reads_of_line? hline
  obtain ⟨htwo, hhost⟩ := host_of_verdict hreads hverdict
  have hcommand : prepared.command = w.command := by
    rw [(CommandLine.prepared_of_connect hconnect).1, Descent.eq_of_verdict hverdict]
    rfl
  obtain ⟨hsource, hdestination⟩ :=
    Connect.source_of_run htwo (CommandLine.run_of_connect hconnect)
  refine ⟨split, globals, w, r, checked, hreads, haccepts, hcommand, hdestination, ?_⟩
  rcases hhost with hless | ⟨host, features, hh⟩
  · rw [Connect.perform_source_of_no_host hless.found] at hsource
    obtain ⟨hi, hq⟩ := Prod.mk.inj hsource
    refine .inl ⟨hless, ?_, ?_⟩
    · rw [← Except.ok.inj hi]
      rfl
    · rw [← hq, hu]
  · obtain ⟨g, hg, _⟩ := hh.found
    obtain ⟨htaken, hnone, hmade⟩ := Connect.client_of_source hg hsource
    rw [hu] at htaken
    exact .inr ⟨host, features, hh, htaken, hnone, hmade⟩

/-- The client of a command that is ready to run is one that the run makes; and there is no second
    one. -/
theorem builds_of_read
    (h : (CommandLine.read app turn.argv).perform (turn.start b) = (.ok (some prepared), q)) :
    (∀ c, prepared.invocation.client = some c → turn.Builds b q.session.host c) ∧
      prepared.invocation.destination = none := by
  obtain ⟨split, globals, w, r, checked, _, haccepts, _, hdestination, hstages⟩ :=
    connected_of_read h
  refine ⟨fun c hc => ?_, hdestination⟩
  rcases hstages with ⟨_, hnone, _⟩ | ⟨host, features, hh, htaken, hnone, hmade⟩
  · rw [hnone] at hc
    cases hc
  · obtain ⟨g, hg, _⟩ := hh.found
    cases hi : features.initClient with
    | false =>
      rw [hnone hi] at hc
      cases hc
    | true =>
      obtain ⟨c', hc', hmake⟩ := hmade hi
      rw [hc] at hc'
      cases hc'
      rw [htaken] at hmake
      refine ⟨_, r, checked, g, host, features, haccepts, hg, hi, ?_, ?_⟩
      · rw [htaken]
      · rw [htaken]
        exact hmake

/-! ## 6. One run preserves the invariant -/

theorem finish_of_read
    (h : (CommandLine.read app turn.argv).perform (turn.start b) = (.ok (some prepared), q)) :
    turn.finish b = ((App.dispatch prepared).perform q).2 := by
  unfold Turn.finish App.run
  rw [Run.perform_bind, Run.perform_attempt, h]

/-- A run without a command leaves the place alone. -/
theorem stays_of_no_command (h : ∀ prepared q, (CommandLine.read app turn.argv).perform (turn.start b) ≠
    (.ok (some prepared), q)) : (turn.finish b).At b := by
  have hread := CommandLine.stays_read app turn.argv (turn.start b) b ⟨rfl, rfl⟩
  unfold Turn.finish App.run
  rw [Run.perform_bind, Run.perform_attempt]
  dsimp only
  rcases hr : (CommandLine.read app turn.argv).perform (turn.start b) with ⟨e | _ | prepared, q⟩
  · rw [hr] at hread
    dsimp only
    split <;> exact hread
  · rw [hr] at hread
    exact hread
  · exact absurd hr (h prepared q)

theorem leaves_of_at {b' : Place} (h : (turn.finish b).At b') : turn.leaves b = b' := by
  unfold Turn.leaves
  rw [h.store, h.files]
  rfl

section

variable {a : Action} (hloaded : Setup.Loaded b ⟨s, servers, extra⟩ (turn.start b) r) (hat : q.At b)
  (hfinish : turn.finish b = ((App.dispatch prepared).perform q).2)
  (hleaf : prepared.command.isGroup = false) (ha : prepared.command.action = some a)
include hloaded hat hfinish hleaf ha

/-- A command without a host leaves the place as it was, or saves settings of which some are forgotten. -/
theorem left_of_hostless (hw : b.Works servers extra) (hless : Hostless d checked)
    (hq : q.session = CommandLine.remembering d r.session) (hkind : a.Shows ∨ a.Forgets) :
    turn.leaves b = b ∨ ∃ s', turn.leaves b = b.save ⟨s', servers, extra⟩ ∧
      (turn.past b).host = "" ∧ s.Forgets s' := by
  have hsettings : q.session.settings = r.session.settings := by
    rw [hq, CommandLine.remembering, Memory.reconcile_of_no_host hless.asked]
  have hservers : q.session.servers = servers := by
    rw [hq]
    exact hloaded.servers
  have hextra : q.session.extra = extra := by
    rw [hq]
    exact hloaded.extra
  have hhost : q.session.host = "" := by
    rw [hq]
    exact hloaded.host
  have hforgets : s.Forgets q.session.settings := hsettings ▸ hloaded.forgets
  rcases hkind with hshows | hforget
  · obtain ⟨hkept, hplace⟩ := App.place_dispatch_of_shows hleaf ha hshows hat
    rw [← hfinish] at hkept hplace
    rcases hplace with hplace | ⟨_, hplace⟩
    · exact .inl (leaves_of_at hplace)
    · rw [Session.configuration, hservers, hextra] at hplace
      exact .inr ⟨_, leaves_of_at hplace, hkept.trans hhost, hforgets⟩
  · have htakes (s : Settings) : b.takes ⟨s, q.session.servers, q.session.extra⟩ = true := by
      rw [hservers, hextra]
      exact hw.takes s
    obtain ⟨hkept, hplace⟩ := App.place_dispatch_of_forgets hleaf ha hforget hat htakes
    rw [← hfinish] at hkept hplace
    rcases hplace with hplace | ⟨s', hs', hplace⟩
    · exact .inl (leaves_of_at hplace)
    · rw [hservers, hextra] at hplace
      exact .inr ⟨s', leaves_of_at hplace, hkept.trans hhost, hforgets.trans hs'⟩

/-- A command with a host leaves the place as it was, or saves the refreshed memory. -/
theorem left_of_hosted (hh : Hosted d checked host features)
    (hflags : checked.flags = d.filled r.session.settings r.session.servers)
    (hq : q.session = (CommandLine.remembering d r.session).taking host) (hshows : a.Shows) :
    turn.leaves b = b ∨ r.session.settings.usePrevious = true ∧ (turn.past b).host = host ∧
      turn.leaves b =
        b.save ⟨Memory.refresh checked.flags r.session.settings, servers, extra⟩ := by
  obtain ⟨hkept, hplace⟩ := App.place_dispatch_of_shows hleaf ha hshows hat
  obtain ⟨hservers, hextra, _⟩ := Session.frame_taking (CommandLine.remembering d r.session) host
  obtain ⟨htaken, hrefreshed⟩ := taking_of_hosted hh hflags
  rw [← hfinish] at hkept hplace
  rcases hplace with hplace | ⟨hon, hplace⟩
  · exact .inl (leaves_of_at hplace)
  · rw [hq] at hon
    obtain ⟨hprev, _, hsettings⟩ := hrefreshed hon
    have hsaved : q.session.configuration =
        ⟨Memory.refresh checked.flags r.session.settings, servers, extra⟩ := by
      rw [Session.configuration, hq, hservers, hextra, hsettings]
      exact congrArg₂ (Configuration.mk _) hloaded.servers hloaded.extra
    rw [hsaved] at hplace
    refine .inr ⟨hprev, ?_, leaves_of_at hplace⟩
    rw [Turn.past, hkept, hq]
    exact htaken

end

/-- **What one run leaves behind**: the place as it was; or settings of which some are forgotten, saved
    by a run for no host; or the refreshed memory of an accepted line, saved by the run for its host. -/
theorem left_of_turn (hc : b.held? = some ⟨s, servers, extra⟩) (hw : b.Works servers extra) :
    turn.leaves b = b ∨
      (∃ s', turn.leaves b = b.save ⟨s', servers, extra⟩ ∧ (turn.past b).host = "" ∧ s.Forgets s') ∨
      ∃ line r checked host features, turn.Accepts b line r checked ∧
        Hosted line.descent checked host features ∧ r.session.settings.usePrevious = true ∧
        (turn.past b).host = host ∧ turn.leaves b =
          b.save ⟨Memory.refresh checked.flags r.session.settings, servers, extra⟩ := by
  by_cases hread : ∃ prepared q,
      (CommandLine.read app turn.argv).perform (turn.start b) = (.ok (some prepared), q)
  · obtain ⟨prepared, q, hread⟩ := hread
    obtain ⟨split, globals, w, r, checked, hreads, haccepts, hcommand, _, hstages⟩ :=
      connected_of_read hread
    have hfinish := finish_of_read hread
    have hloaded := haccepts.loaded hc
    have hat : q.At b := by
      have hstays := CommandLine.stays_read app turn.argv (turn.start b) b ⟨rfl, rfl⟩
      rw [hread] at hstays
      exact hstays
    have hlast : w.levels.getLast? = some prepared.command := by
      rw [hcommand, Walked.levels, Walked.command, List.getLast?_cons, List.getLastD_eq_getLast?]
    rcases action_of_path _ (levels_mem_paths hreads) _ hlast with hgroup | ⟨hleaf, a, ha, hkind⟩
    · refine .inl (leaves_of_at ?_)
      rw [hfinish]
      exact (App.quiet_dispatch_of_group hgroup).stays q b hat
    rcases hstages with ⟨hless, _, hq⟩ | ⟨host, features, hh, hq, _⟩
    · exact (left_of_hostless hloaded hat hfinish hleaf ha hw hless hq
        (hkind.imp id And.left)).imp id .inl
    · have hshows : a.Shows := by
        rcases hkind with hshows | ⟨_, hnone⟩
        · exact hshows
        · obtain ⟨_, _, hasked⟩ := hh.asked
          rw [textFlag?_placed_of_none hreads hnone] at hasked
          cases hasked
      exact (left_of_hosted hloaded hat hfinish hleaf ha hh haccepts.flags_eq hq hshows).imp id
        fun h => .inr ⟨_, r, checked, host, features, haccepts, hh, h⟩
  · exact .inl (leaves_of_at (stays_of_no_command fun prepared q h => hread ⟨prepared, q, h⟩))

/-- What is to be found at a place, whatever runs there were. -/
structure Keeps (servers : ServerTable) (extra : Dictionary Json) (ps : List Past) (b : Place) :
    Prop where
  works : b.Works servers extra
  held : ∃ s, b.held? = some ⟨s, servers, extra⟩ ∧ Sound servers ps s

/-- **Every run preserves the invariant.** -/
theorem Keeps.after (h : Keeps servers extra ps b) (turn : Turn) :
    Keeps servers extra (ps ++ [turn.past b]) (turn.leaves b) := by
  obtain ⟨hworks, s, hheld, hsound⟩ := h
  have hleft : (turn.past b).left = turn.leaves b := rfl
  have hfound : (turn.past b).found = b := rfl
  rcases left_of_turn hheld hworks with hsame | ⟨s', hsaved, hhost, hforgets⟩ |
    ⟨line, r, checked, host, features, haccepts, hh, _, hhost, hsaved⟩
  · have hquiet : ¬ (turn.past b).Persisted := fun hp => hp (by rw [hleft, hfound, hsame])
    rw [hsame]
    exact ⟨hworks, s, hheld, hsound.snoc fun hp => absurd hp hquiet⟩
  · rw [hsaved]
    exact ⟨hworks.save s', s', hworks.held s', (hsound.forgets hforgets).snoc fun _ => hhost⟩
  · have hr : Sound servers ps r.session.settings :=
      hsound.forgets (haccepts.loaded hheld).forgets
    have hflags := haccepts.flags_eq
    rw [(haccepts.loaded hheld).servers] at hflags
    rw [hsaved]
    exact ⟨hworks.save _, _, hworks.held _,
      sound_of_hosted hh hr hflags haccepts.given_eq hhost⟩

/-- **The invariant holds after any runs.** -/
theorem keeps_of_runs {start : Place} (hworks : start.Works servers extra)
    (hheld : start.held? = some ⟨{}, servers, extra⟩) (h : Runs start ps b) :
    Keeps servers extra ps b := by
  induction h with
  | start => exact ⟨hworks, {}, hheld, sound_default servers⟩
  | turn t _ ih => exact ih.after t

/-! ## 7. Clients -/

/-- **No remembered tenant, scope or token is ever used with another host.**

    Take any runs of the tool, one after the other, over a place that works and at first holds the
    default settings. Whenever a run makes a client for a host, then each slot of the client is given on
    the command line of this run; or it stands in the server that the host means, or in the one to which
    the client was resolved; or it is empty; or an earlier run was given it on its command line, for this
    very host, and no run for another host has changed the place since.

    No accepted line names a second host; and a client that is handed to a command is one that the run
    makes, for the host of the session. -/
theorem origin_of_client {start : Place} (hworks : start.Works servers extra)
    (hheld : start.held? = some ⟨{}, servers, extra⟩) (h : Runs start ps b) (turn : Turn) :
    (∀ host c, turn.Builds b host c → ∀ slot : Slot,
      Origin servers ps turn.argv host c slot (slot.ofClient c)) ∧
    (∀ line r checked, turn.Accepts b line r checked → checked.flags.textIfSet "host2" = none) ∧
    (∀ prepared q,
      (CommandLine.read app turn.argv).perform (turn.start b) = (.ok (some prepared), q) →
      (∀ c, prepared.invocation.client = some c → turn.Builds b q.session.host c) ∧
        prepared.invocation.destination = none) := by
  obtain ⟨_, s, hs, hsound⟩ := keeps_of_runs hworks hheld h
  refine ⟨fun host c hbuilds slot => origin_of_builds hs hsound hbuilds slot,
    fun line r checked ha => ?_, fun prepared q hread => builds_of_read hread⟩
  obtain ⟨split, globals, w, _, hreads, rfl⟩ := CommandLine.reads_of_line? ha.read
  exact (host_of_verdict hreads ha.verdict).1

/-- The second run names neither host nor tenant, and has both from the first one. -/
theorem origin_of_client_resolve :
    let start : Place := ⟨.inMemory {}, {}⟩
    let first : Turn := { argv := ["ngsi", "resolve", "-h", "http://orion", "--service", "smart"] }
    let second : Turn := { argv := ["ngsi", "resolve"] }
    start.Works .empty .empty ∧ start.held? = some {} ∧
      Runs start [first.past start] (first.leaves start) ∧
      ∃ c, second.Builds (first.leaves start) "http://orion" c ∧
        Origin .empty [first.past start] second.argv "http://orion" c .tenant "smart" := by
  intro start first second
  have hworks : start.Works .empty .empty := Place.works_inMemory {} 0 {} .empty .empty
  have hruns : Runs start [first.past start] (first.leaves start) := .turn first .start
  have hread : ((CommandLine.read app second.argv).perform
      (second.start (first.leaves start))).1.toOption.join.bind
        (fun prepared => prepared.invocation.client.map (·.tenant)) = some "smart" := by
    decide +kernel
  have hhost : ((CommandLine.read app second.argv).perform
      (second.start (first.leaves start))).2.session.host = "http://orion" := by
    decide +kernel
  refine ⟨hworks, rfl, hruns, ?_⟩
  obtain ⟨horigin, _, hbuilds⟩ := origin_of_client hworks rfl hruns second
  rcases hr : (CommandLine.read app second.argv).perform (second.start (first.leaves start)) with
    ⟨_ | _ | prepared, q⟩
  · simp [hr, Except.toOption] at hread
  · simp [hr, Except.toOption] at hread
  · rw [hr] at hread hhost
    obtain ⟨c, hc, htenant⟩ := Option.map_eq_some_iff.1 hread
    have hmade : second.Builds (first.leaves start) "http://orion" c :=
      hhost ▸ (hbuilds prepared q hr).1 c hc
    have hslot := horigin _ c hmade .tenant
    exact ⟨c, hmade, htenant ▸ hslot⟩

end Tool

end BrokerCli
