import BrokerCli.CommandLine

/-!
# What the checks come to

The checks behind the reading (`CommandLine.check`) show complaints and refresh the memory on their
way. What they come to is told here without any of that:

* `Descent.placed`, `Descent.leftOver` -- flags and arguments after the arguments were given to the
  flags they stand for;
* `Descent.filled` -- the flags after the memory filled them;
* `Descent.verdict` -- accepted with these flags, or the error of the FIRST check that fails;
* `CommandLine.perform_check` -- the checks come to the verdict;
* `CommandLine.session_check` -- of the session they change the settings, and whether these are to be
  written back.
-/

namespace BrokerCli

namespace Descent

/-! ## 1. The verdict -/

variable (d : Descent)

/-- Whether the arguments stand for the required flags. -/
def engages : Bool := Check.byPosition d.flags d.required d.args

/-- The flags after every argument was given to the flag it stands for, with the complaints. -/
def placed : FlagList × List Complaint :=
  if d.engages then Check.place d.flags (d.required.zip d.args) else (d.flags, [])

/-- The arguments that stand for no flag. -/
def leftOver : List String := if d.engages then [] else d.args

/-- The flags filled from server and memory. -/
def filled (s : Settings) (servers : ServerTable) : FlagList :=
  (Memory.reconcile d.placed.1 s servers).flags

/-- The complaints about what is not there, when the flags are `fs`. -/
def shortfall (fs : FlagList) : List Complaint :=
  (if d.engages then [] else Check.notGiven fs d.required) ++ Check.ownDemands fs

/-- Whether something that is required is missing, misplaced or left over. -/
def isShort (fs : FlagList) : Bool :=
  (!d.required.isEmpty && !d.leftOver.isEmpty) || !d.placed.2.isEmpty || !(d.shortfall fs).isEmpty

/-- What the checks come to: the error of the first one that fails, or the flags and arguments as
    they are then. -/
def verdict (s : Settings) (servers : ServerTable) : Except DescentError Descent :=
  let fs := d.filled s servers
  if d.isShort fs then .error .missing
  else if !(Check.emptyValues fs).isEmpty then .error .emptyValues
  else match d.command.rule.bind (·.violation? fs) with
    | some e => .error (.rule e)
    | none =>
      if !(Check.missedChoices fs).isEmpty then .error .missedChoices
      else .ok { d with flags := fs, args := d.leftOver }

/-- An accepted line is the one that was read, with other flags and arguments. -/
theorem eq_of_verdict {d d' : Descent} {s : Settings} {servers : ServerTable}
    (h : d.verdict s servers = .ok d') :
    d' = { d with flags := d.filled s servers, args := d.leftOver } := by
  unfold verdict at h
  dsimp only at h
  split at h
  · cases h
  split at h
  · cases h
  split at h
  · cases h
  split at h
  · cases h
  exact (Except.ok.inj h).symm

end Descent

namespace CommandLine

/-! ## 2. The checks -/

variable (p : Execution)

/-- The execution after complaints were shown. -/
def shown (p : Execution) (cs : List Complaint) : Execution :=
  { p with transcript := p.transcript ++ cs.map fun c => .complained c.line }

@[simp] theorem perform_complainAll (cs : List Complaint) :
    (complainAll cs).perform p = ((), shown p cs) := by
  induction cs generalizing p with
  | nil => simp [complainAll, shown]
  | cons c cs ih =>
    rw [complainAll, Effect.perform_bind, Effect.perform_complain, ih]
    simp [shown, Execution.emit]

theorem complaints_shown (cs : List Complaint) :
    (shown p cs).complaints = p.complaints ++ String.join (cs.map Complaint.line) := by
  have hlines : cs.map (Event.complaint ∘ fun c => .complained c.line) = cs.map Complaint.line := rfl
  simp only [shown, Execution.complaints, List.map_append, List.map_map, hlines, String.join_append]

/-- What the memory makes of the flags, and of the session; it complains about nothing. -/
theorem perform_remember (fs : FlagList) :
    ((remember fs).perform p).1 =
        (Memory.reconcile fs p.session.settings p.session.servers).flags ∧
      ((remember fs).perform p).2.session = { p.session with
        settings := (Memory.reconcile fs p.session.settings p.session.servers).settings
        updated := p.session.updated ||
          (Memory.reconcile fs p.session.settings p.session.servers).refreshed } ∧
      ((remember fs).perform p).2.complaints = p.complaints := by
  unfold remember
  simp only [Effect.perform_bind, Effect.perform_session]
  cases (Memory.reconcile fs p.session.settings p.session.servers).switched with
  | none => exact ⟨rfl, rfl, rfl⟩
  | some hosts =>
    refine ⟨rfl, ?_, p.complaints_note _ _⟩
    rw [Effect.perform_bind, Effect.perform_log, Effect.perform_bind, Effect.perform_modifySession,
      Effect.perform_pure]
    simp only [Execution.session_note]

/-- The session after the memory took part in a command line. -/
def remembering (d : Descent) (s : Session) : Session :=
  let r := Memory.reconcile d.placed.1 s.settings s.servers
  { s with settings := r.settings, updated := s.updated || r.refreshed }

theorem provide_eq (d : Descent) : provide d = do
    complainAll d.placed.2
    let fs ← remember d.placed.1
    complainAll (d.shortfall fs)
    return ({ d with flags := fs, args := d.leftOver }, d.isShort fs) := rfl

theorem require_eq (d : Descent) : require d = do
    complainAll d.placed.2
    let fs ← remember d.placed.1
    complainAll (d.shortfall fs)
    if d.isShort fs then throw .missing
    return { d with flags := fs, args := d.leftOver } := rfl

/-- What comes of taking what is required. -/
theorem perform_provide (d : Descent) :
    let fs := d.filled p.session.settings p.session.servers
    ((provide d).perform p).1 = ({ d with flags := fs, args := d.leftOver }, d.isShort fs) ∧
      ((provide d).perform p).2.session = remembering d p.session ∧
      ((provide d).perform p).2.complaints = p.complaints ++
        String.join ((d.placed.2 ++ d.shortfall fs).map Complaint.line) := by
  obtain ⟨hflags, hsession, hcomplaints⟩ := perform_remember (shown p d.placed.2) d.placed.1
  have hfilled : ((remember d.placed.1).perform (shown p d.placed.2)).1 =
      d.filled p.session.settings p.session.servers := hflags
  rw [provide_eq]
  simp only [Effect.perform_bind, perform_complainAll, Effect.perform_pure, hfilled, complaints_shown,
    hcomplaints, List.map_append, String.join_append, String.append_assoc]
  exact ⟨trivial, hsession, trivial⟩

theorem perform_require (d : Descent) :
    ((require d).perform p).1 =
        (if d.isShort (d.filled p.session.settings p.session.servers) then .error .missing
        else .ok { d with
          flags := d.filled p.session.settings p.session.servers, args := d.leftOver }) ∧
      ((require d).perform p).2.session = remembering d p.session := by
  obtain ⟨hleft, hsession, _⟩ := perform_provide p d
  unfold require
  simp only [Run.perform_bind, Run.perform_lift, hleft, Run.perform_ite]
  split
  · exact ⟨rfl, hsession⟩
  · exact ⟨rfl, hsession⟩

theorem perform_refuseIfAny (cs : List Complaint) (e : DescentError) :
    (refuseIfAny cs e).perform p = (if !cs.isEmpty then .error e else .ok (), shown p cs) := by
  unfold refuseIfAny
  simp only [Run.perform_bind, Run.perform_lift, perform_complainAll, Run.perform_ite]
  split <;> rfl

/-- **The checks come to the verdict; and of the session they change what the memory changes**,
    whatever they come to. -/
theorem perform_check (d : Descent) :
    ((check d).perform p).1 = d.verdict p.session.settings p.session.servers ∧
      ((check d).perform p).2.session = remembering d p.session := by
  obtain ⟨hres, hsession⟩ := perform_require p d
  unfold check Descent.verdict
  rw [Run.perform_bind]
  rcases hq : (require d).perform p with ⟨_ | d', q⟩
  all_goals
    rw [hq] at hres hsession
    dsimp only at hres hsession ⊢
  · split at hres
    · rename_i hshort
      rw [if_pos hshort]
      exact ⟨hres, hsession⟩
    · cases hres
  · split at hres
    · cases hres
    rename_i hshort
    cases hres
    rw [if_neg hshort]
    generalize d.filled p.session.settings p.session.servers = fs
    rw [Run.perform_bind, perform_refuseIfAny]
    by_cases hempty : (!(Check.emptyValues fs).isEmpty) = true
    · rw [if_pos hempty, if_pos hempty]
      exact ⟨rfl, hsession⟩
    rw [if_neg hempty, if_neg hempty]
    cases hrule : d.command.rule.bind (·.violation? fs) with
    | some e => exact ⟨rfl, hsession⟩
    | none =>
      dsimp only
      rw [Run.perform_bind, perform_refuseIfAny]
      by_cases hchoice : (!(Check.missedChoices fs).isEmpty) = true
      · rw [if_pos hchoice, if_pos hchoice]
        exact ⟨rfl, hsession⟩
      · rw [if_neg hchoice, if_neg hchoice]
        exact ⟨rfl, hsession⟩

end CommandLine

end BrokerCli
