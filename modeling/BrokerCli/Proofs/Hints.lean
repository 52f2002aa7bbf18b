import BrokerCli.Tool.App
import BrokerCli.Proofs.Recast
import BrokerCli.Proofs.Stages

/-!
# Asking for completions has no effects

A shell asks for completions by the trigger, wherever on a command line it is put. Such a line is read
no further than to the trigger, and then it is answered:

* `FlagList.Untriggered`, `Descent.Untriggered` -- nothing that was read so far is the trigger. One
  step of either loop keeps it so (`untriggered_of_apply`), and so does the whole reading
  (`Globals.untriggered_read`, `Descent.untriggered_read`);
* `CommandLine.none_of_trigger` -- such a line leads to no command;
* `Execution.Mute` -- nothing was complained about;
* `Setup.ignores_run` -- a session is set up without a look at how clients are made;
* `App.run_of_trigger` -- running such a line does nothing but read it, and show something.
-/

namespace BrokerCli

open Grammar

variable {x : Exchange} {saves : Bool}

/-! ## 1. What is read is not the trigger -/

/-- No flag has been given the trigger. -/
def FlagList.Untriggered (fs : FlagList) : Prop :=
  ∀ f ∈ fs, f.isSet = true → ∀ features, f.content ≠ .text Completion.trigger features

namespace FlagList

variable {fs gs : FlagList}

theorem Untriggered.append (hf : fs.Untriggered) (hg : gs.Untriggered) :
    Untriggered (fs ++ gs) :=
  fun f hm => (List.mem_append.1 hm).elim (hf f) (hg f)

theorem Untriggered.without (h : fs.Untriggered) (name : String) : (fs.without name).Untriggered :=
  fun f hm => h f (List.mem_filter.1 hm).1

/-- Flags that are not set have been given nothing. -/
theorem untriggered_of_unset (h : ∀ f ∈ fs, f.isSet = false) : fs.Untriggered := by
  intro f hm hset
  rw [h f hm] at hset
  cases hset

theorem untriggered_reset (fs : FlagList) : fs.reset.Untriggered := by
  refine untriggered_of_unset fun f hm => ?_
  obtain ⟨g, _, rfl⟩ := List.mem_map.1 hm
  rfl

theorem mem_of_mem_replace {p : Flag → Bool} {f g : Flag} (h : g ∈ replace p f fs) :
    g = f ∨ g ∈ fs := by
  induction fs with
  | nil => cases h
  | cons e es ih =>
    unfold replace at h
    split at h
    · exact (List.mem_cons.1 h).imp id (List.mem_cons_of_mem e)
    · rcases List.mem_cons.1 h with rfl | h
      · exact .inr List.mem_cons_self
      · exact (ih h).imp id (List.mem_cons_of_mem e)

/-- An option takes no trigger for its value, as long as the trigger does not come next. -/
theorem untriggered_of_apply {o : OptionToken} {c c' : Cursor} (h : fs.apply o c = .ok (gs, c'))
    (hp : c.peek? ≠ some Completion.trigger) (hfs : fs.Untriggered) : gs.Untriggered := by
  unfold apply at h
  split at h
  · cases h
  split at h
  · rename_i f' c'' hg
    cases h
    obtain ⟨content, value, htakes, rfl, hunread⟩ := Flag.takes_of_give hg
    intro g hm
    rcases mem_of_mem_replace hm with rfl | hm
    · intro _ features hcontent
      have hcontent : content = .text Completion.trigger features := hcontent
      subst hcontent
      cases htakes with
      | text _ =>
        rw [Cursor.peek?_eq_head?_unread, hunread] at hp
        exact hp rfl
    · exact hfs g hm
  · cases h

end FlagList

/-- The reading of the tool's options gives no flag the trigger. -/
theorem Globals.untriggered_read (fs : FlagList) (c : Cursor) (h : fs.Untriggered) :
    (read fs c).1.Untriggered := by
  fun_induction read fs c with
  | case1 => exact h
  | case2 => exact h
  | case3 => exact h
  | case4 => exact h
  | case5 => exact h
  | case6 fs c arg behind hn harg hhint o ho gs c' ha ih =>
    refine ih (FlagList.untriggered_of_apply ha ?_ h)
    exact fun hp => hhint ⟨hp, OptionToken.beginsWith_of_ofArgument? ho⟩

theorem Globals.untriggered_flags (app : App) : (flags app).Untriggered := by
  refine (FlagList.untriggered_reset _).append (FlagList.untriggered_of_unset fun f hm => ?_)
  rcases List.mem_cons.1 hm with rfl | hm
  · rfl
  · rw [List.mem_singleton.1 hm]
    rfl

/-- Nothing that was read on the way down is the trigger: no name of a command, no argument, and no value
    of an option. -/
structure Descent.Untriggered (d : Descent) : Prop where
  chain : Completion.trigger ∉ d.chain
  args : Completion.trigger ∉ d.args
  flags : d.flags.Untriggered

namespace Descent

theorem untriggered_flagsOf (c : Command) : (flagsOf c).Untriggered := by
  refine (FlagList.untriggered_reset _).append (FlagList.untriggered_of_unset fun f hm => ?_)
  rw [List.mem_singleton.1 hm]
  rfl

theorem Untriggered.down {d : Descent} (h : d.Untriggered) {c : Command}
    (hc : c.name ≠ Completion.trigger) : (d.down c).Untriggered where
  chain hm := (List.mem_append.1 hm).elim h.chain fun hm => hc (List.mem_singleton.1 hm).symm
  args := h.args
  flags := (h.flags.without "help").append (untriggered_flagsOf c)

/-- The loop reads no trigger. -/
theorem untriggered_walk (d : Descent) (c : Cursor) (h : d.Untriggered) :
    (walk d c).1.Untriggered := by
  fun_induction walk d c with
  | case1 => exact h
  | case2 => exact h
  | case3 => exact h
  | case4 => exact h
  | case5 d c arg behind hn harg hhint o ho fs c' ha hhelp =>
    refine ⟨h.chain, h.args, FlagList.untriggered_of_apply ha ?_ h.flags⟩
    exact fun hp => hhint ⟨hp, OptionToken.beginsWith_of_ofArgument? ho⟩
  | case6 d c arg behind hn harg hhint o ho fs c' ha hhelp ih =>
    refine ih ⟨h.chain, h.args, FlagList.untriggered_of_apply ha ?_ h.flags⟩
    exact fun hp => hhint ⟨hp, OptionToken.beginsWith_of_ofArgument? ho⟩
  | case7 d c arg behind hn harg hhint ho hg sub hs ih =>
    refine ih (h.down ?_)
    rw [Command.name_of_find? hs]
    exact harg
  | case8 => exact h
  | case9 d c arg behind hn harg hhint ho hg ih =>
    refine ih ⟨h.chain, fun hm => ?_, h.flags⟩
    exact (List.mem_append.1 hm).elim h.args fun hm => harg (List.mem_singleton.1 hm).symm

/-- **The trigger is neither the name of a subcommand nor an argument nor the value of an option**,
    wherever it stands behind a command. -/
theorem untriggered_read {command : Command} (h : command.name ≠ Completion.trigger) (c : Cursor) :
    (read command c).1.Untriggered := by
  have hstart : (start command).Untriggered :=
    ⟨fun hm => h (List.mem_singleton.1 hm).symm, List.not_mem_nil, untriggered_flagsOf command⟩
  unfold read
  split
  · exact hstart
  · exact untriggered_walk _ _ hstart

/-- Where the trigger is to come, not everything is read. -/
theorem landing_of_trigger (command : Command) {c : Cursor} (h : Completion.trigger ∈ c.unread) :
    (read command c).2 ≠ .complete := by
  intro hcomplete
  unfold read at hcomplete
  split at hcomplete
  · cases hcomplete
  · rw [← Walked.descent_start] at hcomplete
    obtain ⟨_, _, _, _, _, hfree⟩ := walks_of_walk (Prod.ext rfl hcomplete)
    exact hfree h

end Descent

/-! ## 2. Reading up to the trigger -/

/-- Nothing was complained about. -/
def Execution.Mute (p q : Execution) : Prop := q.complaints = p.complaints

instance : IsPreorder Execution Execution.Mute where
  refl _ := rfl
  trans _ _ _ h h' := h'.trans h

namespace Effect

open Execution

theorem mute_print (text : String) : (print text).Respects Mute := by
  intro p
  show (p.emit (.printed text)).complaints = p.complaints
  rw [complaints_emit]
  exact String.append_empty

theorem mute_log (severity : Severity) (message : String) : (log severity message).Respects Mute :=
  fun p => p.complaints_note severity message

end Effect

/-- A session is set up without a complaint. -/
theorem Setup.mute_run (version : String) (fs : FlagList) :
    (run version fs).Respects Execution.Mute := by
  refine respects_run (fun p q hshown => ?_) Effect.mute_log version fs
  show q.complaints = p.complaints
  rw [Execution.complaints, hshown, Execution.complaints]

/-- A session is set up without a look at how clients are made. -/
theorem Setup.ignores_run (version : String) (fs : FlagList) (factory : ClientFactory) :
    (run version fs).Ignores (.maker factory) false := by
  have hbatch : (Effect.modifySession fun s =>
      { s with batch := fs.truth "batch" }).Ignores (.maker factory) false :=
    .change (fun _ => rfl) nofun
  have hchosen : (chooseStore fs).Ignores (.maker factory) false := by
    unfold chooseStore
    refine .look (fun _ => rfl) fun p => ?_
    split
    · split
      · exact .throw _
      · exact .lift (.change (fun _ => rfl) nofun)
    · exact .pure _
  have hload : Session.load.Ignores (.maker factory) false := by
    unfold Session.load
    refine .look (fun _ => rfl) fun p => ?_
    split
    · exact .pure _
    · split
      · exact .throw _
      · exact .bind (.lift (Effect.ignores_remark _)) fun _ => .lift (.change (fun _ => rfl) nofun)
  have hmode : (Effect.modifySession fun s =>
      if s.batch then { s with settings := .batch } else s).Ignores (.maker factory) false := by
    refine Effect.ignores_modifySession (fun s _ _ => ?_) fun s => ?_
    · cases hs : s.batch <;> simp only [hs, Bool.false_eq_true, if_false, if_true]
    · split <;> rfl
  have hsettle : (settle version fs).Ignores (.maker factory) false :=
    .bind hchosen fun _ => .bind (.bind (.adapt hload) fun _ => .lift hmode) fun _ =>
      ignores_rest version fs
  have hplaces : Run.Ignores (.maker factory) false (do
      if placesConflict fs then throw .conflictingPlaces
      settle version fs : Run SetupError Unit) := by
    split
    · exact .bind (.throw _) fun _ => hsettle
    · exact hsettle
  unfold run
  dsimp only
  split
  · exact .bind (.lift hbatch) fun _ => hplaces
  · exact hplaces

/-- What comes behind an action that never finds anything. -/
theorem Run.bind_of_none {ε α β : Type} {r : Run ε (Option α)}
    (h : ∀ p a q, r.perform p ≠ (.ok (some a), q)) (f : Option α → Run ε β) :
    r >>= f = r >>= fun _ => f none := by
  refine ext fun p => ?_
  rw [perform_bind, perform_bind]
  rcases hr : r.perform p with ⟨e | _ | a, q⟩
  · rfl
  · rfl
  · exact absurd hr (h p a q)

namespace CommandLine

open Execution

variable {app : App} {c : Cursor}

theorem readCommand_of_trigger (program : String) (globals : FlagList) (command : Command)
    (h : Completion.trigger ∈ c.unread) :
    (readCommand program globals command c).Respects Mute ∧
      ∀ p d q, (readCommand program globals command c).perform p ≠ (.ok (some d), q) := by
  have hlanding := Descent.landing_of_trigger command h
  have hwalk (names : List String) : (logWalk names).Respects Mute := by
    induction names with
    | nil => exact .pure ()
    | cons name names ih => exact .bind (Effect.mute_log _ _) fun _ => ih
  unfold readCommand
  generalize Descent.read command c = found at hlanding
  obtain ⟨d, landing⟩ := found
  cases landing with
  | complete => exact absurd rfl hlanding
  | failed e =>
    refine ⟨.bind (.lift (hwalk _)) fun _ => .throw e, fun p d' q hp => ?_⟩
    cases hp
  | hints text =>
    refine ⟨.bind (.lift (hwalk _)) fun _ => .bind (.lift (Effect.mute_print text)) fun _ => .pure _,
      fun p d' q hp => ?_⟩
    cases hp
  | help =>
    refine ⟨.bind (.lift (hwalk _)) fun _ => .bind (.lift (.bind .session fun _ =>
      Effect.mute_print _)) fun _ => .pure _, fun p d' q hp => ?_⟩
    cases hp

theorem findCommand_of_trigger (app : App) (program : String) (globals : FlagList) (name : String)
    (h : Completion.trigger ∈ c.unread) :
    (findCommand app program globals name c).Respects Mute ∧
      ∀ p d q, (findCommand app program globals name c).perform p ≠ (.ok (some d), q) := by
  unfold findCommand
  cases Command.find? app.commands name with
  | some command =>
    obtain ⟨hmute, hnone⟩ := readCommand_of_trigger program globals command h
    refine ⟨.adapt hmute, fun p d q hp => ?_⟩
    rw [Run.perform_adapt] at hp
    rcases hr : (readCommand program globals command c).perform p with ⟨_ | d', q'⟩
    · rw [hr] at hp
      cases hp
    · rw [hr] at hp
      cases hp
      exact hnone _ _ _ hr
  | none =>
    dsimp only
    cases suggestion? name app.commands with
    | some other =>
      refine ⟨.bind (.lift (Effect.mute_log _ _)) fun _ => .throw _, fun p d q hp => ?_⟩
      cases hp
    | none =>
      refine ⟨.throw _, fun p d q hp => ?_⟩
      cases hp

/-- What is only shown leads to no command. -/
theorem none_of_shown (e : Effect Unit) (p : Execution) (prepared : Prepared) (q : Execution) :
    Run.perform (do
      e
      return none : Run ParseError (Option Prepared)) p ≠ (.ok (some prepared), q) := nofun

/-- **Where the trigger is to come behind the tool's options, no command is reached**; and all that
    happens ignores where the configuration is and how clients are made, and nobody complains. -/
theorem readBehindGlobals_of_trigger (app : App) (program : String) (globals : FlagList)
    (h : Completion.trigger ∈ c.unread) :
    (readBehindGlobals app program globals c).Respects Mute ∧
      (∀ p prepared q,
        (readBehindGlobals app program globals c).perform p ≠ (.ok (some prepared), q)) ∧
      ∀ x, (readBehindGlobals app program globals c).Ignores x false := by
  have hprint (text : String) : Run.Respects Mute (do
      Effect.print text
      return none : Run ParseError (Option Prepared)) :=
    .bind (.lift (Effect.mute_print _)) fun _ => .pure _
  have hhelp : Run.Respects Mute (do
      printAppHelp app program globals
      return none : Run ParseError (Option Prepared)) :=
    .bind (.lift (.bind .session fun _ => Effect.mute_print _)) fun _ => .pure _
  unfold readBehindGlobals
  split
  · exact ⟨hhelp, none_of_shown _, fun _ => .bind (.lift (ignores_printAppHelp _ _ _)) fun _ => .pure _⟩
  rename_i name behind hn
  split
  · exact ⟨hhelp, none_of_shown _, fun _ => .bind (.lift (ignores_printAppHelp _ _ _)) fun _ => .pure _⟩
  split
  · exact ⟨hprint _, none_of_shown _, fun _ => .bind (.lift (Effect.ignores_print _)) fun _ => .pure _⟩
  rename_i hname
  have hbehind : Completion.trigger ∈ behind.unread := by
    rw [Cursor.unread_of_next hn] at h
    exact (List.mem_cons.1 h).resolve_left fun e => hname e.symm
  obtain ⟨hmute, hnone⟩ := findCommand_of_trigger app program (belowTool globals) name hbehind
  have hadapted (p : Execution) (d : Descent) (q : Execution) :
      Run.perform (ExceptT.adapt ParseError.command
        (findCommand app program (belowTool globals) name behind)) p ≠ (.ok (some d), q) := by
    rw [Run.perform_adapt]
    rcases hf : (findCommand app program (belowTool globals) name behind).perform p with ⟨e | d', q'⟩
    · nofun
    · rintro ⟨⟩
      exact hnone _ _ _ hf
  dsimp only
  rw [Run.bind_of_none hadapted]
  refine ⟨.bind (.adapt hmute) fun _ => .pure _, fun p prepared q hp => ?_,
    fun _ => .bind (.adapt (reading_ignores.findCommand _ _ _ _ _)) fun _ => .pure _⟩
  rw [Run.perform_bind] at hp
  split at hp <;> cases hp

end CommandLine

/-! ## 3. Whole command lines -/

namespace CommandLine

open Execution

variable {app : App} {program : String} {rest : List String}

/-- The trigger is still to come when the tool's options are read. -/
theorem trigger_mem_behind {o : Opening} (h : Completion.trigger ∈ rest)
    (ho : opening? app (program :: rest) = some o) : Completion.trigger ∈ o.behind.unread := by
  have hcursor : (Cursor.mk (program :: rest) 0).next = (some program, ⟨program :: rest, 1⟩) := rfl
  unfold opening? at ho
  rw [hcursor] at ho
  dsimp only at ho
  split at ho
  · cases ho
  rw [answerNext_behind] at ho
  cases hv : Version.answer? app.version rest.head? with
  | some text =>
    rw [hv] at ho
    cases ho
  | none =>
    rw [hv] at ho
    dsimp only at ho
    split at ho
    · rename_i globals c hread
      cases ho
      exact Globals.trigger_mem_of_read hread h
    · cases ho

/-- **A command line with the trigger leads to no command.** -/
theorem none_of_trigger (app : App) (program : String) (h : Completion.trigger ∈ rest)
    (p q : Execution) (prepared : Prepared) :
    (read app (program :: rest)).perform p ≠ (.ok (some prepared), q) := by
  intro hread
  obtain ⟨line, hline⟩ := line?_of_perform_read hread
  obtain ⟨s, globals, w, hargs, hreads, _⟩ := reads_of_line? hline
  obtain ⟨_, rfl⟩ := List.cons.inj hargs
  exact hreads.untriggered h

/-- Reading such a line is done without complaints, and without a look at how clients are made. -/
theorem read_of_trigger (app : App) (program : String) (h : Completion.trigger ∈ rest) :
    (read app (program :: rest)).Respects Mute ∧
      ∀ factory, (read app (program :: rest)).Ignores (.maker factory) false := by
  cases ho : opening? app (program :: rest) with
  | none =>
    rcases read_of_no_opening ho with ⟨e, hread⟩ | ⟨text, hread⟩
    · rw [hread]
      exact ⟨.throw _, fun _ => .throw _⟩
    · rw [hread]
      exact ⟨.bind (.lift (Effect.mute_print _)) fun _ => .pure _,
        fun _ => .bind (.lift (Effect.ignores_print _)) fun _ => .pure _⟩
  | some o =>
    obtain ⟨hmute, _, hignores⟩ := readBehindGlobals_of_trigger app o.program o.globals
      (trigger_mem_behind h ho)
    rw [read_of_opening? ho]
    exact ⟨.bind (.adapt (Setup.mute_run _ _)) fun _ => hmute,
      fun factory => .bind (.adapt (Setup.ignores_run _ _ factory)) fun _ => hignores _⟩

end CommandLine

namespace App

open Execution

/-- Where a command line leads to no command, nothing comes after the reading. -/
theorem conclude_of_none (argv : List String) {outcome : Except ParseError (Option Prepared)}
    (h : ∀ prepared, outcome ≠ .ok (some prepared)) :
    ∃ result, (∀ q, (conclude argv outcome).perform q = (result, q)) ∧
      (argv.getLast? = some Completion.trigger → result = .ok ()) := by
  rcases outcome with e | _ | prepared
  · by_cases ht : argv.getLast? = some Completion.trigger
    · refine ⟨.ok (), fun q => ?_, fun _ => rfl⟩
      simp only [conclude, if_pos ht]
      rfl
    · refine ⟨.error (.parse e), fun q => ?_, fun h => absurd h ht⟩
      simp only [conclude, if_neg ht]
      rfl
  · exact ⟨.ok (), fun _ => rfl, fun _ => rfl⟩
  · exact absurd rfl (h prepared)

/-- **Asking for completions has no effects.**

    Run a command line that has the trigger anywhere behind the program's name. The reading leads to no
    command, and nothing comes after it: whatever other actions the tool's commands had, the run would
    be the same, and so it would be however clients are made. Nothing is written, and nobody complains.
    If the trigger is the last argument, the run succeeds, whatever comes before it.

    And wherever the trigger stands, it is taken for itself: as the value of an option of the tool or of
    a command, as an argument, and as the name of a command or a subcommand it is never read. -/
theorem run_of_trigger (app : App) (program : String) {rest : List String}
    (h : Completion.trigger ∈ rest) (p : Execution) :
    let argv := program :: rest
    let r := (run app argv).perform p
    (∀ prepared, ((CommandLine.read app argv).perform p).1 ≠ .ok (some prepared)) ∧
      r.2 = ((CommandLine.read app argv).perform p).2 ∧
      (∀ f, (run (app.recast f) argv).perform p = r) ∧
      (∀ factory, (run app argv).perform ((Exchange.maker factory).of p) =
        (r.1, (Exchange.maker factory).of r.2)) ∧
      p.Spares r.2 ∧ r.2.complaints = p.complaints ∧
      (rest.getLast? = some Completion.trigger → r.1 = .ok ()) ∧
      (∀ c, (Globals.read (Globals.flags app) c).1.Untriggered) ∧
      (∀ globals c behind, c.next = (some Completion.trigger, behind) →
        CommandLine.readBehindGlobals app program globals c = (do
          Effect.print (Completion.ofCommands app.commands)
          return none)) ∧
      ∀ command c, command.name ≠ Completion.trigger → (Descent.read command c).1.Untriggered := by
  intro argv r
  obtain ⟨hmute, hmaker⟩ := CommandLine.read_of_trigger app program h
  have hnone (prepared : Prepared) :
      ((CommandLine.read app argv).perform p).1 ≠ .ok (some prepared) := fun hp =>
    CommandLine.none_of_trigger app program h p _ prepared (Prod.ext hp rfl)
  have hrecast (f : Option Action → Option Action) :
      (CommandLine.read (app.recast f) argv).perform p = (CommandLine.read app argv).perform p := by
    rw [CommandLine.read_recast, Run.perform_map]
    rcases hr : (CommandLine.read app argv).perform p with ⟨e | _ | prepared, q⟩
    · rfl
    · rfl
    · exact absurd (congrArg Prod.fst hr) (hnone prepared)
  have hfactory (factory : ClientFactory) :=
    (hmaker factory).perform_of (p := p) fun hsaves => absurd hsaves Bool.false_ne_true
  obtain ⟨result, hend, hlast⟩ := conclude_of_none argv hnone
  have hr : r = (result, ((CommandLine.read app argv).perform p).2) := by
    rw [← hend, ← perform_run]
  refine ⟨hnone, congrArg Prod.snd hr, fun f => ?_, fun factory => ?_, ?_, ?_, fun htrigger => ?_,
    fun c => Globals.untriggered_read _ c (Globals.untriggered_flags app),
    fun globals c behind hn => ?_, fun command c hname => Descent.untriggered_read hname c⟩
  · rw [perform_run, hrecast, ← perform_run]
  · rw [perform_run, hfactory, hr]
    exact hend _
  · rw [hr]
    exact CommandLine.spares_read app argv p
  · rw [hr]
    exact hmute p
  · rw [hr]
    refine hlast ?_
    rw [List.getLast?_cons, htrigger]
    rfl
  · have hhelp : CommandLine.asksHelp Completion.trigger = false := by decide
    simp only [CommandLine.readBehindGlobals, hn, hhelp, Bool.false_eq_true, if_false, if_true]

/-- A shell asks in the midst of a command line that would forget everything. -/
theorem run_of_trigger_clear :
    let rest := ["settings", "clear", "--generate-bash-completion"]
    let p : Execution := { session := { store := some (.inMemory { settings := { host := "orion" } }) } }
    let r := (run Tool.app ("ngsi" :: rest)).perform p
    Completion.trigger ∈ rest ∧ p.Spares r.2 ∧ r.2.complaints = p.complaints ∧ r.1 = .ok () ∧
      ∀ f, (run (Tool.app.recast f) ("ngsi" :: rest)).perform p = r := by
  intro rest p r
  have h : Completion.trigger ∈ rest := by decide
  obtain ⟨_, _, hrecast, _, hspares, hmute, hlast, _⟩ := run_of_trigger Tool.app "ngsi" h p
  exact ⟨h, hspares, hmute, hlast (by decide), hrecast⟩

end App

end BrokerCli
