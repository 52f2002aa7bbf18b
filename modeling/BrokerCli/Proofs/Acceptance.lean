import BrokerCli.Proofs.Extension
import BrokerCli.Proofs.Line

/-!
# What is accepted

What the checks behind the reading demand of the flags and arguments of a command line, said of these
alone:

* `Accepted.Complete` -- what is required is there, and no argument is left over;
* `Accepted.Demanded` -- each flag that says itself that it is required is given;
* `Accepted.Worded` -- a flag for texts is given no empty text, unless it may;
* `Accepted.Agreed` -- the command's rule on two options is met;
* `Accepted.Chosen` -- a flag with choices is given one of them.

`Descent.verdict_iff` says that the checks come to just this, and that the error is that of the first
demand that is not met. Whether the flags were given by name, by position or from memory makes no
difference: the demands are on the flags at the end.
-/

namespace BrokerCli

/-! ## 1. The demands -/

/-- Whether a rule on two options is met. -/
def Rule.Met (fs : FlagList) : Rule → Prop
  | notBoth a b => ¬ (fs.isSet a = true ∧ fs.isSet b = true)
  | exactlyOne a b =>
    (fs.isSet a = true ∧ fs.isSet b = false) ∨ (fs.isSet a = false ∧ fs.isSet b = true)
  | unsupported => False

/-- A flag for texts that is given an empty text, and may not. -/
def Flag.Blank (f : Flag) : Prop :=
  ∃ features, f.content = .text "" features ∧ f.isSet = true ∧ features.allowEmpty = false

namespace Accepted

/-- Every required name is given, and no argument is left over where names are required. -/
def Complete (required : List String) (fs : FlagList) (args : List String) : Prop :=
  (∀ name ∈ required, fs.isSet name = true) ∧ (required ≠ [] → args = [])

/-- Every flag that says itself that it is required is given. -/
def Demanded (fs : FlagList) : Prop := ∀ f ∈ fs, f.required = true → f.isSet = true

/-- Every flag for texts that is given has a text, or may be empty. -/
def Worded (fs : FlagList) : Prop := ∀ f ∈ fs, ¬ f.Blank

/-- There are data, if data are given at all. -/
def Supplied (fs : FlagList) : Prop := ∀ f ∈ fs, f.name = "data" → ¬ f.Blank

/-- The command's rule is met, if it has one. -/
def Agreed (rule : Option Rule) (fs : FlagList) : Prop := ∀ r, rule = some r → r.Met fs

/-- Every flag with choices that is given has one of them as its text, in lower case. -/
def Chosen (fs : FlagList) : Prop :=
  ∀ f ∈ fs, ∀ text features choices, f.content = .text text features →
    features.choices = some choices → f.isSet = true → Text.lower text ∈ choices

end Accepted

open Accepted

/-! ## 2. What the complaints say -/

/-- A rule is met when it finds no violation. -/
theorem Rule.violation?_eq_none_iff (fs : FlagList) (r : Rule) :
    r.violation? fs = none ↔ r.Met fs := by
  cases r with
  | notBoth a b => simp [violation?, Met]
  | exactlyOne a b =>
    cases ha : fs.isSet a <;> cases hb : fs.isSet b <;> simp [violation?, Met, ha, hb]
  | unsupported => simp [violation?, Met]

theorem Accepted.agreed_iff (rule : Option Rule) (fs : FlagList) :
    Agreed rule fs ↔ rule.bind (·.violation? fs) = none := by
  unfold Agreed
  cases rule with
  | none => simp
  | some r =>
    rw [Option.bind_some, Rule.violation?_eq_none_iff]
    exact ⟨fun h => h r rfl, fun h r' hr => Option.some.inj hr ▸ h⟩

namespace Check

theorem isBlank_iff (f : Flag) : isBlank f = true ↔ f.Blank := by
  unfold isBlank Flag.Blank
  cases f.content with
  | text text features =>
    simp only [Bool.and_eq_true, Bool.not_eq_true', String.isEmpty_iff]
    constructor
    · rintro ⟨⟨hs, rfl⟩, ha⟩
      exact ⟨features, rfl, hs, ha⟩
    · rintro ⟨_, h, hs, ha⟩
      cases h
      exact ⟨⟨hs, rfl⟩, ha⟩
  | truth b => simp
  | number n => simp

theorem emptyValues_eq_nil_iff (fs : FlagList) : emptyValues fs = [] ↔ Worded fs := by
  unfold emptyValues Worded
  rw [List.map_eq_nil_iff, List.filter_eq_nil_iff]
  exact forall_congr' fun f => imp_congr_right fun _ => not_congr (isBlank_iff f)

theorem missedChoices?_eq_none_iff (f : Flag) :
    missedChoices? f = none ↔ ∀ text features choices, f.content = .text text features →
      features.choices = some choices → f.isSet = true → Text.lower text ∈ choices := by
  unfold missedChoices?
  cases hc : f.content with
  | text text features =>
    dsimp only
    cases hch : features.choices with
    | none =>
      refine ⟨fun _ _ _ _ h hc' => ?_, fun _ => rfl⟩
      cases h
      rw [hch] at hc'
      cases hc'
    | some choices =>
      constructor
      · rintro h _ _ _ h' hc' hs
        cases h'
        rw [hch] at hc'
        cases hc'
        by_contra hm
        simp [hs, hm] at h
      · intro h
        have hm := h text features choices rfl hch
        by_cases hs : f.isSet = true
        · simp [hs, hm hs]
        · simp [hs]
  | truth b => simp
  | number n => simp

theorem missedChoices_eq_nil_iff (fs : FlagList) : missedChoices fs = [] ↔ Chosen fs := by
  unfold missedChoices Chosen
  rw [List.filterMap_eq_nil_iff]
  refine forall_congr' fun f => imp_congr_right fun _ => ?_
  rw [Option.map_eq_none_iff, missedChoices?_eq_none_iff]

theorem notGiven_eq_nil_iff (fs : FlagList) (required : List String) :
    notGiven fs required = [] ↔ ∀ name ∈ required, fs.isSet name = true := by
  unfold notGiven
  rw [List.map_eq_nil_iff, List.filter_eq_nil_iff]
  simp

theorem ownDemands_eq_nil_iff (fs : FlagList) :
    ownDemands fs = [] ↔ Demanded fs ∧ Supplied fs := by
  have hone (f : Flag) : ((if f.required && !f.isSet then [Complaint.requiredUnset f.name] else []) ++
      (if f.name = "data" && isBlank f then [.emptyData] else [])) = [] ↔
      (f.required = true → f.isSet = true) ∧ (f.name = "data" → ¬ f.Blank) := by
    rw [List.append_eq_nil_iff, ← isBlank_iff]
    simp
  unfold ownDemands Demanded Supplied
  rw [List.flatMap_eq_nil_iff]
  constructor
  · intro h
    exact ⟨fun f hf => ((hone f).1 (h f hf)).1, fun f hf => ((hone f).1 (h f hf)).2⟩
  · rintro ⟨hd, hs⟩ f hf
    exact (hone f).2 ⟨hd f hf, hs f hf⟩

end Check

/-! ## 3. The verdict -/

namespace Descent

variable (d : Descent) (s : Settings) (servers : ServerTable)

/-- Nothing that is required is missing, misplaced or left over. -/
def Provided (fs : FlagList) : Prop :=
  Complete d.required fs d.leftOver ∧ Demanded fs ∧ Supplied fs

/-- Where the arguments by position meet no complaint, the first check demands what is required. -/
theorem isShort_eq_false_iff (hp : d.placed.2 = []) :
    d.isShort (d.filled s servers) = false ↔ d.Provided (d.filled s servers) := by
  have hleft : (!d.required.isEmpty && !d.leftOver.isEmpty) = false ↔
      (d.required ≠ [] → d.leftOver = []) := by
    cases d.required <;> cases d.leftOver <;> simp
  unfold isShort shortfall Provided Complete
  rw [hp, Bool.or_eq_false_iff, Bool.or_eq_false_iff, hleft]
  simp only [List.isEmpty_nil, Bool.not_true, and_true, Bool.not_eq_false', List.isEmpty_iff,
    List.append_eq_nil_iff, Check.ownDemands_eq_nil_iff]
  by_cases he : d.engages = true
  · rw [if_pos he]
    have hall (name : String) (hn : name ∈ d.required) :
        (d.filled s servers).isSet name = true := d.isSet_filled_of_engages s servers he hp hn
    constructor
    · rintro ⟨hl, _, hown⟩
      exact ⟨⟨hall, hl⟩, hown⟩
    · rintro ⟨⟨_, hl⟩, hown⟩
      exact ⟨hl, rfl, hown⟩
  · rw [if_neg he, Check.notGiven_eq_nil_iff]
    constructor
    · rintro ⟨hl, hall, hown⟩
      exact ⟨⟨hall, hl⟩, hown⟩
    · rintro ⟨⟨hall, hl⟩, hown⟩
      exact ⟨hl, hall, hown⟩

/-- An accepted line has met no complaint about arguments by position. -/
theorem placed_of_verdict {d d' : Descent} {s : Settings} {servers : ServerTable}
    (h : d.verdict s servers = .ok d') : d.placed.2 = [] := by
  unfold verdict at h
  dsimp only at h
  split at h
  · cases h
  · rename_i hshort
    simp only [isShort, Bool.or_eq_true, not_or] at hshort
    simpa using hshort.1.2

/-- **What the checks demand, and which error they raise**: that of the first demand which is not met,
    where arguments by position have met no complaint. Data that are given but empty count as missing,
    before any other flag without a text. -/
theorem verdict_iff (hp : d.placed.2 = []) :
    let fs := d.filled s servers
    (d.verdict s servers = .ok { d with flags := fs, args := d.leftOver } ↔
      d.Provided fs ∧ Worded fs ∧ Agreed d.command.rule fs ∧ Chosen fs) ∧
    (d.verdict s servers = .error .missing ↔ ¬ d.Provided fs) ∧
    (d.verdict s servers = .error .emptyValues ↔ d.Provided fs ∧ ¬ Worded fs) ∧
    (∀ e, d.verdict s servers = .error (.rule e) ↔
      d.Provided fs ∧ Worded fs ∧ d.command.rule.bind (·.violation? fs) = some e) ∧
    (d.verdict s servers = .error .missedChoices ↔
      d.Provided fs ∧ Worded fs ∧ Agreed d.command.rule fs ∧ ¬ Chosen fs) := by
  have hshort := d.isShort_eq_false_iff s servers hp
  unfold verdict
  generalize d.filled s servers = fs at hshort ⊢
  dsimp only
  have hempty : (!(Check.emptyValues fs).isEmpty) = false ↔ Worded fs := by
    rw [← Check.emptyValues_eq_nil_iff]
    simp
  have hchoice : (!(Check.missedChoices fs).isEmpty) = false ↔ Chosen fs := by
    rw [← Check.missedChoices_eq_nil_iff]
    simp
  have hrule := agreed_iff d.command.rule fs
  rw [← hshort, ← hempty, ← hchoice, hrule]
  generalize d.isShort fs = short
  generalize (!(Check.emptyValues fs).isEmpty) = empty
  generalize d.command.rule.bind (·.violation? fs) = violation
  generalize (!(Check.missedChoices fs).isEmpty) = missed
  cases short <;> cases empty <;> cases violation <;> cases missed <;> simp

end Descent

/-! ## 4. Whole command lines -/

open Grammar

/-- An accepted line meets all demands. -/
theorem Descent.demands_of_verdict {d d' : Descent} {s : Settings} {servers : ServerTable}
    (h : d.verdict s servers = .ok d') :
    d'.command = d.command ∧ d'.required = d.required ∧
      d'.flags.map Flag.declaration = d.flags.map Flag.declaration ∧
      Complete d'.required d'.flags d'.args ∧ Demanded d'.flags ∧ Worded d'.flags ∧
      Agreed d'.command.rule d'.flags ∧ Chosen d'.flags := by
  have hp := placed_of_verdict h
  have heq := eq_of_verdict h
  subst heq
  obtain ⟨⟨hcomplete, hdemanded, _⟩, hworded, hagreed, hchosen⟩ :=
    (d.verdict_iff s servers hp).1.1 h
  exact ⟨rfl, rfl, (d.extends_filled s servers).declarations, hcomplete, hdemanded, hworded, hagreed,
    hchosen⟩

/-- What reading comes to for a line, once the session is set up: the error of the checks, or what the
    clients come to. -/
theorem App.perform_parse_of_reads {app : App} {s : Split} {globals : Ledger} {w : Walked}
    (hr : s.Reads app globals w) {p r : Execution}
    (hs : (Setup.run app.version globals.flags).perform p = (.ok (), r)) :
    (∀ e, ((CommandLine.check w.descent).perform r).1 = .error e →
      ((app.parse s.arguments).perform p).1 =
        .error ((ParseError.command (.descent e)).fault.wrap "Parse" 1)) ∧
    (∀ d, ((CommandLine.check w.descent).perform r).1 = .ok d →
      ∃ t, ((app.parse s.arguments).perform p).1 =
        (((CommandLine.connect s.program (CommandLine.belowTool globals.flags) d).perform t).1.map
          some).mapError fun e => (ParseError.connect e).fault.wrap "Parse" 1) := by
  obtain ⟨t, _, hfinish⟩ := CommandLine.perform_finish ⟨s.program, globals.flags, w.descent⟩ r
  rw [(CommandLine.perform_check r w.descent).1, parse, Run.perform_adapt,
    CommandLine.perform_read_of_line? (CommandLine.line?_of_reads hr), CommandLine.settle,
    Run.perform_bind, Run.perform_adapt, hs]
  simp only [Run.mapError_ok, hfinish]
  constructor
  · intro e he
    rw [he]
    rfl
  · intro d hd
    refine ⟨t, ?_⟩
    rw [hd]
    dsimp only
    cases ((CommandLine.connect s.program (CommandLine.belowTool globals.flags) d).perform t).1 <;> rfl

/-- **What a returned command meets, and why a command line is refused.**

    The flags that go with a returned command are those that the commands of its chain declare, and at
    the end, whether given by name, by position or from memory, they meet every demand.

    Conversely, when a line is read to its end, the session is set up, and arguments by position met no
    complaint, the checks accept the line if the demands are met; otherwise their error is that of the
    first demand which is not met, in the order: required, empty, rule, choices. -/
theorem App.parse_accepts (app : App) (argv : List String) (p : Execution) :
    (∀ q prepared, (app.parse argv).perform p = (.ok (some prepared), q) →
      ∃ (s : Split) (globals : Ledger) (w : Walked), s.arguments = argv ∧ s.Reads app globals w ∧
        prepared.command = w.command ∧
        prepared.invocation.required = w.levels.flatMap (·.required) ∧
        prepared.invocation.flags.map Flag.declaration =
          (Walked.accumulated w.levels).map Flag.declaration ∧
        Complete prepared.invocation.required prepared.invocation.flags prepared.invocation.args ∧
        Demanded prepared.invocation.flags ∧ Worded prepared.invocation.flags ∧
        Agreed prepared.command.rule prepared.invocation.flags ∧
        Chosen prepared.invocation.flags) ∧
    (∀ (s : Split) (globals : Ledger) (w : Walked) (r : Execution), s.arguments = argv →
      s.Reads app globals w → (Setup.run app.version globals.flags).perform p = (.ok (), r) →
      w.descent.placed.2 = [] →
      let fs := w.descent.filled r.session.settings r.session.servers
      let checked := ((CommandLine.check w.descent).perform r).1
      (∀ e, checked = .error e → ((app.parse argv).perform p).1 =
        .error ((ParseError.command (.descent e)).fault.wrap "Parse" 1)) ∧
      (∀ d, checked = .ok d → ∃ t, ((app.parse argv).perform p).1 =
        (((CommandLine.connect s.program (CommandLine.belowTool globals.flags) d).perform t).1.map
          some).mapError fun e => (ParseError.connect e).fault.wrap "Parse" 1) ∧
      (checked = .ok { w.descent with flags := fs, args := w.descent.leftOver } ↔
        w.descent.Provided fs ∧ Worded fs ∧ Agreed w.command.rule fs ∧ Chosen fs) ∧
      (checked = .error .missing ↔ ¬ w.descent.Provided fs) ∧
      (checked = .error .emptyValues ↔ w.descent.Provided fs ∧ ¬ Worded fs) ∧
      (∀ e, checked = .error (.rule e) ↔ w.descent.Provided fs ∧ Worded fs ∧
        w.command.rule.bind (·.violation? fs) = some e) ∧
      (checked = .error .missedChoices ↔ w.descent.Provided fs ∧ Worded fs ∧
        Agreed w.command.rule fs ∧ ¬ Chosen fs)) := by
  refine ⟨fun q prepared h => ?_, fun s globals w r ha hr hs hp => ?_⟩
  · obtain ⟨line, r, checked, t, hline, _, hverdict, _, hconnect⟩ :=
      CommandLine.stages_of_read (read_of_parse h)
    obtain ⟨s, globals, w, hargs, hreads, rfl⟩ := CommandLine.reads_of_line? hline
    obtain ⟨hcommand, _, _, _, hrequired, hflags, harg⟩ := CommandLine.prepared_of_connect hconnect
    obtain ⟨hc, hn, hd, hdemands⟩ := Descent.demands_of_verdict hverdict
    refine ⟨s, globals, w, hargs, hreads, hcommand.trans hc, hrequired.trans hn, ?_, ?_⟩
    · rw [hflags]
      exact hd.trans (hreads.walked.declarations (Walked.declarations_start s.command))
    · rw [hcommand, hrequired, hflags, harg]
      exact hdemands
  · intro fs checked
    subst ha
    have hchecked : checked = w.descent.verdict r.session.settings r.session.servers :=
      (CommandLine.perform_check r w.descent).1
    obtain ⟨hrefused, hconnected⟩ := perform_parse_of_reads hr hs
    refine ⟨hrefused, hconnected, ?_⟩
    rw [hchecked]
    exact w.descent.verdict_iff r.session.settings r.session.servers hp

/-- With a host the command is returned; without one the first demand is not met. -/
theorem App.parse_accepts_resolve :
    let p : Execution := { session := { store := some (.inMemory {}) } }
    (∃ q prepared, (Tool.app.parse ["ngsi", "resolve", "-h", "http://localhost"]).perform p =
        (.ok (some prepared), q) ∧ Demanded prepared.invocation.flags) ∧
      ((Tool.app.parse ["ngsi", "resolve"]).perform p).1 =
        .error ((ParseError.command (.descent .missing)).fault.wrap "Parse" 1) := by
  intro p
  refine ⟨?_, ?_⟩
  · have hsome : ((Tool.app.parse ["ngsi", "resolve", "-h", "http://localhost"]).perform
        p).1.toOption.join.isSome = true := by decide +kernel
    rcases hp : (Tool.app.parse ["ngsi", "resolve", "-h", "http://localhost"]).perform p with
      ⟨_ | _ | prepared, q⟩
    · simp [hp, Except.toOption] at hsome
    · simp [hp, Except.toOption] at hsome
    · obtain ⟨_, _, _, _, _, _, _, _, _, hdemanded, _⟩ :=
        (App.parse_accepts Tool.app _ p).1 q prepared hp
      exact ⟨q, prepared, rfl, hdemanded⟩
  · have hline : ((CommandLine.line? Tool.app ["ngsi", "resolve"]).any fun line =>
        let setup := (Setup.run Tool.app.version line.globals).perform p
        line.descent.placed.2.isEmpty && (setup.1.toBool && line.descent.isShort
          (line.descent.filled setup.2.session.settings setup.2.session.servers))) = true := by
      decide +kernel
    obtain ⟨line, hl, hrest⟩ := (Option.any_eq_true _ _).1 hline
    obtain ⟨s, globals, w, hargs, hreads, rfl⟩ := CommandLine.reads_of_line? hl
    obtain ⟨hplaced, hsetup⟩ := (Bool.and_eq_true_iff).1 hrest
    have hp : w.descent.placed.2 = [] := List.isEmpty_iff.1 hplaced
    rcases hs : (Setup.run Tool.app.version globals.flags).perform p with ⟨_ | _, r⟩
    · simp [hs, Except.toBool] at hsetup
    · simp only [hs, Except.toBool, Bool.true_and] at hsetup
      have hmissing : ¬ w.descent.Provided (w.descent.filled r.session.settings r.session.servers) := by
        rw [← w.descent.isShort_eq_false_iff _ _ hp, hsetup]
        decide
      obtain ⟨hrefused, _, _, hiff, _⟩ :=
        (App.parse_accepts Tool.app _ p).2 s globals w r hargs hreads hs hp
      exact hrefused _ (hiff.2 hmissing)

end BrokerCli
