import BrokerCli.Proofs.Line
import BrokerCli.Proofs.Namesakes

/-!
# An option and the word beside it

An option with its value may stand anywhere behind the command that declares its flag: to exchange it with
the subcommand or argument beside it changes nothing, as long as it still comes to the same flag.

* `Walks.split`, `Walks.append` -- the way along parts may be cut anywhere, and put together again where no
  flag for truth values takes what comes behind the cut for its value;
* `Walks.unique` -- the parts determine where the way leads;
* `Ledger.record_without`, `Walked.record_down` -- an option is entered in the ledger before or after the
  flags of help begin anew and those of a subcommand join the others;
* `Walks.exchange_iff` -- so the option and the word may be exchanged;
* `App.parse_of_transposed` -- and the whole line comes to the same.
-/

namespace BrokerCli

open Grammar

/-! ## 1. The flag that an option comes to -/

/-- Of the flags without those of a name the same one is first, unless it has the name. -/
theorem FlagList.find?_without {fs : FlagList} {p : Flag → Bool} {f : Flag} {name : String}
    (h : fs.find? p = some f) (hn : f.name ≠ name) : List.find? p (fs.without name) = some f := by
  induction fs with
  | nil => cases h
  | cons g gs ih =>
    unfold without at ih ⊢
    rw [List.find?_cons] at h
    rw [List.filter_cons]
    split at h
    · rename_i hg
      cases h
      simp [hn, hg]
    · rename_i hg
      split
      · rw [List.find?_cons_of_neg (by simp [hg])]
        exact ih h
      · exact ih h

namespace Grammar

namespace Ledger

variable {l : Ledger} {o : OptionToken} {f : Flag} {name : String}

theorem record_append (h : l.flags.find? (·.answers o) = some f) (c : FlagContent) (m : Ledger) :
    record o c (l ++ m) = l.record o c ++ m := by
  induction l with
  | nil => cases h
  | cons e es ih =>
    by_cases he : e.flag.answers o = true
    · simp [record, he]
    · have hes : List.find? (·.answers o) (flags es) = some f := by simpa [flags, he] using h
      simp [record, he, ih hes]

/-- What is recorded at a flag of another name stays when the flags of a name are left out. -/
theorem record_without (h : l.flags.find? (·.answers o) = some f) (hn : f.name ≠ name) (c : FlagContent) :
    (l.record o c).without name = (l.without name).record o c := by
  unfold without
  induction l with
  | nil => cases h
  | cons e es ih =>
    by_cases he : e.flag.answers o = true
    · have hef : e.flag = f := by simpa [flags, he] using h
      have hen : e.blueprint.name ≠ name := by
        rw [← e.name_flag, hef]
        exact hn
      simp [record, he, hen]
    · have hes : List.find? (·.answers o) (flags es) = some f := by simpa [flags, he] using h
      by_cases hen : e.blueprint.name = name
      · simpa [record, he, hen] using ih hes
      · simpa [record, he, hen] using ih hes

end Ledger

namespace Walked

variable {w : Walked} {o : OptionToken} {f : Flag}

/-- One level further down an option comes to the same flag, unless that is help. -/
theorem find?_down (h : w.ledger.flags.find? (·.answers o) = some f) (hn : f.name ≠ "help") (c : Command) :
    (w.down c).ledger.flags.find? (·.answers o) = some f := by
  rw [down, Ledger.flags_append, Ledger.flags_without, List.find?_append, FlagList.find?_without h hn]
  rfl

theorem record_down (h : w.ledger.flags.find? (·.answers o) = some f) (hn : f.name ≠ "help") (c : Command)
    (k : FlagContent) : ({ w with ledger := w.ledger.record o k }).down c =
      { w.down c with ledger := (w.down c).ledger.record o k } := by
  have hfound : (w.ledger.without "help").flags.find? (·.answers o) = some f := by
    rw [Ledger.flags_without]
    exact FlagList.find?_without h hn
  simp only [down, Ledger.record_without h hn, Ledger.record_append hfound]

end Walked

end Grammar

/-! ## 2. What comes behind -/

/-- An option names no truth value. -/
theorem OptionToken.truthWord?_of_ofArgument? {arg : String} {o : OptionToken}
    (h : ofArgument? arg = some o) : Flag.truthWord? arg = none := by
  have hdash : ∃ cs, arg.toList = '-' :: cs := by
    unfold ofArgument? at h
    split at h
    · exact ⟨_, ‹_›⟩
    · cases h
    · exact ⟨_, ‹_›⟩
    · cases h
  obtain ⟨cs, hcs⟩ := hdash
  have hlower : ∃ ds, (Text.lower arg).toList = '-' :: ds := by
    rw [Text.lower, String.toList_ofList, hcs]
    exact ⟨_, rfl⟩
  obtain ⟨ds, hds⟩ := hlower
  unfold Flag.truthWord?
  split
  all_goals first
    | rfl
    | rename_i hw
      rw [hw] at hds
      cases hds

namespace Grammar

/-- What comes next names no truth value, if there is anything. -/
def Steady (rest : List String) : Prop := rest.head?.bind Flag.truthWord? = none

variable {l l' : Ledger} {rest rest' : List String}

/-- Of what comes behind it, a flag only sees whether that names a truth value. -/
theorem Takes.congr {f : Flag} {value : Option String} {c : FlagContent} (h : Takes f value rest c)
    (hr : Steady rest → Steady rest') : Takes f value rest' c := by
  cases h with
  | text hf => exact .text hf
  | number hf hs => exact .number hf hs
  | word hf hs => exact .word hf hs
  | bare hf hs => exact .bare hf (hr hs)

theorem Enters.congr {s : Segment} (h : Enters l s rest l') (hr : Steady rest → Steady rest') :
    Enters l s rest' l' := by
  cases h with
  | intro ho hf hc => exact .intro ho hf (hc.congr hr)

theorem steady_append (xs : List String) (hr : Steady rest → Steady rest') :
    Steady (xs ++ rest) → Steady (xs ++ rest') := by
  cases xs with
  | nil => exact hr
  | cons => exact id

theorem EntersAll.congr {ss : List Segment} (h : EntersAll l ss rest l')
    (hr : Steady rest → Steady rest') : EntersAll l ss rest' l' := by
  induction h with
  | nil l => exact .nil l _
  | cons hs _ ih => exact .cons (hs.congr (steady_append _ hr)) (ih hr)

/-! ## 3. The way, cut and put together -/

variable {w w' u : Walked} {pre post parts : List Part}

theorem steady_of_append (pre post : List Part) (h : Steady ((pre ++ post).flatMap Part.arguments)) :
    Steady (pre.flatMap Part.arguments) := by
  rw [List.flatMap_append] at h
  cases hpre : pre.flatMap Part.arguments with
  | nil => rfl
  | cons a rest =>
    rw [hpre] at h
    exact h

theorem Steady.append (hr : Steady (post.flatMap Part.arguments))
    (h : Steady (pre.flatMap Part.arguments)) : Steady ((pre ++ post).flatMap Part.arguments) := by
  rw [List.flatMap_append]
  cases hpre : pre.flatMap Part.arguments with
  | nil => exact hr
  | cons a rest =>
    rw [hpre] at h
    exact h

/-- **The way along parts may be cut anywhere.** -/
theorem Walks.split (h : Walks w (pre ++ post) w') : ∃ u, Walks w pre u ∧ Walks u post w' := by
  induction pre generalizing w with
  | nil => exact ⟨w, .done w, h⟩
  | cons part pre ih =>
    cases h with
    | option hs hh hrest =>
      obtain ⟨u, hpre, hpost⟩ := ih hrest
      exact ⟨u, .option (hs.congr (steady_of_append pre post)) hh hpre, hpost⟩
    | subcommand hn hg hc hrest =>
      obtain ⟨u, hpre, hpost⟩ := ih hrest
      exact ⟨u, .subcommand hn hg hc hpre, hpost⟩
    | argument hn hg hrest =>
      obtain ⟨u, hpre, hpost⟩ := ih hrest
      exact ⟨u, .argument hn hg hpre, hpost⟩

/-- Two ways are put together, where no flag for truth values takes what comes behind for its value. -/
theorem Walks.append (h : Walks w pre u) (h' : Walks u post w')
    (hr : Steady (post.flatMap Part.arguments)) : Walks w (pre ++ post) w' := by
  induction h with
  | done => exact h'
  | option hs hh _ ih => exact .option (hs.congr hr.append) hh (ih h')
  | subcommand hn hg hc _ ih => exact .subcommand hn hg hc (ih h')
  | argument hn hg _ ih => exact .argument hn hg (ih h')

theorem Takes.unique {f : Flag} {value : Option String} {c c' : FlagContent}
    (h : Takes f value rest c) (h' : Takes f value rest' c') : c = c' := by
  cases h with
  | text hf =>
    cases h' with
    | text hf' => rw [hf] at hf'; cases hf'; rfl
    | number hf' => rw [hf] at hf'; cases hf'
    | word hf' => rw [hf] at hf'; cases hf'
  | number hf hs =>
    cases h' with
    | text hf' => rw [hf] at hf'; cases hf'
    | number hf' hs' => rw [hs] at hs'; cases hs'; rfl
    | word hf' => rw [hf] at hf'; cases hf'
  | word hf hs =>
    cases h' with
    | text hf' => rw [hf] at hf'; cases hf'
    | number hf' => rw [hf] at hf'; cases hf'
    | word hf' hs' => rw [hs] at hs'; cases hs'; rfl
  | bare hf =>
    cases h' with
    | bare hf' => rfl

theorem Enters.unique {l l₁ l₂ : Ledger} {s : Segment} (h : Enters l s rest l₁) (h' : Enters l s rest' l₂) :
    l₁ = l₂ := by
  cases h with
  | intro ho hf hc =>
    cases h' with
    | intro ho' hf' hc' =>
      obtain rfl := Option.some.inj (ho.symm.trans ho')
      obtain rfl := Option.some.inj (hf.symm.trans hf')
      rw [hc.unique hc']

/-- **The parts determine where the way leads.** -/
theorem Walks.unique (h : Walks w parts u) (h' : Walks w parts w') : u = w' := by
  induction h with
  | done =>
    cases h'
    rfl
  | option hs _ _ ih =>
    cases h' with
    | option hs' _ hrest' =>
      obtain rfl := hs.unique hs'
      exact ih hrest'
  | subcommand _ _ hc _ ih =>
    cases h' with
    | subcommand _ _ hc' hrest' =>
      obtain rfl := Option.some.inj (hc.symm.trans hc')
      exact ih hrest'
  | argument _ _ _ ih =>
    cases h' with
    | argument _ _ hrest' => exact ih hrest'

/-! ## 4. The exchange -/

/-- The text of a part that is no option. -/
def Part.word? : Part → Option String
  | .option _ => none
  | .subcommand name => some name
  | .argument text => some text

/-- An option with its value sees nothing of what comes behind. -/
theorem Takes.of_value {f : Flag} {value : String} {c : FlagContent} (h : Takes f (some value) rest c) :
    Takes f (some value) rest' c := by
  cases h with
  | text hf => exact .text hf
  | number hf hs => exact .number hf hs
  | word hf hs => exact .word hf hs

variable {o : OptionToken} {f : Flag}

theorem Ledger.unset_help_record (hu : l.flags.isSet "help" = false)
    (h : l.flags.find? (·.answers o) = some f) (hn : f.name ≠ "help") (c : FlagContent) :
    (l.record o c).flags.isSet "help" = false := by
  have hnamed : (l.record o c).flags.named "help" = l.flags.named "help" := by
    rw [Ledger.flags_record c h]
    refine FlagList.named_replace_of_ne fun g hg => ?_
    obtain rfl := Option.some.inj (h.symm.trans hg)
    exact ⟨hn, hn⟩
  rw [FlagList.isSet, FlagList.get?_eq_head?_named, hnamed, ← FlagList.get?_eq_head?_named]
  exact hu

/-- **An option with its value, and the word beside it, may be exchanged**, if the option comes to a flag
    before both, and that is not help. -/
theorem Walks.exchange_iff {arg value t : String} {word : Part}
    (ho : OptionToken.ofArgument? arg = some o) (hf : u.ledger.flags.find? (·.answers o) = some f)
    (hn : f.name ≠ "help") (hu : u.ledger.flags.isSet "help" = false) (hword : word.word? = some t) :
    Walks u (.option ⟨arg, some value⟩ :: word :: post) w ↔
      Walks u (word :: .option ⟨arg, some value⟩ :: post) w := by
  constructor
  · intro h
    cases h with
    | option hs hh hrest =>
      cases hs with
      | @intro o' f' k ho' hf' hk =>
        obtain rfl := Option.some.inj (ho.symm.trans ho')
        obtain rfl := Option.some.inj (hf.symm.trans hf')
        cases hrest with
        | option => cases hword
        | @subcommand _ _ c name _ hname hg hc hrest =>
          have hhelp := (Walks.subcommand hname hg hc (.done _)).unset_help hh
          have hdown := u.record_down hf hn c k
          rw [hdown] at hrest hhelp
          exact .subcommand hname hg hc (.option (.intro ho (u.find?_down hf hn c) hk.of_value) hhelp hrest)
        | argument hname hg hrest =>
          exact .argument hname hg (.option (.intro ho hf hk.of_value) hh hrest)
  · intro h
    have hrecord := Ledger.unset_help_record hu hf hn
    cases h with
    | option => cases hword
    | @subcommand _ _ c name _ hname hg hc hrest =>
      cases hrest with
      | option hs hh hrest =>
        cases hs with
        | @intro o' f' k ho' hf' hk =>
          obtain rfl := Option.some.inj (ho.symm.trans ho')
          obtain rfl := Option.some.inj ((u.find?_down hf hn c).symm.trans hf')
          have hdown := u.record_down hf hn c k
          rw [← hdown] at hrest
          exact .option (.intro ho hf hk.of_value) (hrecord k) (.subcommand hname hg hc hrest)
    | argument hname hg hrest =>
      cases hrest with
      | option hs hh hrest =>
        cases hs with
        | @intro o' f' k ho' hf' hk =>
          obtain rfl := Option.some.inj (ho.symm.trans ho')
          obtain rfl := Option.some.inj (hf.symm.trans hf')
          exact .option (.intro ho hf hk.of_value) (hrecord k) (.argument hname hg hrest)

/-! ## 5. Whole command lines -/

/-- A line whose parts behind the command are put in another order, on a way to the same end. -/
theorem Split.Reads.of_parts {app : App} {s : Split} {globals : Ledger} {old : List Part}
    (h : Split.Reads app { s with parts := old } globals w)
    (hmem : ∀ a ∈ parts.flatMap Part.arguments, a ∈ old.flatMap Part.arguments)
    (hhelp : s.command.isGroup = true → Descent.asksHelp (parts.flatMap Part.arguments).head? = false)
    (hwalked : Walks (.start s.command) parts w) : Split.Reads app { s with parts } globals w where
  untriggered hm := by
    refine h.untriggered ?_
    rcases List.mem_append.1 hm with hm | hm
    · exact List.mem_append_left _ hm
    · refine List.mem_append_right _ ?_
      rcases List.mem_cons.1 hm with hm | hm
      · exact hm ▸ List.mem_cons_self
      · exact List.mem_cons_of_mem _ (hmem _ hm)
  unasked := by
    have hhead : (Split.body { s with parts }).head? = (Split.body { s with parts := old }).head? := by
      unfold Split.body
      cases s.globals.flatMap Segment.arguments <;> rfl
    rw [hhead]
    exact h.unasked
  entered := h.entered.congr id
  noOption := h.noOption
  noHelp := h.noHelp
  found := h.found
  noGroupHelp := hhelp
  walked := hwalked

/-- Whether the first argument asks for help, when only what comes behind `pre` is another. -/
theorem noHelp_of_append {part part' : Part} {a : String} {rest rest' : List Part}
    (hpart : part'.arguments.head? = some a) (ha : Descent.asksHelp (some a) = false)
    (h : Descent.asksHelp ((pre ++ part :: rest).flatMap Part.arguments).head? = false) :
    Descent.asksHelp ((pre ++ part' :: rest').flatMap Part.arguments).head? = false := by
  rw [List.flatMap_append, List.flatMap_cons] at h ⊢
  cases hpre : pre.flatMap Part.arguments with
  | nil =>
    rw [List.nil_append, List.head?_append, hpart]
    exact ha
  | cons b bs =>
    rw [hpre] at h
    exact h

/-- An option with its value and a word, which are next to each other behind `pre`. -/
structure Beside (s : Split) (pre : List Part) (u : Walked) (o : OptionToken) (f : Flag) (option word : Part) :
    Prop where
  before : Walks (.start s.command) pre u
  /-- A flag for texts or numbers always has a value. -/
  valued : ∃ arg value, option = .option ⟨arg, some value⟩ ∧ OptionToken.ofArgument? arg = some o
  /-- Where the option comes first, it comes to `f`. -/
  found : u.ledger.flags.find? (·.answers o) = some f
  noHelp : f.name ≠ "help"
  /-- The word asks for no help page, and names no truth value. -/
  plain : ∃ t, word.word? = some t ∧ t ≠ "help" ∧ t ≠ "h" ∧ Flag.truthWord? t = none

theorem Part.arguments_of_word? {word : Part} {t : String} (h : word.word? = some t) :
    word.arguments = [t] := by
  cases word with
  | option => cases h
  | subcommand name =>
    cases h
    rfl
  | argument text =>
    cases h
    rfl

/-- No option asks for help by a word. -/
theorem asksHelp_of_ofArgument? {arg : String} (ho : OptionToken.ofArgument? arg = some o) :
    Descent.asksHelp (some arg) = false := by
  refine Bool.eq_false_iff.2 fun h => ?_
  rcases Bool.or_eq_true_iff.1 h with h | h
  all_goals
    rw [of_decide_eq_true h] at ho
    cases ho

/-- **Both orders of an option and a word are read, or neither is**, and they come to the same. -/
theorem Beside.reads_iff {app : App} {s : Split} {globals : Ledger} {option word : Part}
    (h : Beside s pre u o f option word) :
    Split.Reads app { s with parts := pre ++ option :: word :: post } globals w ↔
      Split.Reads app { s with parts := pre ++ word :: option :: post } globals w := by
  obtain ⟨hu, ⟨arg, value, rfl, ho⟩, hf, hn, t, hword, hhelp, hh, htruth⟩ := h
  have hunset := hu.unset_help (Walked.unset_help_start s.command)
  have hasks : Descent.asksHelp (some t) = false := by simp [Descent.asksHelp, hhelp, hh]
  have hhead : word.arguments.head? = some t := by rw [Part.arguments_of_word? hword]; rfl
  have hmem {x y : Part} {a : String} (ha : a ∈ (pre ++ x :: y :: post).flatMap Part.arguments) :
      a ∈ (pre ++ y :: x :: post).flatMap Part.arguments := by
    obtain ⟨part, hpart, ha⟩ := List.mem_flatMap.1 ha
    exact List.mem_flatMap.2 ⟨part, ((List.Perm.swap y x post).append_left pre).mem_iff.1 hpart, ha⟩
  constructor
  · intro hr
    obtain ⟨u', hu', hpost⟩ := hr.walked.split
    obtain rfl := hu.unique hu'
    have hpost := (Walks.exchange_iff ho hf hn hunset hword).1 hpost
    refine Split.Reads.of_parts hr (fun a => hmem)
      (fun hg => noHelp_of_append hhead hasks (hr.noGroupHelp hg)) (hu.append hpost ?_)
    rw [List.flatMap_cons, Part.arguments_of_word? hword]
    exact htruth
  · intro hr
    obtain ⟨u', hu', hpost⟩ := hr.walked.split
    obtain rfl := hu.unique hu'
    have hpost := (Walks.exchange_iff ho hf hn hunset hword).2 hpost
    exact Split.Reads.of_parts hr (fun a => hmem)
      (fun hg => noHelp_of_append rfl (asksHelp_of_ofArgument? ho) (hr.noGroupHelp hg))
      (hu.append hpost (OptionToken.truthWord?_of_ofArgument? ho))

/-- Behind the word the option comes to the same flag. -/
theorem Beside.find?_behind {s : Split} {option word : Part} (h : Beside s pre u o f option word)
    (hu : Walks u [word] w) : w.ledger.flags.find? (·.answers o) = some f := by
  cases hu with
  | option =>
    obtain ⟨_, hword, _⟩ := h.plain
    cases hword
  | @subcommand _ _ c _ _ _ _ _ hrest =>
    cases hrest
    exact u.find?_down h.found h.noHelp c
  | argument _ _ hrest =>
    cases hrest
    exact h.found

end Grammar

/-- Lines that are read to the same end perform the same. -/
theorem App.perform_parse_congr {app : App} {s s' : Split} {globals : Ledger} {w : Walked}
    (h : s.Reads app globals w) (h' : s'.Reads app globals w) (hprogram : s'.program = s.program)
    (p : Execution) : (app.parse s'.arguments).perform p = (app.parse s.arguments).perform p := by
  rw [parse, parse, Run.perform_adapt, Run.perform_adapt,
    CommandLine.perform_read_of_line? (CommandLine.line?_of_reads h),
    CommandLine.perform_read_of_line? (CommandLine.line?_of_reads h'), hprogram]

/-- **An option with its value may stand anywhere behind the command that declares its flag.**

    An accepted line is one that is read in its parts. Let an option with its value stand beside a word -- the
    name of a subcommand, or an argument -- that neither asks for help nor names a truth value, and let it come
    to a flag that is not help when it stands first. Then it comes to the same flag when it stands behind the
    word. And whichever of the two the line has, the other order is read to the same end as well: the same
    command is returned, with the same chain, arguments, flags and clients, and nothing else happens. -/
theorem App.parse_of_transposed {app : App} {argv : List String} {p q : Execution} {prepared : Prepared}
    (h : (app.parse argv).perform p = (.ok (some prepared), q)) :
    (∃ s globals w, Split.arguments s = argv ∧ s.Reads app globals w) ∧
    ∀ (s : Split) (globals : Ledger) (w u : Walked) (pre post : List Part) (o : OptionToken) (f : Flag)
      (option word : Part), s.arguments = argv → s.Reads app globals w → Beside s pre u o f option word →
      let Same (parts : List Part) := Split.Reads app { s with parts } globals w ∧
        (app.parse (Split.arguments { s with parts })).perform p = (.ok (some prepared), q)
      (∀ u', Walks u [word] u' → u'.ledger.flags.find? (·.answers o) = some f) ∧
        (s.parts = pre ++ option :: word :: post → Same (pre ++ word :: option :: post)) ∧
        (s.parts = pre ++ word :: option :: post → Same (pre ++ option :: word :: post)) := by
  constructor
  · obtain ⟨line, _, _, _, hline, _⟩ := CommandLine.stages_of_read (read_of_parse h)
    obtain ⟨s, globals, w, hargs, hreads, _⟩ := CommandLine.reads_of_line? hline
    exact ⟨s, globals, w, hargs, hreads⟩
  intro s globals w u pre post o f option word hargs hr hbeside Same
  have hsame {parts : List Part} (h' : Split.Reads app { s with parts } globals w) : Same parts := by
    refine ⟨h', ?_⟩
    rw [perform_parse_congr hr h' rfl, hargs]
    exact h
  refine ⟨fun u' hu' => hbeside.find?_behind hu', fun hparts => hsame (hbeside.reads_iff.1 ?_),
    fun hparts => hsame (hbeside.reads_iff.2 ?_)⟩
  · rw [← hparts]
    exact hr
  · rw [← hparts]
    exact hr

namespace App

/-- A group whose flag is for all commands below it. -/
def shelf : Command :=
  { name := "shelf", flags := [.ofText "id" "" ["i"] {}], subcommands := [{ name := "book" }] }

/-- A tool with one group. -/
def shelving : App := { name := "ngsi", commands := [shelf] }

/-- The option before the subcommand, and behind it. -/
theorem parse_of_transposed_shelf :
    let p : Execution := { session := { store := some (.inMemory {}) } }
    ∃ prepared q,
      (shelving.parse ["ngsi", "shelf", "-i", "x", "book", "page"]).perform p = (.ok (some prepared), q) ∧
        (shelving.parse ["ngsi", "shelf", "book", "-i", "x", "page"]).perform p =
          (.ok (some prepared), q) := by
  intro p
  let s : Split := ⟨"ngsi", [], shelf, [.option ⟨"-i", some "x"⟩, .subcommand "book", .argument "page"]⟩
  have hwalks : Walks (.start shelf) s.parts _ :=
    .option (.intro (o := ⟨"", "i"⟩) (by decide) rfl (.text rfl)) rfl
      (.subcommand (c := { name := "book" }) (by decide) rfl rfl (.argument (by decide) rfl (.done _)))
  have hr : s.Reads shelving _ _ :=
    ⟨by decide, rfl, .nil _ _, by decide, by decide, rfl, fun _ => by decide, hwalks⟩
  have hbeside : Beside s [] (.start shelf) ⟨"", "i"⟩ _ (.option ⟨"-i", some "x"⟩) (.subcommand "book") :=
    ⟨.done _, ⟨_, _, rfl, by decide⟩, rfl, by decide, "book", rfl, by decide, by decide, by decide +kernel⟩
  have hok : ((shelving.parse s.arguments).perform p).1.toOption.join.isSome = true := by decide +kernel
  rcases h : (shelving.parse s.arguments).perform p with ⟨_ | _ | prepared, q⟩
  · simp [h, Except.toOption] at hok
  · simp [h, Except.toOption] at hok
  · obtain ⟨_, hboth⟩ := parse_of_transposed h
    obtain ⟨_, hbehind, _⟩ := hboth s _ _ _ [] [.argument "page"] _ _ _ _ rfl hr hbeside
    exact ⟨prepared, q, h, (hbehind rfl).2⟩

end App

end BrokerCli
