import BrokerCli.Proofs.Choices
import BrokerCli.Proofs.Shorthand

/-!
# Given, and yet missing

A name may be declared more than once on the way down to a command. Options by name, arguments by position,
the memory, and every question by name know the FIRST flag of a name only. But what flags demand for
themselves is demanded by each of them, so that a name that was given can be reported missing:

* `FlagList.named`, `FlagList.behind` -- the flags of a name, and those behind the first;
* `Check.about_ownDemands` and its like -- the complaints about a name are those of the flags of the name;
* `Walks.isSet_of_option`, `Walks.unset_behind` -- an option by name gives the first flag of its name,
  whatever is read behind it, and no flag behind the first;
* `Descent.named_filled` -- neither arguments by position nor the memory touch the flags of a name that was
  given;
* `App.complaints_of_given` -- the checks complain about such a name on behalf of the flags behind the first,
  and of no other.

`App.given_and_missing` is a line whose option is accepted and whose flag is reported missing.
-/

namespace BrokerCli

open Grammar

/-! ## 1. The flags of a name -/

namespace FlagList

variable {fs : FlagList} {f : Flag} {name other : String} {p : Flag → Bool}

/-- The flags of a name, in order. -/
def named (fs : FlagList) (name : String) : FlagList := fs.filter (·.name = name)

/-- The flags of a name behind the first. -/
def behind (fs : FlagList) (name : String) : FlagList := (fs.named name).tail

theorem get?_eq_head?_named (fs : FlagList) (name : String) : fs.get? name = (fs.named name).head? :=
  (List.head?_filter ..).symm

theorem isSet_iff_named : fs.isSet name = true ↔
    ∃ f, f.isSet = true ∧ fs.named name = f :: fs.behind name := by
  rw [isSet, get?_eq_head?_named, Option.any_eq_true, behind]
  cases fs.named name <;> simp [and_comm]

theorem isSet_of_named {gs : FlagList} (h : fs.named name = f :: gs) (hf : f.isSet = true) :
    fs.isSet name = true := by
  rw [isSet, get?_eq_head?_named, h]
  exact hf

@[simp] theorem named_append (fs gs : FlagList) (name : String) :
    named (fs ++ gs) name = fs.named name ++ gs.named name := List.filter_append ..

theorem named_without (fs : FlagList) (h : name ≠ other) :
    (fs.without other).named name = fs.named name := by
  unfold named without
  rw [List.filter_filter]
  refine List.filter_congr fun f _ => ?_
  by_cases hf : f.name = name
  · simp [hf, h]
  · simp [hf]

/-- An exchange of a flag for one of its own name is none for other names. -/
theorem named_replace_of_ne (h : ∀ g, fs.find? p = some g → g.name ≠ name ∧ f.name ≠ name) :
    named (replace p f fs) name = fs.named name := by
  induction fs with
  | nil => rfl
  | cons g gs ih =>
    by_cases hg : p g = true
    · obtain ⟨hold, hnew⟩ := h g (by simp [hg])
      simp [replace, named, hg, hold, hnew]
    · have hgs := ih (by simpa [hg] using h)
      unfold named at hgs ⊢
      rw [replace, if_neg hg, List.filter_cons, List.filter_cons, hgs]

/-- An exchange of the first flag of a name. -/
theorem named_replace (hf : f.name = name) (h : fs.has name = true) :
    named (replace (·.name = name) f fs) name = f :: fs.behind name := by
  induction fs with
  | nil => cases h
  | cons g gs ih =>
    by_cases hg : g.name = name
    · simp [replace, named, behind, hg, hf]
    · have hgs : has gs name = true := by simpa [has, get?, hg] using h
      simpa [replace, named, behind, hg] using ih hgs

/-- What is offered to a name is offered to the first of its flags. -/
theorem named_offered (table : String → String) (fs : FlagList) (name : String) :
    (offered table fs).named name = (fs.named name).modifyHead (·.offered (table name)) := by
  induction fs generalizing table with
  | nil => rfl
  | cons f fs ih =>
    have hrest := ih (Function.update table f.name "")
    unfold named at hrest ⊢
    rw [offered, List.filter_cons, List.filter_cons, hrest, Flag.name_offered]
    by_cases hf : f.name = name
    · have hnothing : (fun g : Flag => g.offered "") = id := funext Flag.offered_empty
      rw [if_pos (decide_eq_true hf), if_pos (decide_eq_true hf), hf, Function.update_self, hnothing,
        List.modifyHead_id]
      rfl
    · simp [hf, Function.update_of_ne (Ne.symm hf)]

end FlagList

/-! ## 2. The complaints about a name -/

/-- The name that a complaint is about. -/
def Complaint.name : Complaint → String
  | undeclared name => name
  | refused name _ => name
  | notGiven name => name
  | requiredUnset name => name
  | emptyData => "data"
  | emptyValue name => name
  | noChoice name _ => name

namespace Check

variable {fs : FlagList} {name : String}

/-- Where each flag complains about itself, the complaints about a name are those of the flags of the name. -/
theorem about_flatMap {check : Flag → List Complaint} (h : ∀ f, ∀ c ∈ check f, c.name = f.name)
    (fs : FlagList) (name : String) :
    (fs.flatMap check).filter (·.name = name) = (fs.named name).flatMap check := by
  unfold FlagList.named
  induction fs with
  | nil => rfl
  | cons f fs ih =>
    rw [List.flatMap_cons, List.filter_append, ih, List.filter_cons]
    by_cases hf : f.name = name
    · have hall : (check f).filter (·.name = name) = check f :=
        List.filter_eq_self.2 fun c hc => by simp [h f c hc, hf]
      simp [hf, hall]
    · have hnone : (check f).filter (·.name = name) = [] :=
        List.filter_eq_nil_iff.2 fun c hc => by simp [h f c hc, hf]
      simp [hf, hnone]

theorem about_ownDemands (fs : FlagList) (name : String) :
    (ownDemands fs).filter (·.name = name) = ownDemands (fs.named name) := by
  refine about_flatMap (fun f c hc => ?_) fs name
  rcases List.mem_append.1 hc with hc | hc
  · split at hc
    · rw [List.mem_singleton.1 hc]
      rfl
    · cases hc
  · split at hc
    · rename_i hdata
      rw [List.mem_singleton.1 hc]
      exact (of_decide_eq_true (Bool.and_eq_true_iff.1 hdata).1).symm
    · cases hc

theorem about_emptyValues (fs : FlagList) (name : String) :
    (emptyValues fs).filter (·.name = name) = emptyValues (fs.named name) := by
  unfold emptyValues FlagList.named
  rw [List.filter_map, List.filter_filter, List.filter_filter]
  refine congrArg _ (List.filter_congr fun f _ => ?_)
  exact Bool.and_comm _ _

theorem about_missedChoices (fs : FlagList) (name : String) :
    (missedChoices fs).filter (·.name = name) = missedChoices (fs.named name) := by
  rw [missedChoices, missedChoices, List.filterMap_eq_flatMap_toList, List.filterMap_eq_flatMap_toList]
  refine about_flatMap (fun f c hc => ?_) fs name
  obtain ⟨choices, _, rfl⟩ := Option.map_eq_some_iff.1 (Option.mem_toList.1 hc)
  rfl

end Check

/-! ## 3. The way down -/

/-- An option by name is one for the flags of the name. -/
theorem Flag.answers_name {name : String} (h : name ≠ "") (f : Flag) :
    f.answers ⟨name, ""⟩ = decide (f.name = name) := by
  have hname : name.isEmpty = false := Bool.eq_false_iff.2 (mt String.isEmpty_iff.1 h)
  have hshort : "".isEmpty = true := rfl
  simp only [answers, answersTo, hname, hshort, Bool.not_false, Bool.true_and, Bool.not_true,
    Bool.false_and, Bool.or_false]
  rfl

/-- An option without a name is nobody's. -/
theorem Flag.answers_nothing (f : Flag) : f.answers ⟨"", ""⟩ = false := by
  have hempty : "".isEmpty = true := rfl
  simp [answers, answersTo, hempty]

/-- What begins with two dashes is an option by name. -/
theorem OptionToken.eq_of_ofArgument? {name : String} {o : OptionToken}
    (h : ofArgument? ("--" ++ name) = some o) : o = ⟨name, ""⟩ := by
  have hdashes : ("--" ++ name).toList = '-' :: '-' :: name.toList := String.toList_append
  unfold ofArgument? at h
  rw [hdashes] at h
  cases hn : name.toList with
  | nil =>
    rw [hn] at h
    cases h
  | cons c cs =>
    rw [hn] at h
    cases h
    rw [← hn, String.ofList_toList]

namespace Grammar

variable {w w' : Walked} {parts : List Part} {name : String}

/-- An option by name is entered at the first flag of the name. -/
theorem Enters.named {l l' : Ledger} {s : Segment} {rest : List String} {o : OptionToken}
    (h : Enters l s rest l') (ho : OptionToken.ofArgument? s.arg = some o) (hname : o.shortName = "") :
    (∃ f, f.isSet = true ∧ l'.flags.named o.name = f :: l.flags.behind o.name) ∧
      ∀ other ≠ o.name, l'.flags.named other = l.flags.named other := by
  cases h with
  | @intro o' f c ho' hf hc =>
    obtain rfl := Option.some.inj (ho.symm.trans ho')
    obtain ⟨n, short⟩ := o
    subst hname
    have hn : n ≠ "" := by
      rintro rfl
      have hanswers := List.find?_some hf
      rw [Flag.answers_nothing] at hanswers
      cases hanswers
    have hby : (·.answers ⟨n, ""⟩) = fun f : Flag => decide (f.name = n) :=
      funext fun f => f.answers_name hn
    rw [Ledger.flags_record c hf, hby]
    rw [hby] at hf
    have hfn : f.name = n := FlagList.name_of_get? hf
    have hhas : FlagList.has l.flags n = true := by
      rw [FlagList.has, FlagList.get?, hf]
      rfl
    refine ⟨⟨f.setTo c, rfl, FlagList.named_replace hfn hhas⟩, fun other hother => ?_⟩
    refine FlagList.named_replace_of_ne fun g hg => ?_
    have hgn : g.name = n := FlagList.name_of_get? hg
    exact ⟨fun e => hother (e.symm.trans hgn), fun e => hother (e.symm.trans hfn)⟩

/-- The flags of a name that is not help, one level further down. -/
theorem Walked.named_down (w : Walked) (c : Command) (h : name ≠ "help") :
    (w.down c).ledger.flags.named name =
      w.ledger.flags.named name ++ (declared c).reset.named name := by
  simp only [down, Ledger.flags_append, Ledger.flags_without, Ledger.flags_declare,
    FlagList.named_append, FlagList.named_without _ h]

/-- What was given stays given. -/
theorem Walks.isSet (h : Walks w parts w') (hname : name ≠ "help")
    (hw : w.ledger.flags.isSet name = true) : w'.ledger.flags.isSet name = true := by
  induction h with
  | done => exact hw
  | option hs _ _ ih => exact ih (hs.extends.isSet hw)
  | @subcommand w _ c _ _ _ _ _ _ ih =>
    obtain ⟨f, hf, hnamed⟩ := FlagList.isSet_iff_named.1 hw
    have hdown := w.named_down c hname
    rw [hnamed, List.cons_append] at hdown
    exact ih (FlagList.isSet_of_named hdown hf)
  | argument _ _ _ ih => exact ih hw

/-- **An option by name gives the first flag of the name**, whatever is read behind it. -/
theorem Walks.isSet_of_option {value : Option String} (h : Walks w parts w')
    (hgiven : Part.option ⟨"--" ++ name, value⟩ ∈ parts) : w'.ledger.flags.isSet name = true := by
  induction h with
  | done => cases hgiven
  | @option w w' l s parts hs hhelp hrest ih =>
    rcases List.mem_cons.1 hgiven with he | hgiven
    · cases he
      have hset : l.flags.isSet name = true := by
        cases hs with
        | @intro o f c ho hf hc =>
          obtain rfl := OptionToken.eq_of_ofArgument? ho
          obtain ⟨⟨f, hf, hnamed⟩, _⟩ := Enters.named (.intro ho hf hc) ho rfl
          exact FlagList.isSet_of_named hnamed hf
      refine hrest.isSet ?_ hset
      rintro rfl
      rw [hhelp] at hset
      cases hset
    · exact ih hgiven
  | subcommand _ _ _ _ ih => exact ih ((List.mem_cons.1 hgiven).resolve_left nofun)
  | argument _ _ _ ih => exact ih ((List.mem_cons.1 hgiven).resolve_left nofun)

/-- **Options by name give no flag behind the first of its name.** -/
theorem Walks.unset_behind (h : Walks w parts w') (hname : name ≠ "help")
    (hnames : ∀ s, Part.option s ∈ parts → ∀ o, OptionToken.ofArgument? s.arg = some o → o.shortName = "")
    (hw : ∀ f ∈ w.ledger.flags.behind name, f.isSet = false) :
    ∀ f ∈ w'.ledger.flags.behind name, f.isSet = false := by
  induction h with
  | done => exact hw
  | @option w w' l s parts hs hhelp hrest ih =>
    refine ih (fun s hs => hnames s (List.mem_cons_of_mem _ hs)) ?_
    have hbehind : l.flags.behind name = w.ledger.flags.behind name := by
      cases hs with
      | @intro o f c ho hf hc =>
        obtain ⟨⟨f, _, hfirst⟩, hothers⟩ :=
          Enters.named (.intro ho hf hc) ho (hnames s List.mem_cons_self o ho)
        by_cases hn : name = o.name
        · rw [hn, FlagList.behind, hfirst]
          rfl
        · rw [FlagList.behind, hothers name hn]
          rfl
    exact fun f hf => hw f (hbehind ▸ hf)
  | @subcommand w _ c _ _ _ _ _ _ ih =>
    refine ih (fun s hs => hnames s (List.mem_cons_of_mem _ hs)) fun f hf => ?_
    rw [FlagList.behind, w.named_down c hname] at hf
    have hnew (g : Flag) (hg : g ∈ (Walked.declared c).reset.named name) : g.isSet = false :=
      unset_of_mem_reset (List.mem_filter.1 hg).1
    cases hnamed : w.ledger.flags.named name with
    | nil =>
      rw [hnamed] at hf
      exact hnew f (List.mem_of_mem_tail hf)
    | cons g gs =>
      rw [hnamed] at hf
      rcases List.mem_append.1 hf with hf | hf
      · exact hw f (by rwa [FlagList.behind, hnamed])
      · exact hnew f hf
  | argument _ _ _ ih => exact ih (fun s hs => hnames s (List.mem_cons_of_mem _ hs)) hw

/-- At a command of the tool nothing is given. -/
theorem Walked.unset_start (c : Command) : ∀ f ∈ (start c).ledger.flags.behind name, f.isSet = false := by
  intro f hf
  rw [start, Ledger.flags_declare] at hf
  exact unset_of_mem_reset (List.mem_filter.1 (List.mem_of_mem_tail hf)).1

end Grammar

/-! ## 4. The checks -/

namespace Check

variable {fs : FlagList} {name : String} {pairs : List (String × String)} {c : Complaint}

theorem named_placeOne {other : String} (h : name ≠ other) (fs : FlagList) (arg : String) :
    (placeOne fs other arg).1.named name = fs.named name := by
  unfold placeOne
  split
  · rfl
  rename_i f hf
  split
  · rename_i f' hf'
    refine FlagList.named_replace_of_ne fun g hg => ?_
    have hgn : g.name = other := FlagList.name_of_get? hg
    have hfn : f.name = other := FlagList.name_of_get? hf
    exact ⟨fun e => h (e.symm.trans hgn),
      fun e => h (e.symm.trans ((Flag.name_of_assign hf').trans hfn))⟩
  · rfl

/-- The flags for which no argument stands are as they were. -/
theorem named_place (h : name ∉ pairs.map Prod.fst) (fs : FlagList) :
    (place fs pairs).1.named name = fs.named name := by
  induction pairs generalizing fs with
  | nil => rfl
  | cons pair pairs ih =>
    exact (ih (List.not_mem_of_not_mem_cons h) _).trans
      (named_placeOne (List.ne_of_not_mem_cons h) fs _)

/-- An argument is complained about under the name it stands for. -/
theorem name_of_mem_placeOne {other arg : String} (h : c ∈ (placeOne fs other arg).2) : c.name = other := by
  unfold placeOne at h
  split at h
  · rw [List.mem_singleton.1 h]
    rfl
  · split at h
    · cases h
    · rw [List.mem_singleton.1 h]
      rfl

theorem name_of_mem_place (h : c ∈ (place fs pairs).2) : c.name ∈ pairs.map Prod.fst := by
  induction pairs generalizing fs with
  | nil => cases h
  | cons pair pairs ih =>
    have h : c ∈ (placeOne fs pair.1 pair.2).2 ++ (place (placeOne fs pair.1 pair.2).1 pairs).2 := h
    rcases List.mem_append.1 h with h | h
    · exact List.mem_cons.2 (.inl (name_of_mem_placeOne h))
    · exact List.mem_cons_of_mem _ (ih h)

theorem eq_of_mem_ownDemands (h : c ∈ ownDemands fs) : c = .requiredUnset c.name ∨ c = .emptyData := by
  obtain ⟨f, _, hc⟩ := List.mem_flatMap.1 h
  rcases List.mem_append.1 hc with hc | hc
  · split at hc
    · exact .inl (by rw [List.mem_singleton.1 hc]; rfl)
    · cases hc
  · split at hc
    · exact .inr (List.mem_singleton.1 hc)
    · cases hc

theorem requiredUnset_mem_ownDemands : .requiredUnset name ∈ ownDemands fs ↔
    ∃ f ∈ fs, f.name = name ∧ f.required = true ∧ f.isSet = false := by
  unfold ownDemands
  rw [List.mem_flatMap]
  refine exists_congr fun f => and_congr_right fun _ => ?_
  constructor
  · intro h
    rcases List.mem_append.1 h with h | h
    · split at h
      · rename_i hdemands
        obtain ⟨hrequired, hset⟩ := Bool.and_eq_true_iff.1 hdemands
        cases List.mem_singleton.1 h
        exact ⟨rfl, hrequired, Bool.not_eq_true' _ ▸ hset⟩
      · cases h
    · split at h
      · cases List.mem_singleton.1 h
      · cases h
  · rintro ⟨rfl, hrequired, hset⟩
    exact List.mem_append_left _ (by simp [hrequired, hset])

end Check

namespace Descent

variable {d : Descent} {name : String}

theorem notMem_of_engages (h : d.flags.isSet name = true) (he : d.engages = true) : name ∉ d.required := by
  intro hm
  rw [(d.engages_iff.1 he).2.1 name hm] at h
  cases h

theorem named_placed (h : d.flags.isSet name = true) : d.placed.1.named name = d.flags.named name := by
  unfold placed
  split
  · rename_i he
    refine Check.named_place (fun hm => notMem_of_engages h he ?_) d.flags
    obtain ⟨pair, hpair, rfl⟩ := List.mem_map.1 hm
    exact (List.of_mem_zip hpair).1
  · rfl

/-- **Neither arguments by position nor the memory touch the flags of a name that was given.** -/
theorem named_filled (h : d.flags.isSet name = true) (s : Settings) (servers : ServerTable) :
    (d.filled s servers).named name = d.flags.named name := by
  obtain ⟨table, htable⟩ := Memory.exists_offered servers.lookup d.placed.1 s
  obtain ⟨f, hf, hnamed⟩ := FlagList.isSet_iff_named.1 h
  have hflags : d.filled s servers = d.placed.1.offered table := htable
  rw [hflags, FlagList.named_offered, named_placed h, hnamed, List.modifyHead_cons,
    Flag.offered_of_set _ hf]

/-- **What is missing under a name that was given, the flags of the name demand for themselves.** -/
theorem about_demands (h : d.flags.isSet name = true) (s : Settings) (servers : ServerTable) :
    (d.placed.2 ++ d.shortfall (d.filled s servers)).filter (·.name = name) =
      Check.ownDemands (d.flags.named name) := by
  have hplaced : d.placed.2.filter (·.name = name) = [] := by
    refine List.filter_eq_nil_iff.2 fun c hc => ?_
    unfold placed at hc
    split at hc
    · rename_i he
      obtain ⟨pair, hpair, hn⟩ := List.mem_map.1 (Check.name_of_mem_place hc)
      rw [decide_eq_true_eq, ← hn]
      rintro rfl
      exact notMem_of_engages h he (List.of_mem_zip hpair).1
    · cases hc
  have hgiven : (if d.engages then [] else Check.notGiven (d.filled s servers) d.required).filter
      (·.name = name) = [] := by
    refine List.filter_eq_nil_iff.2 fun c hc => ?_
    split at hc
    · cases hc
    · obtain ⟨other, hother, rfl⟩ := List.mem_map.1 hc
      rw [decide_eq_true_eq]
      rintro rfl
      have hset := (d.extends_filled s servers).isSet h
      have hunset : (!(d.filled s servers).isSet other) = true := (List.mem_filter.1 hother).2
      rw [show (d.filled s servers).isSet other = true from hset] at hunset
      cases hunset
  rw [shortfall, List.filter_append, List.filter_append, hplaced, hgiven, Check.about_ownDemands,
    named_filled h]
  rfl

/-- Under a name that was given the flags behind the first are missing, if they are required and not given. -/
theorem requiredUnset_mem_demands (h : d.flags.isSet name = true) (s : Settings) (servers : ServerTable) :
    .requiredUnset name ∈ d.placed.2 ++ d.shortfall (d.filled s servers) ↔
      ∃ f ∈ d.flags.behind name, f.required = true ∧ f.isSet = false := by
  obtain ⟨f, hf, hnamed⟩ := FlagList.isSet_iff_named.1 h
  have habout (cs : List Complaint) : .requiredUnset name ∈ cs ↔
      .requiredUnset name ∈ cs.filter (·.name = name) := by
    rw [List.mem_filter]
    exact (and_iff_left (decide_eq_true rfl)).symm
  rw [habout, about_demands h, Check.requiredUnset_mem_ownDemands, hnamed]
  constructor
  · rintro ⟨g, hg, -, hrequired, hunset⟩
    rcases List.mem_cons.1 hg with rfl | hg
    · rw [hf] at hunset
      cases hunset
    · exact ⟨g, hg, hrequired, hunset⟩
  · rintro ⟨g, hg, hrequired, hunset⟩
    have hname : g.name = name := by simpa using (List.mem_filter.1 (List.mem_of_mem_tail hg)).2
    exact ⟨g, List.mem_cons_of_mem f hg, hname, hrequired, hunset⟩

end Descent

/-! ## 5. Whole command lines -/

open Accepted

/-- What the flags behind the first of a name require, they declare. -/
theorem FlagList.required_behind_congr {fs gs : FlagList}
    (h : fs.map Flag.declaration = gs.map Flag.declaration) (name : String) :
    (∃ f ∈ fs.behind name, f.required = true) ↔ ∃ g ∈ gs.behind name, g.required = true := by
  have hbehind (fs : FlagList) :
      (fs.behind name).map Flag.declaration = behind (fs.map Flag.declaration) name := by
    unfold behind named
    rw [List.map_tail, List.filter_map]
    rfl
  have hby (fs : FlagList) : (∃ f ∈ fs, f.required = true) ↔
      ∃ f ∈ fs.map Flag.declaration, f.required = true := by
    simp [Flag.declaration]
  rw [hby, hby (gs.behind name), hbehind, hbehind, h]

/-- **A flag that the user gives is reported missing only on behalf of another flag of its name.**

    Let a line be read to its end, with an option by name among its parts. Then the first flag of the name
    is set, and stays as it was read: what the checks have to say under the name, they say of it and of the
    flags of the name that other commands of the chain declare behind it. So

    * nothing is said to be not given, not declared or refused under the name; a flag is missing just when it
      is one of those behind the first, says itself that it is required, and was not given;
    * if the first flag ends with a value that it may have, all complaints about the name are those of the
      flags behind it;
    * where no declaration of the name behind the first says that it is required, none is missing; and where
      options are by name, one is missing just when there is such a declaration. -/
theorem App.complaints_of_given {app : App} {s : Split} {globals : Ledger} {w : Walked}
    (hr : s.Reads app globals w) {name : String} {value : Option String}
    (hgiven : Part.option ⟨"--" ++ name, value⟩ ∈ s.parts) (p : Execution) :
    let d := w.descent
    let fs := d.filled p.session.settings p.session.servers
    let demands := d.placed.2 ++ d.shortfall fs
    let others := d.flags.behind name
    let declared := FlagList.behind (Walked.accumulated w.levels) name
    ((CommandLine.provide d).perform p).2.complaints =
        p.complaints ++ String.join (demands.map Complaint.line) ∧
      (((CommandLine.provide d).perform p).1.2 = true ↔
        (d.required ≠ [] ∧ d.leftOver ≠ []) ∨ demands ≠ []) ∧
      ∃ f, f.isSet = true ∧ d.flags.named name = f :: others ∧ fs.named name = f :: others ∧
        (∀ c ∈ demands, c.name = name → c = .requiredUnset name ∨ c = .emptyData) ∧
        (.requiredUnset name ∈ demands ↔ ∃ g ∈ others, g.required = true ∧ g.isSet = false) ∧
        (¬ f.Blank → demands.filter (·.name = name) = Check.ownDemands others ∧
          (Check.emptyValues fs).filter (·.name = name) = Check.emptyValues others) ∧
        (¬ f.Misses → (Check.missedChoices fs).filter (·.name = name) = Check.missedChoices others) ∧
        ((∀ g ∈ declared, g.required = false) → .requiredUnset name ∉ demands) ∧
        ((∀ o, Part.option o ∈ s.parts → ∀ t, OptionToken.ofArgument? o.arg = some t → t.shortName = "") →
          (.requiredUnset name ∈ demands ↔ ∃ g ∈ declared, g.required = true)) := by
  intro d fs demands others declared
  obtain ⟨hleft, _, hcomplaints⟩ := CommandLine.perform_provide p d
  have hset : d.flags.isSet name = true := hr.walked.isSet_of_option hgiven
  obtain ⟨f, hf, hnamed⟩ := FlagList.isSet_iff_named.1 hset
  have hfilled : fs.named name = f :: others := (Descent.named_filled hset _ _).trans hnamed
  have hdemands : demands.filter (·.name = name) = Check.ownDemands (f :: others) := by
    rw [← hnamed]
    exact Descent.about_demands hset _ _
  have hmissing := Descent.requiredUnset_mem_demands hset p.session.settings p.session.servers
  have hdeclared : (∃ g ∈ others, g.required = true) ↔ ∃ g ∈ declared, g.required = true :=
    FlagList.required_behind_congr (hr.walked.declarations (Walked.declarations_start s.command)) name
  refine ⟨hcomplaints, ?_, f, hf, hnamed, hfilled, fun c hc hn => ?_, hmissing, fun hblank => ⟨?_, ?_⟩,
    fun hmisses => ?_, fun hnone hm => ?_, fun hnames => ?_⟩
  · rw [hleft, Descent.isShort_iff, Ne, Ne, Ne, Ne, Ne, List.append_eq_nil_iff, not_and_or]
  · have hc : c ∈ Check.ownDemands (f :: others) :=
      hdemands ▸ List.mem_filter.2 ⟨hc, decide_eq_true hn⟩
    exact hn ▸ Check.eq_of_mem_ownDemands hc
  · have hnot : Check.isBlank f = false := Bool.eq_false_iff.2 (mt (Check.isBlank_iff f).1 hblank)
    rw [hdemands, Check.ownDemands, List.flatMap_cons, hf, hnot]
    simp [Check.ownDemands]
  · have hnot : Check.isBlank f = false := Bool.eq_false_iff.2 (mt (Check.isBlank_iff f).1 hblank)
    rw [Check.about_emptyValues, hfilled, Check.emptyValues, List.filter_cons_of_neg (by simp [hnot])]
    rfl
  · rw [Check.about_missedChoices, hfilled, Check.missedChoices_eq, Check.missedChoices_eq,
      List.filter_cons_of_neg (by simpa using hmisses)]
  · obtain ⟨g, hg, hrequired, _⟩ := hmissing.1 hm
    obtain ⟨g, hg, hrequired⟩ := hdeclared.1 ⟨g, hg, hrequired⟩
    rw [hnone g hg] at hrequired
    cases hrequired
  · rw [hmissing, ← hdeclared]
    have hhelp : name ≠ "help" := by
      rintro rfl
      have hhelp := hr.walked.unset_help (Walked.unset_help_start s.command)
      rw [show w.ledger.flags.isSet "help" = true from hset] at hhelp
      cases hhelp
    have hunset := hr.walked.unset_behind hhelp hnames (Walked.unset_start s.command)
    exact exists_congr fun g => and_congr_right fun hg => and_iff_left (hunset g hg)

namespace App

/-- A command that requires a flag whose name the group above it declares as well. -/
def lower : Command :=
  { name := "lower", flags := [{ Flag.ofText "id" "" [] {} with required := true }] }

def upper : Command := { name := "upper", flags := [.ofText "id" "" [] {}], subcommands := [lower] }

/-- A tool with a name that is declared twice. -/
def declaringTwice : App := { name := "ngsi", commands := [upper] }

/-- The name that is declared twice is given. -/
def givenOnce : Split where
  program := "ngsi"
  globals := []
  command := upper
  parts := [.subcommand "lower", .option ⟨"--id", some "x"⟩]

theorem reads_givenOnce : ∃ globals w, givenOnce.Reads declaringTwice globals w ∧
    .requiredUnset "id" ∈ w.descent.placed.2 ++ w.descent.shortfall (w.descent.filled {} .empty) ∧
      ∃ g ∈ FlagList.behind (Walked.accumulated w.levels) "id", g.required = true := by
  have hwalks : Walks (.start upper) givenOnce.parts _ :=
    .subcommand (c := lower) (by decide) rfl rfl
      (.option (.intro (o := ⟨"id", ""⟩) (by decide) rfl (.text rfl)) rfl (.done _))
  refine ⟨_, _, ⟨by decide, rfl, .nil _ _, by decide, by decide, rfl, fun _ => by decide, hwalks⟩, ?_, ?_⟩
  · decide
  · decide

/-- The group's flag is set to what is given; the flag of the command below it is the one that is missing. -/
theorem complaints_of_given_twice : ∃ globals w, givenOnce.Reads declaringTwice globals w ∧
    Part.option ⟨"--" ++ "id", some "x"⟩ ∈ givenOnce.parts ∧
    (w.descent.filled {} .empty).isSet "id" = true ∧
    .requiredUnset "id" ∈ w.descent.placed.2 ++ w.descent.shortfall (w.descent.filled {} .empty) := by
  obtain ⟨globals, w, hr, _, hdeclared⟩ := reads_givenOnce
  have hgiven : Part.option ⟨"--" ++ "id", some "x"⟩ ∈ givenOnce.parts := by decide
  obtain ⟨_, _, f, hf, _, hfilled, _, _, _, _, _, hmissing⟩ := complaints_of_given hr hgiven {}
  refine ⟨globals, w, hr, hgiven, FlagList.isSet_of_named hfilled hf, (hmissing ?_).2 hdeclared⟩
  intro o ho t ht
  rcases List.mem_cons.1 ho with ho | ho
  · cases ho
  · cases List.mem_singleton.1 ho
    cases ht
    rfl

/-- **A flag that is given can be reported missing**: where the command below declares its name anew. -/
theorem given_and_missing : ¬ ∀ (app : App) (s : Split) (globals : Ledger) (w : Walked) (name value : String)
    (p : Execution), s.Reads app globals w → Part.option ⟨"--" ++ name, some value⟩ ∈ s.parts →
      .requiredUnset name ∉ w.descent.placed.2 ++
        w.descent.shortfall (w.descent.filled p.session.settings p.session.servers) := by
  intro h
  obtain ⟨globals, w, hr, hmissing, _⟩ := reads_givenOnce
  exact h declaringTwice givenOnce globals w "id" "x" {} hr (by decide) hmissing

end App

end BrokerCli
