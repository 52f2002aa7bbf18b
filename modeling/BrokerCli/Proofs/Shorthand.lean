import BrokerCli.Proofs.Acceptance
import BrokerCli.Proofs.Offer

/-!
# Arguments by position: all or nothing

The arguments of a command line stand for the flags that a command requires only if none of these is given by
name, and there are just as many arguments. It is decided before the memory takes part: what is remembered can
stand in for a required name, but it has no say in what the arguments stand for.

* `Descent.Shorthand` -- whether the arguments stand for the required flags (`engages_iff`);
* `Check.get?_place`, `Check.complaints_place` -- each argument is given to its flag, and each one that its
  flag refuses is one complaint;
* `Flag.refusalLine?`, `Flag.demandLines` -- what a user reads about them, word for word;
* `CommandLine.ByPosition` -- what comes of arguments that stand for distinct flags of the command;
* `CommandLine.ByName` -- what comes of arguments that stand for none;
* `CommandLine.provide_all_or_nothing` -- it is always the one or the other.
-/

namespace BrokerCli

/-! ## 1. One argument -/

namespace Flag

/-- The flag when an argument is given to it: one that refuses it stays as it is. -/
def taking (f : Flag) (arg : String) : Flag :=
  match f.assign (.text arg) with
  | .ok g => g
  | .error _ => f

/-- The complaint about an argument that the flag refuses. -/
def refusal? (f : Flag) (arg : String) : Option Complaint :=
  match f.assign (.text arg) with
  | .ok _ => none
  | .error e => some (.refused f.name e)

/-- What a user reads about an argument that the flag refuses. -/
def refusalLine? (f : Flag) (arg : String) : Option String :=
  match f.content with
  | .text .. => none
  | .truth _ => if (truthWord? arg).isSome then none
    else some ("--" ++ f.name ++ ": " ++ arg ++ " is not boolean value\n")
  | .number _ => if (Text.readInt64? arg).isSome then none
    else some ("--" ++ f.name ++ ": " ++ arg ++ " is not number\n")

/-- What a user reads about a flag that is required and not given, or must have data and has none. -/
def demandLines (f : Flag) : List String :=
  (if f.required && !f.isSet then ["required002 --" ++ f.name ++ " not found\n"] else []) ++
    (if f.name = "data" && Check.isBlank f then ["required003 data is empty\n"] else [])

variable {f g : Flag} {arg : String} {e : AssignError}

theorem map_line_refusal? (f : Flag) (arg : String) :
    (f.refusal? arg).map Complaint.line = f.refusalLine? arg := by
  unfold refusal? refusalLine? assign
  cases f.content with
  | text value features => rfl
  | truth b =>
    simp only [taken]
    cases truthWord? arg <;> simp [Complaint.line_eq, AssignError.fault, String.append_assoc]
  | number n =>
    simp only [taken]
    cases Text.readInt64? arg <;> simp [Complaint.line_eq, AssignError.fault, String.append_assoc]

theorem taking_of_ok (h : f.assign (.text arg) = .ok g) : f.taking arg = g := by
  unfold taking
  rw [h]

theorem taking_of_error (h : f.assign (.text arg) = .error e) : f.taking arg = f := by
  unfold taking
  rw [h]

/-- A flag for texts refuses no text. -/
theorem text?_of_error (h : f.assign (.text arg) = .error e) : f.text? = none := by
  cases hc : f.content with
  | text value features =>
    simp only [assign, hc, taken] at h
    cases h
  | truth b => simp only [text?, hc]
  | number n => simp only [text?, hc]

/-- What was made of a flag by an argument is nothing for the memory to fill. -/
theorem closed_of_taking (f : Flag) (arg : String) :
    (f.taking arg).isSet = true ∨ (f.taking arg).text? = none := by
  cases h : f.assign (.text arg) with
  | ok g =>
    rw [taking_of_ok h]
    exact .inl (isSet_of_assign h)
  | error e =>
    rw [taking_of_error h]
    exact .inr (text?_of_error h)

end Flag

/-! ## 2. Arguments for distinct flags -/

namespace Check

variable {fs gs : FlagList} {name other arg : String} {f : Flag} {pairs : List (String × String)}

/-- The complaint about an argument, if there is a flag of the name, and it refuses the argument. -/
def refusal? (fs : FlagList) (name arg : String) : Option Complaint :=
  (fs.get? name).bind (·.refusal? arg)

theorem get?_placeOne_of_ne (h : other ≠ name) (fs : FlagList) (arg : String) :
    (placeOne fs name arg).1.get? other = fs.get? other := by
  unfold placeOne
  split
  · rfl
  rename_i f hf
  have hn : f.name = name := FlagList.name_of_get? hf
  split
  · rename_i g hg
    exact FlagList.get?_replace_of_ne ((Flag.name_of_assign hg).trans hn) h
  · rfl

theorem get?_placeOne (hf : fs.get? name = some f) (arg : String) :
    (placeOne fs name arg).1.get? name = some (f.taking arg) := by
  have hn : f.name = name := FlagList.name_of_get? hf
  have hhas : fs.has name = true := by
    rw [FlagList.has, hf]
    rfl
  unfold placeOne
  rw [hf]
  dsimp only
  cases h : f.assign (.text arg) with
  | ok g =>
    rw [Flag.taking_of_ok h]
    exact FlagList.get?_replace ((Flag.name_of_assign h).trans hn) hhas
  | error e =>
    rw [Flag.taking_of_error h]
    exact hf

/-- An argument for a flag of the command meets no complaint but that the flag refuses it. -/
theorem complaints_placeOne (hf : fs.get? name = some f) (arg : String) :
    (placeOne fs name arg).2 = (refusal? fs name arg).toList := by
  have hn : f.name = name := FlagList.name_of_get? hf
  unfold placeOne refusal? Flag.refusal?
  rw [hf, Option.bind_some]
  dsimp only
  rw [hn]
  cases f.assign (.text arg) <;> rfl

/-- The flags for which no argument stands are as they were. -/
theorem get?_place_of_notMem (h : other ∉ pairs.map Prod.fst) (fs : FlagList) :
    (place fs pairs).1.get? other = fs.get? other := by
  induction pairs generalizing fs with
  | nil => rfl
  | cons pair pairs ih =>
    have hne : other ≠ pair.1 := List.ne_of_not_mem_cons h
    exact (ih (List.not_mem_of_not_mem_cons h) _).trans (get?_placeOne_of_ne hne fs _)

/-- **Each argument is given to the flag it stands for**, if they stand for distinct ones. -/
theorem get?_place (hdistinct : (pairs.map Prod.fst).Nodup) (hpair : (name, arg) ∈ pairs)
    (hf : fs.get? name = some f) : (place fs pairs).1.get? name = some (f.taking arg) := by
  induction pairs generalizing fs with
  | nil => cases hpair
  | cons pair pairs ih =>
    obtain ⟨hfirst, hrest⟩ := List.nodup_cons.1 hdistinct
    rcases List.mem_cons.1 hpair with rfl | hpair
    · exact (get?_place_of_notMem hfirst _).trans (get?_placeOne hf arg)
    · have hne : name ≠ pair.1 := by
        intro hsame
        exact hfirst (hsame ▸ List.mem_map_of_mem hpair)
      exact ih hrest hpair ((get?_placeOne_of_ne hne fs _).trans hf)

/-- **Each argument that its flag refuses is one complaint**, and there are no others. -/
theorem complaints_place (hdistinct : (pairs.map Prod.fst).Nodup)
    (hdeclared : ∀ pair ∈ pairs, fs.has pair.1 = true) :
    (place fs pairs).2 = pairs.filterMap fun pair => refusal? fs pair.1 pair.2 := by
  induction pairs generalizing fs with
  | nil => rfl
  | cons pair pairs ih =>
    obtain ⟨hfirst, hrest⟩ := List.nodup_cons.1 hdistinct
    obtain ⟨f, hf⟩ := Option.isSome_iff_exists.1 (hdeclared pair List.mem_cons_self)
    have hother {q : String × String} (hq : q ∈ pairs) :
        (placeOne fs pair.1 pair.2).1.get? q.1 = fs.get? q.1 := by
      refine get?_placeOne_of_ne (fun h => ?_) fs pair.2
      exact hfirst (h ▸ List.mem_map_of_mem hq)
    have hmore : (place (placeOne fs pair.1 pair.2).1 pairs).2 =
        pairs.filterMap fun q => refusal? fs q.1 q.2 := by
      rw [ih hrest fun q hq => ?_]
      · refine List.filterMap_congr fun q hq => ?_
        rw [refusal?, hother hq, refusal?]
      · rw [FlagList.has, hother hq]
        exact hdeclared q (List.mem_cons_of_mem _ hq)
    show (placeOne fs pair.1 pair.2).2 ++ (place (placeOne fs pair.1 pair.2).1 pairs).2 = _
    rw [hmore, complaints_placeOne hf, List.filterMap_cons]
    cases refusal? fs pair.1 pair.2 <;> rfl

theorem notGiven_ne_nil_iff (fs : FlagList) (required : List String) :
    notGiven fs required ≠ [] ↔ ∃ name ∈ required, fs.isSet name = false := by
  rw [Ne, notGiven_eq_nil_iff]
  simp only [not_forall, Bool.not_eq_true, exists_prop]

theorem ownDemands_ne_nil_iff (fs : FlagList) :
    ownDemands fs ≠ [] ↔ ¬ Accepted.Demanded fs ∨ ¬ Accepted.Supplied fs := by
  rw [Ne, ownDemands_eq_nil_iff, not_and_or]

theorem map_line_notGiven (fs : FlagList) (required : List String) :
    (notGiven fs required).map Complaint.line = (required.filter fun name => !fs.isSet name).map
      fun name => "required004 --" ++ name ++ " not found\n" := by
  rw [notGiven, List.map_map]
  exact List.map_congr_left fun name _ => Complaint.line_eq (.notGiven name)

theorem map_line_ownDemands (fs : FlagList) :
    (ownDemands fs).map Complaint.line = fs.flatMap Flag.demandLines := by
  rw [ownDemands, List.map_flatMap]
  refine List.flatMap_congr fun f _ => ?_
  rw [List.map_append, Flag.demandLines]
  congr 1
  · split
    · exact congrArg (fun line => [line]) (Complaint.line_eq _)
    · rfl
  · split
    · exact congrArg (fun line => [line]) (Complaint.line_eq _)
    · rfl

end Check

/-! ## 3. All of them -/

namespace Descent

/-- Whether the arguments stand for the required flags. -/
def Shorthand (d : Descent) : Prop :=
  d.required ≠ [] ∧ (∀ name ∈ d.required, d.flags.isSet name = false) ∧
    d.args.length = d.required.length

/-- The complaints about the arguments that their flags refuse. -/
def refusals (d : Descent) : List Complaint :=
  (d.required.zip d.args).filterMap fun pair => Check.refusal? d.flags pair.1 pair.2

/-- What a user reads about them, in the order of the arguments. -/
def refusalLines (d : Descent) : List String :=
  (d.required.zip d.args).filterMap fun pair => (d.flags.get? pair.1).bind (·.refusalLine? pair.2)

variable {d : Descent}

theorem map_line_refusals (d : Descent) : d.refusals.map Complaint.line = d.refusalLines := by
  rw [refusals, List.map_filterMap]
  refine List.filterMap_congr fun pair _ => ?_
  rw [Check.refusal?, Option.map_bind]
  exact congrArg _ (funext fun f => Flag.map_line_refusal? f pair.2)

theorem engages_iff (d : Descent) : d.engages = true ↔ d.Shorthand := by
  unfold engages Check.byPosition Shorthand FlagList.anySet
  simp [and_assoc]

/-- When something that is required is missing, misplaced or left over. -/
theorem isShort_iff (d : Descent) (fs : FlagList) : d.isShort fs = true ↔
    (d.required ≠ [] ∧ d.leftOver ≠ []) ∨ d.placed.2 ≠ [] ∨ d.shortfall fs ≠ [] := by
  unfold isShort
  simp only [Bool.or_eq_true, Bool.and_eq_true, Bool.not_eq_true', List.isEmpty_eq_false_iff, or_assoc]

/-- Of arguments that stand for required flags there is at least one. -/
theorem Shorthand.args_ne_nil (h : d.Shorthand) : d.args ≠ [] := by
  intro hnone
  have hlength := h.2.2
  rw [hnone] at hlength
  exact h.1 (List.eq_nil_of_length_eq_zero hlength.symm)

theorem Shorthand.placed_eq (h : d.Shorthand) :
    d.placed = Check.place d.flags (d.required.zip d.args) := if_pos (d.engages_iff.2 h)

theorem Shorthand.names_eq (h : d.Shorthand) : (d.required.zip d.args).map Prod.fst = d.required :=
  List.map_fst_zip (Nat.le_of_eq h.2.2.symm)

/-- The complaints of the arguments are those of the flags that refuse them. -/
theorem Shorthand.placed_refusals (h : d.Shorthand) (hdistinct : d.required.Nodup)
    (hdeclared : ∀ name ∈ d.required, d.flags.has name = true) : d.placed.2 = d.refusals := by
  rw [h.placed_eq]
  refine Check.complaints_place (h.names_eq.symm ▸ hdistinct) fun pair hpair => ?_
  exact hdeclared pair.1 (List.of_mem_zip hpair).1

/-- A required flag holds in the end what its argument made of it: the memory leaves it so. -/
theorem Shorthand.get?_filled (h : d.Shorthand) (hdistinct : d.required.Nodup) {i : Nat}
    {name arg : String} {f : Flag} (hname : d.required[i]? = some name) (harg : d.args[i]? = some arg)
    (hf : d.flags.get? name = some f) (s : Settings) (servers : ServerTable) :
    (d.filled s servers).get? name = some (f.taking arg) := by
  have hpair : (name, arg) ∈ d.required.zip d.args :=
    List.mem_of_getElem? (List.getElem?_zip_eq_some.2 ⟨hname, harg⟩)
  refine Memory.get?_reconcile_of_closed s servers ?_ (f.closed_of_taking arg)
  rw [h.placed_eq]
  exact Check.get?_place (h.names_eq.symm ▸ hdistinct) hpair hf

end Descent

namespace CommandLine

open Accepted

variable {d : Descent} {p : Execution}

/-- What comes of arguments that stand for the required flags, which are distinct flags of the command. -/
structure ByPosition (d : Descent) (p : Execution) (left : Descent) (missing : Bool) (q : Execution) :
    Prop where
  /-- A flag is set to the argument in its place, whatever is remembered. -/
  given : ∀ (i : Nat) name arg f g, d.required[i]? = some name → d.args[i]? = some arg →
    d.flags.get? name = some f → f.assign (.text arg) = .ok g →
    left.flags.get? name = some g ∧ g.isSet = true
  /-- A flag that refuses the argument in its place stays as it was, whatever is remembered. -/
  refused : ∀ (i : Nat) name arg f e, d.required[i]? = some name → d.args[i]? = some arg →
    d.flags.get? name = some f → f.assign (.text arg) = .error e → left.flags.get? name = some f
  /-- Each refusal is one line, in the order of the arguments. -/
  complaints : q.complaints = p.complaints ++
    String.join (d.refusalLines ++ left.flags.flatMap Flag.demandLines)
  missing_iff : missing = true ↔
    d.refusalLines ≠ [] ∨ ¬ Demanded left.flags ∨ ¬ Supplied left.flags

/-- What comes of arguments that do not stand for the required flags. -/
structure ByName (d : Descent) (p : Execution) (left : Descent) (missing : Bool) (q : Execution) :
    Prop where
  args : left.args = d.args
  /-- No flag is given an argument: it is only the memory that takes part. -/
  flags : left.flags = (Memory.reconcile d.flags p.session.settings p.session.servers).flags
  /-- Each required name that is not given, be it from the memory, is one line. -/
  complaints : q.complaints = p.complaints ++
    String.join ((d.required.filter fun name => !left.flags.isSet name).map
        (fun name => "required004 --" ++ name ++ " not found\n") ++
      left.flags.flatMap Flag.demandLines)
  missing_iff : d.required ≠ [] → (missing = true ↔ d.args ≠ [] ∨
    (∃ name ∈ d.required, left.flags.isSet name = false) ∨ ¬ Demanded left.flags ∨ ¬ Supplied left.flags)

theorem byPosition_of_shorthand (h : d.Shorthand) (hdistinct : d.required.Nodup)
    (hdeclared : ∀ name ∈ d.required, d.flags.has name = true) :
    ByPosition d p ((provide d).perform p).1.1 ((provide d).perform p).1.2 ((provide d).perform p).2 := by
  obtain ⟨hleft, _, hcomplaints⟩ := perform_provide p d
  have hengages : d.engages = true := d.engages_iff.2 h
  have hshort (fs : FlagList) : d.shortfall fs = Check.ownDemands fs := by
    rw [Descent.shortfall, if_pos hengages, List.nil_append]
  rw [h.placed_refusals hdistinct hdeclared, hshort, List.map_append, Descent.map_line_refusals,
    Check.map_line_ownDemands] at hcomplaints
  rw [hleft]
  refine ⟨?_, ?_, hcomplaints, ?_⟩
  · intro i name arg f g hname harg hf hg
    have hget := h.get?_filled hdistinct hname harg hf p.session.settings p.session.servers
    rw [Flag.taking_of_ok hg] at hget
    exact ⟨hget, Flag.isSet_of_assign hg⟩
  · intro i name arg f e hname harg hf he
    have hget := h.get?_filled hdistinct hname harg hf p.session.settings p.session.servers
    rw [Flag.taking_of_error he] at hget
    exact hget
  · have hnone : d.leftOver = [] := if_pos hengages
    have hlines : d.refusals ≠ [] ↔ d.refusalLines ≠ [] := by
      rw [← d.map_line_refusals]
      exact (not_congr List.map_eq_nil_iff).symm
    show d.isShort _ = true ↔ _
    rw [Descent.isShort_iff, hnone, h.placed_refusals hdistinct hdeclared, hshort,
      Check.ownDemands_ne_nil_iff, hlines]
    exact or_iff_right fun hno => hno.2 rfl

theorem byName_of_not_shorthand (h : ¬ d.Shorthand) :
    ByName d p ((provide d).perform p).1.1 ((provide d).perform p).1.2 ((provide d).perform p).2 := by
  obtain ⟨hleft, _, hcomplaints⟩ := perform_provide p d
  have hengages : d.engages = false := Bool.eq_false_iff.2 (mt d.engages_iff.1 h)
  have hplaced : d.placed = (d.flags, []) := by
    rw [Descent.placed, hengages]
    rfl
  have hall : d.leftOver = d.args := by
    rw [Descent.leftOver, hengages]
    rfl
  have hshort (fs : FlagList) : d.shortfall fs = Check.notGiven fs d.required ++ Check.ownDemands fs := by
    rw [Descent.shortfall, hengages]
    rfl
  rw [hplaced, hshort, List.nil_append, List.map_append, Check.map_line_notGiven,
    Check.map_line_ownDemands] at hcomplaints
  rw [hleft]
  refine ⟨hall, ?_, hcomplaints, ?_⟩
  · show (Memory.reconcile d.placed.1 _ _).flags = _
    rw [hplaced]
  · intro hrequired
    have hmissing (fs : FlagList) : Check.notGiven fs d.required ++ Check.ownDemands fs ≠ [] ↔
        (∃ name ∈ d.required, fs.isSet name = false) ∨ ¬ Demanded fs ∨ ¬ Supplied fs := by
      rw [Ne, List.append_eq_nil_iff, not_and_or]
      exact or_congr (Check.notGiven_ne_nil_iff _ _) (Check.ownDemands_ne_nil_iff _)
    show d.isShort _ = true ↔ _
    rw [Descent.isShort_iff, hall, hplaced, hshort, hmissing, and_iff_right hrequired]
    exact or_congr_right (or_iff_right fun hno => hno rfl)

/-- **Arguments by position: all or nothing.** The arguments are taken if and only if they stand for the
    required flags, which is decided by what was given by name, and not by what is remembered.

    Where they do, none is left; and if the required names are those of distinct flags, each flag is set to
    the argument in its place, converted to its kind, and each argument that its flag refuses is one line.
    Where they do not, no flag is given any, and each required name that is not given in the end is one line;
    and if any name is required, the checks fail if and only if an argument is left over, or a required name
    is not given in the end, or the demands of the single flags are not met. -/
theorem provide_all_or_nothing (d : Descent) (p : Execution) :
    let r := (provide d).perform p
    (r.1.1.args ≠ d.args ↔ d.Shorthand) ∧
      (d.Shorthand → r.1.1.args = [] ∧
        (d.required.Nodup → (∀ name ∈ d.required, d.flags.has name = true) →
          ByPosition d p r.1.1 r.1.2 r.2)) ∧
      (¬ d.Shorthand → ByName d p r.1.1 r.1.2 r.2) ∧
      r.2.session = remembering d p.session := by
  intro r
  obtain ⟨hleft, hsession, _⟩ := perform_provide p d
  have htaken (h : d.Shorthand) : r.1.1.args = [] := by
    show ((provide d).perform p).1.1.args = []
    rw [hleft]
    exact if_pos (d.engages_iff.2 h)
  refine ⟨⟨fun hne => ?_, fun h => ?_⟩, fun h => ⟨htaken h, byPosition_of_shorthand h⟩,
    byName_of_not_shorthand, hsession⟩
  · by_contra h
    exact hne (byName_of_not_shorthand h).args
  · rw [htaken h]
    exact h.args_ne_nil.symm

/-- Two arguments for two required flags, one of which refuses its own; the host is filled from the memory.
    Without arguments there are two lines, one for each of the two. -/
theorem provide_all_or_nothing_many :
    let id : Flag := .ofText "id" "" [] {}
    let count : Flag := .ofNumber "count" "" 0
    let d : Descent := { Descent.start { name := "get" } with
      flags := [.hostRequired, count, id], required := ["id", "count"], args := ["urn", "many"] }
    let p : Execution := { session := { settings := { host := "orion" } } }
    let r := (provide d).perform p
    let bare : Descent := { d with args := [] }
    d.Shorthand ∧ r.1.1.flags.get? "id" = some (id.setTo (.text "urn" {})) ∧
      r.1.1.flags.get? "count" = some count ∧ r.1.1.args = [] ∧ r.1.2 = true ∧
      r.1.1.flags.textIfSet "host" = some "orion" ∧
      r.2.complaints = "--count: many is not number\n" ∧
      ¬ bare.Shorthand ∧ ((provide bare).perform p).2.complaints =
        "required004 --id not found\nrequired004 --count not found\n" := by
  intro id count d p r bare
  have hshorthand : d.Shorthand := by
    refine ⟨?_, ?_, rfl⟩
    · decide
    · decide
  have hbare : ¬ bare.Shorthand := fun h => absurd h.2.2 (by decide)
  obtain ⟨hargs, htaken⟩ := (provide_all_or_nothing d p).2.1 hshorthand
  have hplaced := htaken (by decide) (by decide)
  have hnamed := (provide_all_or_nothing bare p).2.2.1 hbare
  have hid : id.assign (.text "urn") = .ok (id.setTo (.text "urn" {})) := rfl
  have hcount : count.assign (.text "many") = .error (.noNumeral "many") := by decide +kernel
  have hrefused : d.refusalLines ≠ [] := by decide +kernel
  have hhost : r.1.1.flags.textIfSet "host" = some "orion" := by decide +kernel
  have hlines : String.join (d.refusalLines ++ r.1.1.flags.flatMap Flag.demandLines) =
      "--count: many is not number\n" := by decide +kernel
  have hmissing : String.join ((bare.required.filter fun name =>
        !((provide bare).perform p).1.1.flags.isSet name).map
        (fun name => "required004 --" ++ name ++ " not found\n") ++
      ((provide bare).perform p).1.1.flags.flatMap Flag.demandLines) =
      "required004 --id not found\nrequired004 --count not found\n" := by decide +kernel
  exact ⟨hshorthand, (hplaced.given 0 _ _ _ _ rfl rfl rfl hid).1,
    hplaced.refused 1 _ _ _ _ rfl rfl rfl hcount, hargs, hplaced.missing_iff.2 (.inl hrefused), hhost,
    hplaced.complaints.trans (congrArg _ hlines), hbare, hnamed.complaints.trans (congrArg _ hmissing)⟩

end CommandLine

end BrokerCli
