import BrokerCli.Completion

/-!
# The candidates for an option

An option that has been begun may become any form of a flag: its long form, or a form by an alias if not
two dashes were typed.

* `Flag.Form` -- the forms of one flag. All forms of a list are the forms of its flags (`mem_forms`);
* `Completion.IsComplete` -- what was begun is already a form of one of the flags;
* `Completion.continuations` -- what may follow, flag by flag: the long forms, then those by aliases. They
  are just the forms of open flags that go on what was begun (`mem_continuations`);
* `Completion.ofFlags_of_complete`, `ofFlags_of_incomplete` -- the answer. Both ask for flags that are still
  OPEN: an option that is complete, but only as a form of flags that were given or are hidden, is gone on
  with as if it were not (`Completion.Eclipsed`).
-/

namespace BrokerCli

/-- The flag can still be suggested. -/
def Flag.IsOpen (f : Flag) : Prop := f.isSet = false ∧ f.hidden = false

instance (f : Flag) : Decidable f.IsOpen := inferInstanceAs (Decidable (_ ∧ _))

/-- What an option that was begun may become for the sake of a flag. -/
inductive Flag.Form (f : Flag) (begun : String) : String → Prop where
  | long : Form f begun ("--" ++ f.name)
  | short {a : String} (hone : Text.beginsWith "--" begun = false) (ha : a ∈ f.aliases) :
    Form f begun ("-" ++ a)

namespace Completion

variable {fs : FlagList} {begun form : String}

/-! ## 1. Forms -/

theorem mem_suggested {f : Flag} : f ∈ suggested fs ↔ f ∈ fs ∧ f.IsOpen := by
  simp [suggested, Flag.IsOpen]

theorem suggested_cons (f : Flag) (fs : FlagList) :
    suggested (f :: fs) = if f.IsOpen then f :: suggested fs else suggested fs := by
  by_cases hopen : f.IsOpen
  · rw [if_pos hopen, suggested, List.filter_cons_of_pos (by simp [hopen.1, hopen.2]), ← suggested]
  · rw [if_neg hopen, suggested, List.filter_cons_of_neg (by simpa [Flag.IsOpen] using hopen), ← suggested]

theorem mem_longForms : form ∈ longForms fs ↔ ∃ f ∈ fs, "--" ++ f.name = form := List.mem_map

theorem mem_shortForms : form ∈ shortForms fs ↔ ∃ f ∈ fs, ∃ a ∈ f.aliases, "-" ++ a = form := by
  simp [shortForms]

/-- **The forms of a list are the forms of its flags.** -/
theorem mem_forms : form ∈ forms fs begun ↔ ∃ f ∈ fs, f.Form begun form := by
  unfold forms
  rw [List.mem_append, mem_longForms]
  constructor
  · rintro (⟨f, hf, rfl⟩ | h)
    · exact ⟨f, hf, .long⟩
    · split at h
      · cases h
      · rename_i hone
        obtain ⟨f, hf, a, ha, rfl⟩ := mem_shortForms.1 h
        exact ⟨f, hf, .short (Bool.eq_false_iff.2 hone) ha⟩
  · rintro ⟨f, hf, hform⟩
    cases hform with
    | long => exact .inl ⟨f, hf, rfl⟩
    | short hone ha =>
      rw [hone, if_neg Bool.false_ne_true]
      exact .inr (mem_shortForms.2 ⟨f, hf, _, ha, rfl⟩)

/-- The option that was begun is already a form of one of the flags. -/
def IsComplete (fs : FlagList) (begun : String) : Prop := ∃ f ∈ fs, f.Form begun begun

theorem contains_forms_iff : (forms fs begun).contains begun = true ↔ IsComplete fs begun := by
  rw [List.contains_iff_mem, mem_forms, IsComplete]

instance (fs : FlagList) (begun : String) : Decidable (IsComplete fs begun) :=
  decidable_of_iff _ contains_forms_iff

/-! ## 2. What may follow -/

/-- The long form of a flag, if it is open and goes on what was begun. -/
def longContinuation? (begun : String) (f : Flag) : Option String :=
  if f.IsOpen ∧ Text.beginsWith begun ("--" ++ f.name) = true then some ("--" ++ f.name) else none

/-- The forms of a flag by its aliases that go on what was begun, if the flag is open. -/
def shortContinuations (begun : String) (f : Flag) : List String :=
  if f.IsOpen then (f.aliases.map ("-" ++ ·)).filter (Text.beginsWith begun) else []

/-- What may follow, in the order of the flags: the long forms first, then the others, of which there are
    none behind two dashes. -/
def continuations (fs : FlagList) (begun : String) : List String :=
  fs.filterMap (longContinuation? begun) ++
    if Text.beginsWith "--" begun then [] else fs.flatMap (shortContinuations begun)

theorem filter_longForms (fs : FlagList) (begun : String) :
    (longForms (suggested fs)).filter (Text.beginsWith begun) = fs.filterMap (longContinuation? begun) := by
  induction fs with
  | nil => rfl
  | cons f fs ih =>
    rw [suggested_cons, List.filterMap_cons, ← ih, longContinuation?]
    by_cases hopen : f.IsOpen
    · simp only [hopen, true_and, if_true, longForms, List.map_cons, List.filter_cons]
      split <;> rfl
    · simp only [hopen, false_and, if_false]

theorem filter_shortForms (fs : FlagList) (begun : String) :
    (shortForms (suggested fs)).filter (Text.beginsWith begun) = fs.flatMap (shortContinuations begun) := by
  induction fs with
  | nil => rfl
  | cons f fs ih =>
    rw [suggested_cons, List.flatMap_cons, ← ih, shortContinuations]
    split
    · rw [shortForms, List.flatMap_cons, List.filter_append, ← shortForms]
    · rfl

/-- What may follow are the forms of open flags that go on what was begun, in their order. -/
theorem filter_forms (fs : FlagList) (begun : String) :
    (forms (suggested fs) begun).filter (Text.beginsWith begun) = continuations fs begun := by
  rw [forms, continuations, List.filter_append, filter_longForms, ← filter_shortForms]
  split <;> rfl

/-- **Nothing follows but forms of open flags**, and each of these does if it goes on what was begun. -/
theorem mem_continuations : form ∈ continuations fs begun ↔
    ∃ f ∈ fs, f.IsOpen ∧ f.Form begun form ∧ Text.beginsWith begun form = true := by
  rw [← filter_forms, List.mem_filter, mem_forms]
  constructor
  · rintro ⟨⟨f, hf, hform⟩, hbegins⟩
    obtain ⟨hf, hopen⟩ := mem_suggested.1 hf
    exact ⟨f, hf, hopen, hform, hbegins⟩
  · rintro ⟨f, hf, hopen, hform, hbegins⟩
    exact ⟨⟨f, mem_suggested.2 ⟨hf, hopen⟩, hform⟩, hbegins⟩

/-! ## 3. The answer -/

/-- The answer to an option that is complete is empty. -/
theorem ofFlags_of_complete (h : IsComplete (suggested fs) begun) : ofFlags fs begun = "" := by
  unfold ofFlags
  dsimp only
  rw [if_pos (contains_forms_iff.2 h)]

/-- The answer to any other is all that may follow. -/
theorem ofFlags_of_incomplete (h : ¬ IsComplete (suggested fs) begun) :
    ofFlags fs begun = lines (continuations fs begun) := by
  unfold ofFlags
  dsimp only
  rw [if_neg (mt contains_forms_iff.1 h)]
  exact congrArg lines (filter_forms fs begun)

/-- Every candidate has a line, so there is an answer as soon as there is one. -/
theorem lines_eq_empty_iff {candidates : List String} : lines candidates = "" ↔ candidates = [] := by
  cases candidates with
  | nil => exact iff_of_true rfl rfl
  | cons c cs =>
    refine iff_of_false (fun h => ?_) (List.cons_ne_nil c cs)
    have hlength := congrArg String.length h
    simp [lines, String.join_cons] at hlength

/-- The lines of an answer are its candidates, if there is no line break within one. -/
theorem split_lines {candidates : List String} (h : ∀ c ∈ candidates, '\n' ∉ c.toList) :
    Text.split '\n' (lines candidates) = candidates ++ [""] := by
  induction candidates with
  | nil => rfl
  | cons c cs ih =>
    obtain ⟨hc, hcs⟩ := List.forall_mem_cons.1 h
    have hlines : (lines (c :: cs)).toList = c.toList ++ '\n' :: (lines cs).toList := by
      simp [lines, String.join_cons]
    rw [Text.split, hlines, Text.pieces_append_cons hc, List.map_cons, String.ofList_toList, ← Text.split,
      ih hcs]
    rfl

/-- Flags that are given or hidden play no part. -/
theorem suggested_suggested (fs : FlagList) : suggested (suggested fs) = suggested fs := by
  simp only [suggested, List.filter_filter, Bool.and_self]

/-! ## 4. What it should be -/

/-- What the answer is meant to be: none if the option is complete for the sake of any flag at all. -/
def meant (fs : FlagList) (begun : String) : String :=
  if IsComplete fs begun then "" else lines (continuations fs begun)

/-- The option is complete, but only as a form of flags that were given or are hidden, and there is something
    that may follow it. -/
def Eclipsed (fs : FlagList) (begun : String) : Prop :=
  IsComplete fs begun ∧ ¬ IsComplete (suggested fs) begun ∧ continuations fs begun ≠ []

instance (fs : FlagList) (begun : String) : Decidable (Eclipsed fs begun) :=
  inferInstanceAs (Decidable (_ ∧ _ ∧ _))

theorem isComplete_of_suggested (h : IsComplete (suggested fs) begun) : IsComplete fs begun := by
  obtain ⟨f, hf, hform⟩ := h
  exact ⟨f, (mem_suggested.1 hf).1, hform⟩

/-- **Which options go on, and how.**

    Take any flags and any option that has been begun. The answer is what it is meant to be, but for one
    case: nothing if the option is complete, and otherwise what may follow, a line for each form and in the
    order of the flags, long forms first. What may follow are the forms of flags that are neither given nor
    hidden; such flags play no part in the answer at all, and there the one case comes from. An option that
    is complete as a form of such flags only is gone on with, wherever it can be. -/
theorem ofFlags_of_begun (fs : FlagList) (begun : String) :
    (ofFlags fs begun = meant fs begun ↔ ¬ Eclipsed fs begun) ∧
    (Eclipsed fs begun → ofFlags fs begun = lines (continuations fs begun)) ∧
    ofFlags (suggested fs) begun = ofFlags fs begun ∧
    (∀ form, form ∈ continuations fs begun ↔
      ∃ f ∈ fs, f.IsOpen ∧ f.Form begun form ∧ Text.beginsWith begun form = true) ∧
    ((∀ form ∈ continuations fs begun, '\n' ∉ form.toList) →
      Text.split '\n' (lines (continuations fs begun)) = continuations fs begun ++ [""]) := by
  refine ⟨?_, fun h => ofFlags_of_incomplete h.2.1, ?_, fun _ => mem_continuations, split_lines⟩
  · by_cases hopen : IsComplete (suggested fs) begun
    · rw [ofFlags_of_complete hopen, meant, if_pos (isComplete_of_suggested hopen)]
      exact iff_of_true rfl fun h => h.2.1 hopen
    · rw [ofFlags_of_incomplete hopen, meant]
      split
      · rename_i hall
        rw [lines_eq_empty_iff]
        exact ⟨fun hnone h => h.2.2 hnone,
          fun h => Classical.not_not.1 fun hsome => h ⟨hall, hopen, hsome⟩⟩
      · rename_i hall
        exact iff_of_true rfl fun h => hall h.1
  · unfold ofFlags
    rw [suggested_suggested]

/-- A host that was given, a name that it begins, and a flag that nobody is to see. -/
def hosts : FlagList :=
  [{ name := "host", aliases := ["h"], isSet := true, content := .text "orion" {} },
   { name := "hostname", aliases := ["n", "hn"], content := .text "" {} },
   { name := "oAuthToken", aliases := ["h"], hidden := true, content := .text "" {} },
   { name := "help", content := .truth false }]

/-- One dash finds names and aliases, two find names only; what is complete goes no further, unless its flag
    was given before. -/
theorem ofFlags_of_begun_hosts :
    ¬ Eclipsed hosts "-" ∧ ofFlags hosts "-" = "--hostname\n--help\n-n\n-hn\n" ∧
    ¬ Eclipsed hosts "--h" ∧ ofFlags hosts "--h" = "--hostname\n--help\n" ∧
    ¬ Eclipsed hosts "--help" ∧ ofFlags hosts "--help" = "" ∧
    Eclipsed hosts "-h" ∧ ofFlags hosts "-h" = "-hn\n" := by
  have hdash : ¬ Eclipsed hosts "-" := by decide +kernel
  have hname : ¬ Eclipsed hosts "--h" := by decide +kernel
  have hfull : ¬ Eclipsed hosts "--help" := by decide +kernel
  have halias : Eclipsed hosts "-h" := by decide +kernel
  refine ⟨hdash, ?_, hname, ?_, hfull, ?_, halias, ?_⟩
  · rw [(ofFlags_of_begun hosts "-").1.2 hdash]
    decide +kernel
  · rw [(ofFlags_of_begun hosts "--h").1.2 hname]
    decide +kernel
  · rw [(ofFlags_of_begun hosts "--help").1.2 hfull]
    decide +kernel
  · rw [(ofFlags_of_begun hosts "-h").2.1 halias]
    decide +kernel

/-- An option that is complete is not always left alone: behind `--host` that was given before, the same
    option is answered by a longer one. -/
theorem complete_gone_on_with :
    ¬ ∀ (fs : FlagList) (begun : String), IsComplete fs begun → ofFlags fs begun = "" := by
  intro h
  exact absurd (h hosts "--host" (by decide +kernel)) (by decide +kernel)

end Completion

end BrokerCli
