import Mathlib.Data.List.Forall2
import BrokerCli.Proofs.Grammar
import BrokerCli.Proofs.Verdict

/-!
# What happens to flags while a command line is read

Options, arguments and the memory give values to flags. None of them touches what a flag DECLARES, and
none of them takes back that a flag was given:

* `Flag.declaration` -- a flag as it was declared, without its value;
* `Flag.Extends`, `FlagList.Extends` -- the same declarations, and no flag less given;
* `Descent.extends_filled` -- arguments by position and the memory extend the flags;
* `Check.isSet_place` -- arguments by position that meet no complaint give all the flags they stand
  for;
* `Walks.unset_help` -- what is read to its end does not ask for help by an option;
* `Walks.declarations` -- so at the end of the reading the flags are those that the commands of the
  chain declare.
-/

namespace BrokerCli

/-! ## 1. One flag -/

/-- A content without its value. -/
def FlagContent.kind : FlagContent → FlagContent
  | .text _ features => .text "" features
  | .truth _ => .truth false
  | .number _ => .number 0

namespace Flag

/-- What a flag declares. -/
def declaration (f : Flag) : Flag := { f with isSet := false, content := f.content.kind }

/-- The same flag, and no less given. -/
structure Extends (f g : Flag) : Prop where
  declaration : g.declaration = f.declaration
  isSet : f.isSet = true → g.isSet = true

namespace Extends

variable {f g h : Flag}

theorem refl (f : Flag) : Extends f f := ⟨rfl, id⟩

theorem trans (hfg : Extends f g) (hgh : Extends g h) : Extends f h :=
  ⟨hgh.declaration.trans hfg.declaration, fun hf => hgh.isSet (hfg.isSet hf)⟩

theorem name (hfg : Extends f g) : g.name = f.name := by
  have hn : g.declaration.name = f.declaration.name := congrArg Flag.name hfg.declaration
  exact hn

end Extends

variable {f g : Flag}

/-- A content of the same kind extends a flag. -/
theorem extends_setTo {c : FlagContent} (h : c.kind = f.content.kind) : Extends f (f.setTo c) := by
  refine ⟨?_, fun _ => rfl⟩
  unfold declaration setTo
  rw [h]

/-- What a content takes is of its kind. -/
theorem kind_of_taken {c c' : FlagContent} {v : Given} (h : taken c v = .ok c') :
    c'.kind = c.kind := by
  unfold taken at h
  split at h
  all_goals first
    | cases h
      rfl
    | cases h
    | split at h
      · cases h
        rfl
      · cases h

theorem extends_of_assign {v : Given} (h : f.assign v = .ok g) : Extends f g := by
  unfold assign at h
  split at h
  · rename_i hc
    cases h
    exact extends_setTo (kind_of_taken hc)
  · cases h

theorem extends_withText (f : Flag) (s : String) : Extends f (f.withText s) := by
  unfold withText
  split
  · rename_i hf
    refine extends_setTo ?_
    rw [hf]
    rfl
  · exact .refl f

/-- What the grammar says that a flag takes is of its kind. -/
theorem extends_of_takes {value : Option String} {rest : List String} {c : FlagContent}
    (h : Grammar.Takes f value rest c) : Extends f (f.setTo c) := by
  refine extends_setTo ?_
  cases h with
  | text hf => rw [hf]; rfl
  | number hf => rw [hf]; rfl
  | word hf => rw [hf]; rfl
  | bare hf => rw [hf]; rfl

end Flag

/-! ## 2. Lists of flags -/

namespace FlagList

/-- The same flags in the same order, and none less given. -/
abbrev Extends (fs gs : FlagList) : Prop := List.Forall₂ Flag.Extends fs gs

variable {fs gs hs : FlagList}

theorem Extends.refl (fs : FlagList) : Extends fs fs := List.forall₂_same.2 fun f _ => .refl f

theorem Extends.trans (h : Extends fs gs) (h' : Extends gs hs) : Extends fs hs := by
  induction h generalizing hs with
  | nil => exact h'
  | cons hfg _ ih =>
    cases h' with
    | cons hgh h' => exact .cons (hfg.trans hgh) (ih h')

/-- What was given stays given. -/
theorem Extends.isSet (h : Extends fs gs) {name : String} (hs : fs.isSet name = true) :
    gs.isSet name = true := by
  unfold FlagList.isSet FlagList.get? at hs ⊢
  induction h with
  | nil => exact hs
  | @cons f g fs gs hfg _ ih =>
    rw [List.find?_cons] at hs ⊢
    rw [hfg.name]
    by_cases hn : f.name = name
    · simp only [hn, decide_true, Option.any_some] at hs ⊢
      exact hfg.isSet hs
    · simp only [hn, decide_false] at hs ⊢
      exact ih hs

/-- What is given is given by a flag of the name. -/
theorem exists_of_isSet {name : String} (h : fs.isSet name = true) :
    ∃ f ∈ fs, f.name = name ∧ f.isSet = true := by
  obtain ⟨f, hf, hset⟩ := (Option.any_eq_true _ _).1 h
  exact ⟨f, List.mem_of_find?_eq_some hf, FlagList.name_of_get? hf, hset⟩

theorem Extends.declarations (h : Extends fs gs) :
    gs.map Flag.declaration = fs.map Flag.declaration := by
  induction h with
  | nil => rfl
  | cons hfg _ ih => rw [List.map_cons, List.map_cons, hfg.declaration, ih]

/-- An exchange of a flag for one that extends it. -/
theorem extends_replace {p : Flag → Bool} {f : Flag} {fs : FlagList}
    (h : ∀ g, fs.find? p = some g → Flag.Extends g f) : Extends fs (replace p f fs) := by
  induction fs with
  | nil => exact .nil
  | cons g gs ih =>
    by_cases hg : p g = true
    · rw [replace, if_pos hg]
      exact .cons (h g (by simp [hg])) (Extends.refl gs)
    · rw [replace, if_neg hg]
      exact .cons (.refl g) (ih (by simpa [hg] using h))

theorem extends_update (fs : FlagList) (name : String) {change : Flag → Flag}
    (h : ∀ f, Flag.Extends f (change f)) : Extends fs (fs.update name change) := by
  unfold update
  split
  · rename_i f hf
    refine extends_replace fun g hg => ?_
    rw [Option.some.inj (hg.symm.trans hf)]
    exact h f
  · exact .refl fs

end FlagList

/-! ## 3. Arguments by position, and the memory -/

namespace Check

theorem extends_placeOne (fs : FlagList) (name arg : String) :
    fs.Extends (placeOne fs name arg).1 := by
  unfold placeOne
  split
  · exact .refl fs
  · rename_i f hf
    split
    · rename_i f' hf'
      refine FlagList.extends_replace fun g hg => ?_
      rw [Option.some.inj (hg.symm.trans hf)]
      exact Flag.extends_of_assign hf'
    · exact .refl fs

theorem extends_place (fs : FlagList) (pairs : List (String × String)) :
    fs.Extends (place fs pairs).1 := by
  induction pairs generalizing fs with
  | nil => exact .refl fs
  | cons pair pairs ih => exact (extends_placeOne fs pair.1 pair.2).trans (ih _)

/-- An argument that meets no complaint gives the flag it stands for. -/
theorem isSet_placeOne {fs : FlagList} {name arg : String} (h : (placeOne fs name arg).2 = []) :
    (placeOne fs name arg).1.isSet name = true := by
  unfold placeOne at h ⊢
  split at h
  · cases h
  rename_i f hf
  split at h
  · rename_i f' hf'
    have hname : f.name = name := FlagList.name_of_get? hf
    have hhas : fs.has name = true := by
      unfold FlagList.has
      rw [hf]
      rfl
    dsimp only
    rw [FlagList.isSet, FlagList.get?_replace ((Flag.name_of_assign hf').trans hname) hhas]
    exact Flag.isSet_of_assign hf'
  · cases h

/-- **Arguments that meet no complaint give all the flags they stand for.** -/
theorem isSet_place {fs : FlagList} {pairs : List (String × String)} (h : (place fs pairs).2 = [])
    {pair : String × String} (hp : pair ∈ pairs) : (place fs pairs).1.isSet pair.1 = true := by
  induction pairs generalizing fs with
  | nil => cases hp
  | cons first pairs ih =>
    obtain ⟨hfirst, hmore⟩ := List.append_eq_nil_iff.1 h
    rcases List.mem_cons.1 hp with rfl | hp
    · exact (extends_place _ pairs).isSet (isSet_placeOne hfirst)
    · exact ih hmore hp

end Check

namespace Memory

theorem extends_fill (fs : FlagList) (name value : String) : fs.Extends (fill fs name value) := by
  unfold fill
  split
  · exact .refl fs
  split
  · split
    · exact .refl fs
    · exact FlagList.extends_update fs name fun f => Flag.extends_withText f value
  · exact .refl fs

theorem extends_fillFromServer (fs : FlagList) (servers : ServerTable) (verbatim : Bool) :
    fs.Extends (fillFromServer fs servers verbatim) := by
  unfold fillFromServer fillFromRegistry
  split
  · exact .refl fs
  split
  · exact .refl fs
  split
  · exact .refl fs
  · exact (extends_fill fs _ _).trans (extends_fill _ _ _)

theorem extends_fillFromSettings (fs : FlagList) (s : Settings) :
    fs.Extends (fillFromSettings fs s) := by
  unfold fillFromSettings
  generalize remembered s = slots
  induction slots generalizing fs with
  | nil => exact .refl fs
  | cons slot slots ih => exact (extends_fill fs slot.1 slot.2).trans (ih _)

/-- The memory extends the flags, whatever it does. -/
theorem extends_reconcile (fs : FlagList) (s : Settings) (servers : ServerTable) :
    fs.Extends (reconcile fs s servers).flags := by
  unfold reconcile reconcileWith
  split
  · exact .refl fs
  split
  · split
    · exact extends_fillFromServer fs servers _
    · exact ((extends_fill fs _ _).trans (extends_fillFromServer _ servers _)).trans
        (extends_fillFromSettings _ s)
  split
  · exact extends_fillFromServer fs servers _
  · exact .refl fs

end Memory

namespace Descent

variable (d : Descent) (s : Settings) (servers : ServerTable)

theorem extends_placed : d.flags.Extends d.placed.1 := by
  unfold placed
  split
  · exact Check.extends_place _ _
  · exact .refl _

/-- **Arguments by position and the memory extend the flags.** -/
theorem extends_filled : d.flags.Extends (d.filled s servers) :=
  d.extends_placed.trans (Memory.extends_reconcile _ s servers)

/-- Where the arguments stand for the required flags and meet no complaint, these are given. -/
theorem isSet_filled_of_engages (he : d.engages = true) (hp : d.placed.2 = []) {name : String}
    (hn : name ∈ d.required) : (d.filled s servers).isSet name = true := by
  refine (Memory.extends_reconcile d.placed.1 s servers).isSet ?_
  unfold placed at hp ⊢
  rw [if_pos he] at hp ⊢
  have hl : d.required.length ≤ d.args.length := by
    have h := he
    simp only [engages, Check.byPosition, Bool.and_eq_true, beq_iff_eq] at h
    exact Nat.le_of_eq h.2.symm
  obtain ⟨arg, hz⟩ : ∃ arg, (name, arg) ∈ d.required.zip d.args := by
    have hm : name ∈ (d.required.zip d.args).map Prod.fst := by
      rwa [List.map_fst_zip hl]
    obtain ⟨pair, hpair, rfl⟩ := List.mem_map.1 hm
    exact ⟨pair.2, hpair⟩
  exact Check.isSet_place hp hz

end Descent

/-! ## 4. The way down -/

namespace Grammar

theorem Enters.extends {l l' : Ledger} {s : Segment} {rest : List String} (h : Enters l s rest l') :
    l.flags.Extends l'.flags := by
  cases h with
  | @intro o f c ho hf hc =>
    rw [Ledger.flags_record c hf]
    refine FlagList.extends_replace fun g hg => ?_
    rw [Option.some.inj (hg.symm.trans hf)]
    exact Flag.extends_of_takes hc

/-- Flags that are reset are not given. -/
theorem unset_of_mem_reset {fs : FlagList} {f : Flag} (h : f ∈ fs.reset) : f.isSet = false := by
  obtain ⟨_, _, rfl⟩ := List.mem_map.1 h
  rfl

/-- **Nothing that is read to its end asks for help by an option.** -/
theorem Walks.unset_help {w w' : Walked} {parts : List Part} (h : Walks w parts w')
    (hw : w.ledger.flags.isSet "help" = false) : w'.ledger.flags.isSet "help" = false := by
  induction h with
  | done => exact hw
  | option _ hh _ ih => exact ih hh
  | @subcommand w _ c _ _ _ _ _ _ ih =>
    refine ih (Bool.eq_false_iff.2 fun hset => ?_)
    obtain ⟨f, hf, hn, hset⟩ := FlagList.exists_of_isSet hset
    simp only [Walked.down, Ledger.flags_append, Ledger.flags_without, Ledger.flags_declare] at hf
    rcases List.mem_append.1 hf with hf | hf
    · exact of_decide_eq_true (List.mem_filter.1 hf).2 hn
    · rw [unset_of_mem_reset hf] at hset
      cases hset
  | argument _ _ _ ih => exact ih hw

theorem Walked.unset_help_start (c : Command) : (start c).ledger.flags.isSet "help" = false := by
  refine Bool.eq_false_iff.2 fun hset => ?_
  obtain ⟨f, hf, _, hset⟩ := FlagList.exists_of_isSet hset
  rw [start, Ledger.flags_declare] at hf
  rw [unset_of_mem_reset hf] at hset
  cases hset

/-- Reset flags declare what they declared. -/
theorem declarations_reset (fs : FlagList) :
    fs.reset.map Flag.declaration = fs.map Flag.declaration := by
  rw [FlagList.reset, List.map_map]
  rfl

theorem declarations_without (fs : FlagList) (name : String) :
    (fs.without name).map Flag.declaration =
      FlagList.without (fs.map Flag.declaration) name := by
  rw [FlagList.without, FlagList.without, List.filter_map]
  rfl

/-- **The flags are those that the commands of the chain declare**, whatever they are given. -/
theorem Walks.declarations {w w' : Walked} {parts : List Part} (h : Walks w parts w')
    (hw : w.ledger.flags.map Flag.declaration =
      (Walked.accumulated w.levels).map Flag.declaration) :
    w'.ledger.flags.map Flag.declaration =
      (Walked.accumulated w'.levels).map Flag.declaration := by
  induction h with
  | done => exact hw
  | option hs _ _ ih => exact ih (hs.extends.declarations.trans hw)
  | @subcommand w _ c _ _ _ _ _ _ ih =>
    refine ih ?_
    rw [Walked.accumulated_down, List.map_append, declarations_without, ← hw, ← declarations_without,
      ← declarations_reset (Walked.declared c)]
    simp only [Walked.down, Ledger.flags_append, Ledger.flags_without, Ledger.flags_declare,
      List.map_append]
  | argument _ _ _ ih => exact ih hw

theorem Walked.declarations_start (c : Command) :
    (start c).ledger.flags.map Flag.declaration =
      (accumulated (start c).levels).map Flag.declaration := by
  rw [start, Ledger.flags_declare, declarations_reset]
  rfl

end Grammar

end BrokerCli
