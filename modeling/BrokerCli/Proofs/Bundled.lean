import BrokerCli.Proofs.Acceptance
import BrokerCli.Proofs.Effects

/-!
# The commands of the tool

Which commands the tool comes with, and what matters of them to the memory:

* `Tool.paths` -- the ways down the tool's commands; every command line that is read walks along one of
  them (`levels_mem_paths`);
* `Tool.action_of_path` -- a command either shows something or forgets something, and those that
  forget have no flag for a host;
* `Tool.host_of_path` -- what a flag for a host declares, if there is one;
* `Tool.Hosted`, `Tool.Hostless` -- what that comes to for the flags of an accepted line.
-/

namespace BrokerCli

open Grammar

/-! ## 1. Flags by their declarations -/

theorem FlagList.get?_declarations (fs : FlagList) (name : String) :
    FlagList.get? (fs.map Flag.declaration) name = (fs.get? name).map Flag.declaration := by
  unfold FlagList.get?
  rw [List.find?_map]
  rfl

/-- Flags with the same declarations are found under the same names. -/
theorem FlagList.get?_of_declarations {fs gs : FlagList}
    (h : gs.map Flag.declaration = fs.map Flag.declaration) (name : String) :
    (gs.get? name).map Flag.declaration = (fs.get? name).map Flag.declaration := by
  rw [← get?_declarations, h, get?_declarations]

/-- A flag that is declared to hold a text holds one. -/
theorem Flag.content_of_kind {f : Flag} {features : TextFeatures}
    (h : f.content.kind = .text "" features) : ∃ value, f.content = .text value features := by
  cases hc : f.content with
  | text value features' =>
    rw [hc] at h
    cases h
    exact ⟨value, rfl⟩
  | truth b =>
    rw [hc] at h
    cases h
  | number n =>
    rw [hc] at h
    cases h

/-- Where no flag can be given by position, none is. -/
theorem Descent.placed_of_no_required {d : Descent} (h : d.required = []) : d.placed.1 = d.flags := by
  have hnothing : d.engages = false := by
    rw [engages, Check.byPosition, h]
    rfl
  rw [placed, hnothing]
  rfl

namespace Tool

/-! ## 2. The ways down -/

/-- The ways down the tool's commands. -/
def paths : List (List Command) :=
  app.commands.flatMap fun c => [c] :: c.subcommands.map ([c, ·])

/-- Below a subcommand there is no other. -/
theorem isGroup_of_mem {c d : Command} (hc : c ∈ app.commands) (hd : d ∈ c.subcommands) :
    d.isGroup = false := by
  have h : (app.commands.all fun c => c.subcommands.all fun d => !d.isGroup) = true := by decide
  simpa using List.all_eq_true.1 (List.all_eq_true.1 h c hc) d hd

theorem mem_paths_of_walks {w w' : Walked} {parts : List Part} (h : Walks w parts w')
    (hw : w.levels ∈ paths) : w'.levels ∈ paths := by
  induction h with
  | done => exact hw
  | option _ _ _ ih => exact ih hw
  | argument _ _ _ ih => exact ih hw
  | @subcommand w w' c name parts hn hg hc _ ih =>
    refine ih ?_
    have hmem : c ∈ w.command.subcommands := List.mem_of_find?_eq_some hc
    obtain ⟨top, htop, hpath⟩ := List.mem_flatMap.1 hw
    rw [Walked.levels_down]
    rcases List.mem_cons.1 hpath with hl | hl
    · obtain ⟨hfirst, hbelow⟩ := List.cons_eq_cons.1 hl
      rw [Walked.command, hbelow, List.getLastD_nil, hfirst] at hmem
      refine List.mem_flatMap.2 ⟨top, htop, List.mem_cons_of_mem _ (List.mem_map.2 ⟨c, hmem, ?_⟩)⟩
      rw [hl]
      rfl
    · obtain ⟨sub, hsub, hl⟩ := List.mem_map.1 hl
      obtain ⟨hfirst, hbelow⟩ := List.cons_eq_cons.1 hl
      have hcommand : w.command = sub := by
        rw [Walked.command, ← hbelow]
        rfl
      rw [hcommand, isGroup_of_mem htop hsub] at hg
      cases hg

theorem levels_mem_paths {s : Split} {globals : Ledger} {w : Walked} (h : s.Reads app globals w) :
    w.levels ∈ paths := by
  refine mem_paths_of_walks h.walked (List.mem_flatMap.2 ⟨s.command, ?_, List.mem_cons_self⟩)
  exact List.mem_of_find?_eq_some h.found

/-! ## 3. What the commands are -/

/-- **Each command of the tool is a group, shows something or forgets something**; and those that forget
    have no flag for a host. -/
theorem action_of_path : ∀ levels ∈ paths, ∀ c, levels.getLast? = some c → c.isGroup = true ∨
    c.isGroup = false ∧ ∃ a, c.action = some a ∧
      (a.Shows ∨ a.Forgets ∧ (Walked.accumulated levels).get? "host" = none) := by
  refine List.forall_mem_cons.2 ⟨?_, List.forall_mem_cons.2 ⟨?_, List.forall_mem_cons.2 ⟨?_,
    List.forall_mem_cons.2 ⟨?_, List.forall_mem_cons.2 ⟨?_, List.forall_mem_cons.2 ⟨?_,
    List.forall_mem_cons.2 ⟨?_, List.forall_mem_cons.2 ⟨?_, List.forall_mem_cons.2 ⟨?_,
    List.forall_mem_nil _⟩⟩⟩⟩⟩⟩⟩⟩⟩
  all_goals
    rintro c ⟨⟩
  · exact .inr ⟨rfl, _, rfl, .inl Resolve.shows_describe⟩
  · exact .inl rfl
  · exact .inr ⟨rfl, _, rfl, .inl Servers.shows_list⟩
  · exact .inr ⟨rfl, _, rfl, .inl Servers.shows_get⟩
  · exact .inl rfl
  · exact .inr ⟨rfl, _, rfl, .inl Remembered.shows_list⟩
  · exact .inr ⟨rfl, _, rfl, .inr ⟨Remembered.forgets_delete, rfl⟩⟩
  · exact .inr ⟨rfl, _, rfl, .inr ⟨Remembered.forgets_clear, rfl⟩⟩
  · exact .inr ⟨rfl, _, rfl, .inr ⟨Remembered.forgets_setMode, rfl⟩⟩

/-- What the commands of a path declare about a host. -/
structure DeclaresHost (levels : List Command) (features : TextFeatures) : Prop where
  flag : ∃ f, (Walked.accumulated levels).get? "host" = some f ∧ f.content.kind = .text "" features ∧
    (f.required = true ∨ "host" ∈ levels.flatMap (·.required))
  remembered : features.remembered = true
  worded : features.allowEmpty = false
  /-- References are followed and no flag is given by position, or there are no flags for slots. -/
  slots : (features.verbatim = false ∧ levels.flatMap (·.required) = []) ∨
    ∀ slot : Slot, (Walked.accumulated levels).get? slot.flag = none

/-- **No command of the tool has a second host; and one that has a host cannot do without it and
    remembers it.** -/
theorem host_of_path : ∀ levels ∈ paths, (Walked.accumulated levels).get? "host2" = none ∧
    ((Walked.accumulated levels).get? "host" = none ∨ ∃ features, DeclaresHost levels features) := by
  refine List.forall_mem_cons.2 ⟨?_, List.forall_mem_cons.2 ⟨?_, List.forall_mem_cons.2 ⟨?_,
    List.forall_mem_cons.2 ⟨?_, List.forall_mem_cons.2 ⟨?_, List.forall_mem_cons.2 ⟨?_,
    List.forall_mem_cons.2 ⟨?_, List.forall_mem_cons.2 ⟨?_, List.forall_mem_cons.2 ⟨?_,
    List.forall_mem_nil _⟩⟩⟩⟩⟩⟩⟩⟩⟩
  · exact ⟨rfl, .inr ⟨_, ⟨_, rfl, rfl, .inl rfl⟩, rfl, rfl, .inl ⟨rfl, rfl⟩⟩⟩
  · exact ⟨rfl, .inl rfl⟩
  · exact ⟨rfl, .inl rfl⟩
  · refine ⟨rfl, .inr ⟨_, ⟨_, rfl, rfl, .inr (by decide)⟩, rfl, rfl, .inr fun slot => ?_⟩⟩
    cases slot <;> rfl
  · exact ⟨rfl, .inl rfl⟩
  · exact ⟨rfl, .inl rfl⟩
  · exact ⟨rfl, .inl rfl⟩
  · exact ⟨rfl, .inl rfl⟩
  · exact ⟨rfl, .inl rfl⟩

/-! ## 4. Accepted lines -/

/-- The flags of an accepted line name a host, in a flag with certain features. -/
structure Hosted (d checked : Descent) (host : String) (features : TextFeatures) : Prop where
  asked : ∃ f value, d.placed.1.textFlag? "host" = some (f, value, features)
  found : ∃ f, checked.flags.textFlag? "host" = some (f, host, features) ∧ f.isSet = true
  named : host ≠ ""
  remembered : features.remembered = true
  /-- What the slots are given is given by name, or they are given nothing. -/
  slots : (features.verbatim = false ∧ d.placed.1 = d.flags) ∨
    ∀ slot : Slot, checked.flags.textIfSet slot.flag = none

/-- There is no flag for a host. -/
structure Hostless (d checked : Descent) : Prop where
  asked : d.placed.1.textFlag? "host" = none
  found : checked.flags.textFlag? "host" = none

variable {s : Split} {globals : Ledger} {w : Walked} {settings : Settings} {servers : ServerTable}
  {checked : Descent}

/-- A flag that is declared to hold a text holds one, whatever it was given. -/
theorem textFlag?_of_kind {fs gs : FlagList} {name : String} {f : Flag} {features : TextFeatures}
    (h : gs.map Flag.declaration = fs.map Flag.declaration) (hf : fs.get? name = some f)
    (hkind : f.content.kind = .text "" features) :
    ∃ g value, gs.textFlag? name = some (g, value, features) ∧ g.required = f.required := by
  have hget := FlagList.get?_of_declarations h name
  rw [hf] at hget
  obtain ⟨g, hg, hdeclaration⟩ := Option.map_eq_some_iff.1 hget
  have hgkind : g.content.kind = f.content.kind := congrArg Flag.content hdeclaration
  have hgrequired : g.declaration.required = f.declaration.required :=
    congrArg Flag.required hdeclaration
  obtain ⟨value, hvalue⟩ := Flag.content_of_kind (hgkind.trans hkind)
  exact ⟨g, value, FlagList.textFlag?_eq_some_iff.2 ⟨hg, hvalue⟩, hgrequired⟩

theorem textFlag?_of_declared {fs : FlagList} {levels : List Command} {features : TextFeatures}
    (hfs : fs.map Flag.declaration = (Walked.accumulated levels).map Flag.declaration)
    (h : DeclaresHost levels features) : ∃ f value, fs.textFlag? "host" = some (f, value, features) ∧
      (f.required = true ∨ "host" ∈ levels.flatMap (·.required)) := by
  obtain ⟨f, hf, hkind, hdemanded⟩ := h.flag
  obtain ⟨g, value, hg, hrequired⟩ := textFlag?_of_kind hfs hf hkind
  exact ⟨g, value, hg, hdemanded.imp hrequired.trans id⟩

theorem get?_eq_none_of_declared {fs : FlagList} {levels : List Command} {name : String}
    (hfs : fs.map Flag.declaration = (Walked.accumulated levels).map Flag.declaration)
    (h : (Walked.accumulated levels).get? name = none) : fs.get? name = none := by
  have hget := FlagList.get?_of_declarations hfs name
  rw [h] at hget
  exact Option.map_eq_none_iff.1 hget

/-- What is given by position changes no declaration. -/
theorem declarations_placed (hr : s.Reads app globals w) :
    w.descent.placed.1.map Flag.declaration =
      (Walked.accumulated w.levels).map Flag.declaration :=
  w.descent.extends_placed.declarations.trans
    (hr.walked.declarations (Walked.declarations_start s.command))

theorem textFlag?_placed_of_none (hr : s.Reads app globals w)
    (h : (Walked.accumulated w.levels).get? "host" = none) :
    w.descent.placed.1.textFlag? "host" = none := by
  rw [FlagList.textFlag?, get?_eq_none_of_declared (declarations_placed hr) h]
  rfl

/-- **An accepted line of the tool has no second host, and names a host or has no flag for one.** -/
theorem host_of_verdict (hr : s.Reads app globals w)
    (hv : w.descent.verdict settings servers = .ok checked) :
    checked.flags.textIfSet "host2" = none ∧
      (Hostless w.descent checked ∨
        ∃ host features, Hosted w.descent checked host features) := by
  obtain ⟨_, hrequired, hsame, ⟨hgiven, _⟩, hdemanded, hworded, _⟩ := Descent.demands_of_verdict hv
  have hchecked := hsame.trans (hr.walked.declarations (Walked.declarations_start s.command))
  obtain ⟨htwo, hhost⟩ := host_of_path _ (levels_mem_paths hr)
  have hnone {name : String} (h : (Walked.accumulated w.levels).get? name = none) :
      checked.flags.textIfSet name = none := by
    have hget := get?_eq_none_of_declared hchecked h
    simp only [FlagList.textIfSet, FlagList.isSet, hget, Option.any_none, Bool.false_eq_true, if_false]
  refine ⟨hnone htwo, ?_⟩
  rcases hhost with hnohost | ⟨features, hdeclares⟩
  · refine .inl ⟨textFlag?_placed_of_none hr hnohost, ?_⟩
    rw [FlagList.textFlag?, get?_eq_none_of_declared hchecked hnohost]
    rfl
  · obtain ⟨f, value, hf, _⟩ := textFlag?_of_declared (declarations_placed hr) hdeclares
    obtain ⟨g, host, hg, hmust⟩ := textFlag?_of_declared hchecked hdeclares
    obtain ⟨hget, hcontent⟩ := FlagList.textFlag?_eq_some_iff.1 hg
    have hmem : g ∈ checked.flags := List.mem_of_find?_eq_some hget
    have hset : g.isSet = true := by
      rcases hmust with hmust | hmust
      · exact hdemanded g hmem hmust
      · have hgiven := hgiven "host" (by rw [hrequired]; exact hmust)
        rw [FlagList.isSet, hget] at hgiven
        exact hgiven
    refine .inr ⟨host, features, ⟨f, value, hf⟩, ⟨g, hg, hset⟩, ?_, hdeclares.remembered, ?_⟩
    · rintro rfl
      exact hworded g hmem ⟨features, hcontent, hset, hdeclares.worded⟩
    · exact hdeclares.slots.imp (fun h => ⟨h.1, Descent.placed_of_no_required h.2⟩)
        fun h slot => hnone (h slot)

end Tool

end BrokerCli
