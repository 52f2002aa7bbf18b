import Mathlib.Data.List.Basic
import Mathlib.Data.List.Forall2
import Mathlib.Data.List.Nodup
import BrokerCli.Help

/-!
# The commands of the tool, by category

The help page of the tool shows its commands in blocks, one for each category. The blocks come out of a
dictionary, a sort and a filter; what they are does not depend on that:

* `Help.Precedes` -- the order of headings: by capitals, those with the same capitals by their text, and
  `lastCategory` behind all others. No two headings precede each other;
* `Help.filter_mergeSort_of_ties` -- a sort that is stable leaves entries alone among which it sees no
  difference. So headings with the same capitals stay in the order in which the dictionary has them
  (`Help.pairwise_categories`);
* `Help.Grouping` -- blocks in which every command stands once, under its own category, and in the order in
  which it was declared. There is exactly one such grouping (`Help.grouping_iff`);
* `Help.IsRow` -- a line has its right entry at an offset, with two blanks at least before it. A row is such
  a line for any width that its left entry does not exceed (`isRow_row`);
* `Help.Stacked` -- a text is made of one piece for each entry. Tables are, of rows at one offset
  (`stacked_table`), and the blocks of commands are made of such rows (`stacked_blocks`);
* `Help.commandList_grouped` -- the grouping is what is shown.
-/

namespace BrokerCli

/-! ## 1. Keys and sorts -/

namespace Dictionary

variable {α : Type}

theorem mem_keys_iff {d : Dictionary α} {k : String} : k ∈ d.keys ↔ (d.get? k).isSome = true := by
  simp [keys, get?, List.find?_isSome]

/-- The keys of a dictionary are those of its entries. -/
theorem mem_keys_ofList {es : List (String × α)} {k : String} :
    k ∈ (ofList es).keys ↔ k ∈ es.map Prod.fst := by
  have hfold (d : Dictionary α) :
      k ∈ (es.foldl (fun d e => d.insert e.1 e.2) d).keys ↔ k ∈ d.keys ∨ k ∈ es.map Prod.fst := by
    induction es generalizing d with
    | nil => simp
    | cons e es ih =>
      have hinsert : k ∈ (d.insert e.1 e.2).keys ↔ k = e.1 ∨ k ∈ d.keys := by
        rw [mem_keys_iff, mem_keys_iff, get?_insert]
        by_cases hk : k = e.1 <;> simp [hk]
      rw [List.foldl_cons, ih, hinsert, List.map_cons, List.mem_cons, or_assoc, or_left_comm]
  exact (hfold empty).trans (or_iff_right List.not_mem_nil)

end Dictionary

namespace Help

/-- **A stable sort leaves alone what it cannot tell apart.** -/
theorem filter_mergeSort_of_ties {α : Type} {le : α → α → Bool} {p : α → Bool}
    (trans : ∀ a b c, le a b = true → le b c = true → le a c = true)
    (total : ∀ a b, (le a b || le b a) = true) (hties : ∀ a b, p a = true → p b = true → le a b = true)
    (xs : List α) : (xs.mergeSort le).filter p = xs.filter p := by
  have hsorted : (xs.filter p).Pairwise fun a b => le a b = true :=
    List.pairwise_of_forall_mem_list fun a ha b hb =>
      hties a b (List.mem_filter.1 ha).2 (List.mem_filter.1 hb).2
  have hkept : (xs.filter p).Sublist ((xs.mergeSort le).filter p) := by
    have hsub := (List.sublist_mergeSort trans total hsorted List.filter_sublist).filter p
    simp only [List.filter_filter, Bool.and_self] at hsub
    exact hsub
  exact (hkept.eq_of_length ((List.mergeSort_perm xs le).filter p).length_eq.symm).symm

/-- Entries are found again, each once, under the keys that occur among them. -/
theorem perm_flatMap_filter {α : Type} {key : α → String} {ks : List String} (hks : ks.Nodup) {xs : List α}
    (hall : ∀ x ∈ xs, key x ∈ ks) : (ks.flatMap fun k => xs.filter fun x => key x = k).Perm xs := by
  induction ks generalizing xs with
  | nil =>
    cases xs with
    | nil => exact .refl _
    | cons x xs => exact absurd (hall x List.mem_cons_self) List.not_mem_nil
  | cons k ks ih =>
    obtain ⟨hk, hks⟩ := List.nodup_cons.1 hks
    -- the entries under the other keys are found among those that are not under this one
    have hothers : (ks.flatMap fun k' => xs.filter fun x => key x = k') =
        ks.flatMap fun k' => (xs.filter fun x => !decide (key x = k)).filter fun x => key x = k' := by
      refine List.flatMap_congr fun k' hk' => ?_
      rw [List.filter_filter]
      refine List.filter_congr fun x _ => ?_
      have hne : key x = k' → key x ≠ k := fun h e => hk (e ▸ h ▸ hk')
      by_cases h : key x = k' <;> simp [h]
      exact fun e => hne h (h.trans e)
    rw [List.flatMap_cons, hothers]
    refine ((ih hks fun x hx => ?_).append_left _).trans (List.filter_append_perm _ _)
    obtain ⟨hx, hne⟩ := List.mem_filter.1 hx
    exact (List.mem_cons.1 (hall x hx)).resolve_left (by simpa using hne)

/-! ## 2. The order of headings -/

variable {a b c k : String} {cs shown : List Command}

/-- One heading comes before another: its capitals do, or the capitals are the same and its text does; and
    `lastCategory` comes behind all others. -/
def Precedes (a b : String) : Prop :=
  a ≠ lastCategory ∧
    (b = lastCategory ∨ Text.upper a < Text.upper b ∨ Text.upper a = Text.upper b ∧ a < b)

theorem Precedes.asymm (h : Precedes a b) : ¬ Precedes b a := by
  rintro ⟨hb, hba⟩
  obtain ⟨ha, hab⟩ := h
  rcases hab.resolve_left hb with hab | ⟨hsame, hab⟩ <;>
    rcases hba.resolve_left ha with hba | ⟨hsame', hba⟩
  · exact String.lt_irrefl _ (String.lt_trans hab hba)
  · exact String.lt_irrefl _ (hsame' ▸ hab)
  · exact String.lt_irrefl _ (hsame ▸ hba)
  · exact String.lt_irrefl _ (String.lt_trans hab hba)

theorem nodup_of_pairwise {ks : List String} (h : ks.Pairwise Precedes) : ks.Nodup :=
  h.imp fun hab e => (e ▸ hab).asymm (e ▸ hab)

theorem categoryLe_iff :
    categoryLe a b = true ↔ b = lastCategory ∨ a ≠ lastCategory ∧ Text.upper a ≤ Text.upper b := by
  unfold categoryLe
  by_cases hb : b = lastCategory
  · simp [hb]
  · by_cases ha : a = lastCategory <;> simp [ha, hb]

theorem categoryLe_trans (a b c : String) (hab : categoryLe a b = true) (hbc : categoryLe b c = true) :
    categoryLe a c = true := by
  rw [categoryLe_iff] at hab hbc ⊢
  rcases hbc with hc | ⟨hb, hbc⟩
  · exact .inl hc
  · obtain ⟨ha, hab⟩ := hab.resolve_left hb
    exact .inr ⟨ha, String.le_trans hab hbc⟩

theorem categoryLe_total (a b : String) : (categoryLe a b || categoryLe b a) = true := by
  rw [Bool.or_eq_true, categoryLe_iff, categoryLe_iff]
  by_cases ha : a = lastCategory
  · exact .inr (.inl ha)
  · by_cases hb : b = lastCategory
    · exact .inl (.inl hb)
    · refine (String.le_total (Text.upper a) (Text.upper b)).imp (fun h => ?_) fun h => ?_
      · exact .inr ⟨ha, h⟩
      · exact .inr ⟨hb, h⟩

theorem mem_categories : k ∈ categories cs ↔ ∃ c ∈ cs, c.category = k := by
  rw [categories, List.mem_mergeSort, Dictionary.mem_keys_ofList, List.map_map]
  exact List.mem_map

/-- A heading other than `lastCategory` with these capitals. -/
def hasCapitals (capitals k : String) : Bool := k ≠ lastCategory ∧ Text.upper k = capitals

theorem hasCapitals_iff {capitals : String} :
    hasCapitals capitals k = true ↔ k ≠ lastCategory ∧ Text.upper k = capitals := decide_eq_true_iff

/-- Headings with the same capitals stand as they stood before they were sorted. -/
theorem sublist_of_same {ks : List String} (ha : a ≠ lastCategory) (hb : b ≠ lastCategory)
    (hsame : Text.upper a = Text.upper b) (hab : [a, b].Sublist (ks.mergeSort categoryLe)) :
    [a, b].Sublist ks := by
  have hties (x y : String) (hx : hasCapitals (Text.upper b) x = true)
      (hy : hasCapitals (Text.upper b) y = true) : categoryLe x y = true := by
    obtain ⟨hx, hxb⟩ := hasCapitals_iff.1 hx
    obtain ⟨_, hyb⟩ := hasCapitals_iff.1 hy
    exact categoryLe_iff.2 (.inr ⟨hx, hxb.trans hyb.symm ▸ String.le_refl _⟩)
  have hpair : [a, b].filter (hasCapitals (Text.upper b)) = [a, b] := by
    refine List.filter_eq_self.2 (List.forall_mem_cons.2 ⟨?_, List.forall_mem_singleton.2 ?_⟩)
    · exact hasCapitals_iff.2 ⟨ha, hsame⟩
    · exact hasCapitals_iff.2 ⟨hb, rfl⟩
  have hkept := hab.filter (hasCapitals (Text.upper b))
  rw [hpair, filter_mergeSort_of_ties categoryLe_trans categoryLe_total hties] at hkept
  exact hkept.trans List.filter_sublist

/-- **The headings stand in their order**, each once. -/
theorem pairwise_categories (cs : List Command) : (categories cs).Pairwise Precedes := by
  unfold categories
  generalize Dictionary.ofList (cs.map fun c => (c.category, ())) = d
  have hascending : d.keys.Pairwise (· < ·) := d.ascending
  have hnodup : (d.keys.mergeSort categoryLe).Nodup :=
    (List.mergeSort_perm _ _).nodup_iff.2 (hascending.imp fun {a b} (h : a < b) => String.ne_of_lt h)
  refine List.pairwise_iff_forall_sublist.2 fun {a b} hab => ?_
  have hne : a ≠ b := fun e => (List.nodup_cons.1 (hnodup.sublist hab)).1 (List.mem_singleton.2 e)
  have hle : categoryLe a b = true :=
    List.pairwise_iff_forall_sublist.1 (List.pairwise_mergeSort categoryLe_trans categoryLe_total d.keys) hab
  rcases categoryLe_iff.1 hle with hb | ⟨ha, hle⟩
  · exact ⟨fun ha => hne (ha.trans hb.symm), .inl hb⟩
  refine ⟨ha, ?_⟩
  by_cases hb : b = lastCategory
  · exact .inl hb
  by_cases hlt : Text.upper a < Text.upper b
  · exact .inr (.inl hlt)
  have hsame : Text.upper a = Text.upper b := String.le_antisymm hle (String.not_lt.1 hlt)
  exact .inr (.inr ⟨hsame, List.pairwise_iff_forall_sublist.1 hascending (sublist_of_same ha hb hsame hab)⟩)

/-! ## 3. Blocks -/

/-- A heading with the commands below it. -/
structure Block where
  category : String
  commands : List Command

/-- Blocks for commands. No command is lost or stands twice; each stands under its own category, and no
    heading is there for nothing. The headings are in their order, and below each of them commands are in the
    order in which they were declared. -/
structure Grouping (shown : List Command) (blocks : List Block) : Prop where
  all : (blocks.flatMap Block.commands).Perm shown
  own : ∀ b ∈ blocks, ∀ c ∈ b.commands, c.category = b.category
  occupied : ∀ b ∈ blocks, b.commands ≠ []
  ordered : (blocks.map Block.category).Pairwise Precedes
  declared : ∀ b ∈ blocks, b.commands.Sublist shown

/-- The commands of a category. -/
def within (shown : List Command) (category : String) : List Command :=
  shown.filter fun c => c.category = category

/-- The blocks that are shown. -/
def blocks (shown : List Command) : List Block :=
  (categories shown).map fun k => ⟨k, within shown k⟩

theorem map_category_blocks (shown : List Command) : (blocks shown).map Block.category = categories shown := by
  rw [blocks, List.map_map]
  exact List.map_id _

/-- The blocks that are shown are a grouping. -/
theorem grouping_blocks (shown : List Command) : Grouping shown (blocks shown) where
  all := by
    have hnodup := nodup_of_pairwise (pairwise_categories shown)
    rw [blocks, List.flatMap_map]
    exact perm_flatMap_filter hnodup fun c hc => mem_categories.2 ⟨c, hc, rfl⟩
  own b hb c hc := by
    obtain ⟨k, _, rfl⟩ := List.mem_map.1 hb
    exact of_decide_eq_true (List.mem_filter.1 hc).2
  occupied b hb := by
    obtain ⟨k, hk, rfl⟩ := List.mem_map.1 hb
    obtain ⟨c, hc, hcategory⟩ := mem_categories.1 hk
    exact List.ne_nil_of_mem (List.mem_filter.2 ⟨hc, decide_eq_true hcategory⟩)
  ordered := by
    rw [map_category_blocks]
    exact pairwise_categories shown
  declared b hb := by
    obtain ⟨k, _, rfl⟩ := List.mem_map.1 hb
    exact List.filter_sublist

namespace Grouping

variable {bs : List Block}

/-- There is a heading for just the categories of the commands. -/
theorem mem_headings (h : Grouping shown bs) :
    k ∈ bs.map Block.category ↔ ∃ c ∈ shown, c.category = k := by
  constructor
  · intro hk
    obtain ⟨b, hb, rfl⟩ := List.mem_map.1 hk
    obtain ⟨c, hc⟩ := List.exists_mem_of_ne_nil _ (h.occupied b hb)
    exact ⟨c, (h.declared b hb).mem hc, h.own b hb c hc⟩
  · rintro ⟨c, hc, rfl⟩
    obtain ⟨b, hb, hc⟩ := List.mem_flatMap.1 (h.all.mem_iff.2 hc)
    exact List.mem_map.2 ⟨b, hb, (h.own b hb c hc).symm⟩

/-- Of all the commands in blocks with different headings, those of a category stand in its block. -/
theorem within_flatMap {b : Block} (hown : ∀ b ∈ bs, ∀ c ∈ b.commands, c.category = b.category)
    (hnodup : (bs.map Block.category).Nodup) (hb : b ∈ bs) :
    within (bs.flatMap Block.commands) b.category = b.commands := by
  have hself {b : Block} (hown : ∀ c ∈ b.commands, c.category = b.category) :
      within b.commands b.category = b.commands :=
    List.filter_eq_self.2 fun c hc => decide_eq_true (hown c hc)
  have hother {b : Block} {k : String} (hown : ∀ c ∈ b.commands, c.category = b.category)
      (hne : b.category ≠ k) : within b.commands k = [] :=
    List.filter_eq_nil_iff.2 fun c hc h => hne ((hown c hc).symm.trans (of_decide_eq_true h))
  induction bs with
  | nil => cases hb
  | cons first bs ih =>
    obtain ⟨hfirst, hrest⟩ := List.forall_mem_cons.1 hown
    obtain ⟨hnew, hnodup⟩ := List.nodup_cons.1 hnodup
    rw [List.flatMap_cons, within, List.filter_append]
    change within first.commands b.category ++ within (bs.flatMap Block.commands) b.category = _
    rcases List.mem_cons.1 hb with rfl | hb
    · have hnone : within (bs.flatMap Block.commands) b.category = [] := by
        rw [within, List.filter_flatMap, List.flatMap_eq_nil_iff]
        exact fun b' hb' => hother (hrest b' hb') fun e => hnew (List.mem_map.2 ⟨b', hb', e⟩)
      rw [hself hfirst, hnone, List.append_nil]
    · have hne : first.category ≠ b.category := fun e => hnew (List.mem_map.2 ⟨b, hb, e.symm⟩)
      rw [hother hfirst hne, ih hrest hnodup hb, List.nil_append]

/-- Below a heading stand the commands of its category. -/
theorem commands_eq (h : Grouping shown bs) {b : Block} (hb : b ∈ bs) :
    b.commands = within shown b.category := by
  have hown := List.filter_eq_self.2 fun c hc => decide_eq_true (h.own b hb c hc)
  have hsub := (h.declared b hb).filter fun c => decide (c.category = b.category)
  rw [hown] at hsub
  have hlength : (within (bs.flatMap Block.commands) b.category).length = (within shown b.category).length :=
    (h.all.filter _).length_eq
  rw [within_flatMap h.own (nodup_of_pairwise h.ordered) hb] at hlength
  exact hsub.eq_of_length hlength

end Grouping

/-- **There is one grouping of commands only**: the blocks that are shown. -/
theorem grouping_iff {bs : List Block} : Grouping shown bs ↔ bs = blocks shown := by
  refine ⟨fun h => ?_, fun h => h ▸ grouping_blocks shown⟩
  have hperm : (bs.map Block.category).Perm (categories shown) := by
    refine (List.perm_ext_iff_of_nodup (nodup_of_pairwise h.ordered)
      (nodup_of_pairwise (pairwise_categories shown))).2 fun k => ?_
    rw [h.mem_headings, mem_categories]
  have hheadings : bs.map Block.category = categories shown :=
    hperm.eq_of_pairwise (fun _ _ _ _ hab hba => absurd hba hab.asymm) h.ordered (pairwise_categories shown)
  rw [blocks, ← hheadings, List.map_map]
  refine (List.map_id bs).symm.trans (List.map_congr_left fun b hb => ?_)
  exact congrArg (Block.mk b.category) (h.commands_eq hb)

/-! ## 4. Rows -/

variable {α : Type} {line text : String} {width : Nat} {e : String × String}

/-- So many blanks. -/
def blanks (n : Nat) : String := String.ofList (List.replicate n ' ')

/-- A line of a table: behind the indent the left entry, then two blanks or more, and at the offset the right
    entry. -/
def IsRow (indent : String) (offset : Nat) (e : String × String) (line : String) : Prop :=
  ∃ left gap, 2 ≤ gap ∧ left = indent ++ e.1 ++ blanks gap ∧ left.length = offset ∧
    line = left ++ e.2 ++ "\n"

/-- A row is such a line, if its left entry is no longer than the width. -/
theorem isRow_row (indent : String) (h : e.1.length ≤ width) :
    IsRow indent (indent.length + width + 2) e (row indent width e) := by
  refine ⟨indent ++ e.1 ++ blanks (width - e.1.length + 2), width - e.1.length + 2, Nat.le_add_left 2 _, rfl,
    ?_, ?_⟩
  · simp only [blanks, String.length_append, String.length_ofList, List.length_replicate]
    omega
  · have hgap : blanks (width - e.1.length + 2) = blanks (width - e.1.length) ++ "  " := by
      rw [blanks, blanks, List.replicate_add, String.ofList_append]
      rfl
    rw [hgap, row, Text.pad, ← blanks]
    simp only [String.append_assoc]

/-- The text is made of pieces, one for each entry. -/
def Stacked (R : α → String → Prop) (xs : List α) (text : String) : Prop :=
  ∃ pieces, List.Forall₂ R xs pieces ∧ text = String.join pieces

namespace Stacked

variable {R : α → String → Prop} {x : α} {xs : List α}

theorem nil : Stacked R [] "" := ⟨[], .nil, rfl⟩

theorem cons (hx : R x line) (h : Stacked R xs text) : Stacked R (x :: xs) (line ++ text) := by
  obtain ⟨pieces, hpieces, rfl⟩ := h
  exact ⟨line :: pieces, .cons hx hpieces, String.join_cons.symm⟩

theorem of_map {f : α → String} (h : ∀ x ∈ xs, R x (f x)) : Stacked R xs (String.join (xs.map f)) :=
  ⟨xs.map f, List.forall₂_map_right_iff.2 (List.forall₂_same.2 h), rfl⟩

end Stacked

/-- The offset of the right column next to such entries. -/
def rightOffset (indent : String) (entries : List (String × String)) : Nat :=
  indent.length + Text.width (entries.map Prod.fst) + 2

/-- There are two characters at least between the longest left entry and the offset. -/
theorem le_rightOffset {entries : List (String × String)} (he : e ∈ entries) :
    indent.length + e.1.length + 2 ≤ rightOffset indent entries :=
  Nat.add_le_add_right (Nat.add_le_add_left (Text.length_le_width (List.mem_map_of_mem he)) _) 2

/-- **All rows of a table have their right entries at one offset.** -/
theorem stacked_table (indent : String) (entries : List (String × String)) :
    Stacked (IsRow indent (rightOffset indent entries)) entries (table indent entries) :=
  .of_map fun _ he => isRow_row indent (Text.length_le_width (List.mem_map_of_mem he))

/-! ## 5. The list -/

/-- What the rows of a block say: the names of the commands, and what they are for. -/
def Block.entries (b : Block) : List (String × String) := b.commands.map fun c => (c.name, c.usage)

/-- The text of a block: a line for the heading, and below it one row for each command, all of them at the
    offset of these commands. -/
def IsBlock (b : Block) (text : String) : Prop :=
  ∃ rows, text = "   " ++ b.category ++ ":\n" ++ rows ∧
    Stacked (IsRow "     " (rightOffset "     " b.entries)) b.entries rows

/-- What is shown of the categories are the texts of the blocks. -/
theorem stacked_blocks (shown : List Command) :
    Stacked IsBlock (blocks shown) (String.join ((categories shown).map (categoryBlock shown))) := by
  refine ⟨_, ?_, rfl⟩
  rw [blocks, List.forall₂_map_left_iff, List.forall₂_map_right_iff, List.forall₂_same]
  exact fun k _ => ⟨_, rfl, stacked_table "     " (Block.entries ⟨k, within shown k⟩)⟩

/-- **The list of commands loses none and repeats none.**

    Take any commands. There is exactly one way to group those that are not hidden: each command once, under
    the heading of its own category; one heading for each category that occurs, and no other; headings in
    the order of their capitals, those with the same capitals in the order of their texts, and
    `lastCategory` last; and below a heading the commands in the order of their declaration. What is shown,
    behind the row for help, is this grouping: for each block its heading, and below it for each command one
    row, with its name and what it is for. -/
theorem commandList_grouped (commands : List Command) :
    ∃ blocks body, Grouping (commands.filter fun c => !c.hidden) blocks ∧
      (∀ other, Grouping (commands.filter fun c => !c.hidden) other → other = blocks) ∧
      Stacked IsBlock blocks body ∧
      commandList commands =
        "COMMANDS:\n   help, h  Shows a list of commands or help for one command\n" ++ body ++ "\n" := by
  have hhelp : "COMMANDS:\n" ++ row "   " 0 helpEntry =
      "COMMANDS:\n   help, h  Shows a list of commands or help for one command\n" := by decide +kernel
  refine ⟨blocks (visible commands), _, grouping_blocks _, fun _ h => grouping_iff.1 h,
    stacked_blocks (visible commands), ?_⟩
  rw [← hhelp]
  rfl

/-- Two categories with the same capitals, the last one, and a command that is hidden. -/
theorem commandList_grouped_tools :
    let commands : List Command := [
      { name := "b", category := "Tools" }, { name := "m", category := "MANAGEMENT" },
      { name := "x", category := "Secret", hidden := true }, { name := "z", category := "zoo" },
      { name := "a", category := "TOOLS" }, { name := "c", category := "Tools" }]
    ∃ blocks body, Stacked IsBlock blocks body ∧
      blocks.map (fun b => (b.category, b.commands.map (·.name))) =
        [("TOOLS", ["a"]), ("Tools", ["b", "c"]), ("zoo", ["z"]), ("MANAGEMENT", ["m"])] ∧
      commandList commands =
        "COMMANDS:\n   help, h  Shows a list of commands or help for one command\n" ++ body ++ "\n" := by
  intro commands
  let named (e : String × String) : Command := { name := e.1, category := e.2 }
  let block (e : String × List String) : Block := ⟨e.1, (e.2.map fun name => (name, e.1)).map named⟩
  let headings := [("TOOLS", ["a"]), ("Tools", ["b", "c"]), ("zoo", ["z"]), ("MANAGEMENT", ["m"])]
  let shown := [("b", "Tools"), ("m", "MANAGEMENT"), ("z", "zoo"), ("a", "TOOLS"), ("c", "Tools")]
  have hgrouping : Grouping (shown.map named) (headings.map block) := by
    constructor
    case all =>
      have hperm : [("a", "TOOLS"), ("b", "Tools"), ("c", "Tools"), ("z", "zoo"),
        ("m", "MANAGEMENT")].Perm shown := by decide
      exact hperm.map named
    case own => decide
    case occupied => decide
    case ordered =>
      unfold Precedes
      decide +kernel
    case declared =>
      have hsublist : ∀ e ∈ headings, (e.2.map fun name => (name, e.1)).Sublist shown := by decide
      intro b hb
      obtain ⟨e, he, rfl⟩ := List.mem_map.1 hb
      exact (hsublist e he).map named
  obtain ⟨bs, body, _, hunique, hstacked, htext⟩ := commandList_grouped commands
  refine ⟨bs, body, hstacked, ?_, htext⟩
  rw [← hunique _ hgrouping]
  rfl

end Help

end BrokerCli
